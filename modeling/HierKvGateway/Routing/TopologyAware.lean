import HierKvGateway.Routing.CostScores
import HierKvGateway.Routing.KvAware

/-!
# Routing.TopologyAware — the topology-aware strategy

The strategy (`topology_aware.rs`) turns the round-trip time to the Region of a candidate into a
cost. The time to a Region without an estimate is infinite, and then the score is 0.
-/

namespace HierKvGateway

/-- The topology-aware strategy. -/
structure TopologyAwareStrategy (F : Type) where
  wRtt : F
  /-- The score does not use it. -/
  wBw : F
  /-- The Region of this gateway. -/
  selfRegion : RegionId

namespace TopologyAwareStrategy

section Score

variable {F σ : Type} [Floating F]

/-- The cost of the way to a candidate; `f64` reads the bits of a number. -/
def networkCost (t : TopologyAwareStrategy F) (f64 : F64 → F) (ix : RoutingIndices)
    (cand : BackendId) : F :=
  t.wRtt * f64 (ix.topoRttMs t.selfRegion cand.region)

/-- The score of a candidate. -/
def scoreOf (t : TopologyAwareStrategy F) (f64 : F64 → F) (ix : RoutingIndices)
    (cand : BackendId) : ScoredBackend F :=
  let networkCost := t.networkCost f64 ix cand
  -- 100 ms are the baseline
  ⟨cand, Floating.ofNat 1 / (Floating.ofNat 1 + networkCost / Floating.ofNat 100), networkCost, 0⟩

/-- `TopologyAwareStrategy` as a strategy; `indices` reads the indices of the store. -/
def strategy (t : TopologyAwareStrategy F) (f64 : F64 → F) (indices : σ → RoutingIndices) :
    RoutingStrategy F σ where
  name := "topology_aware"
  evaluate _ candidates _ s := (.ok (candidates.map (t.scoreOf f64 (indices s))), s)
  isAvailable _ := true
  weight := Floating.lit 20 2

end Score

/-- The times to the Regions are costs. -/
def Timed (f64 : F64 → ExtRat) (ix : RoutingIndices) : Prop :=
  ∀ source target, (f64 (ix.topoRttMs source target)).IsCost

variable {t : TopologyAwareStrategy ExtRat} {f64 : F64 → ExtRat} {ix : RoutingIndices}

theorem isCost_networkCost {w : Rat} (hw : t.wRtt = .num w) (hpos : 0 < w) (htimed : Timed f64 ix)
    (cand : BackendId) : (t.networkCost f64 ix cand).IsCost := by
  unfold networkCost
  rw [hw]
  exact (htimed _ _).mul hpos

/-- The score is that of a hundredth of the cost. -/
theorem score_eq {w : Rat} (hw : t.wRtt = .num w) (hpos : 0 < w) (htimed : Timed f64 ix)
    (cand : BackendId) :
    (t.scoreOf f64 ix cand).score =
      ExtRat.reciprocal (.num (1 / 100) * t.networkCost f64 ix cand) := by
  have hbase : (Floating.ofNat 100 : ExtRat) = .num 100 := ExtRat.ofNat_eq 100
  unfold scoreOf ExtRat.reciprocal
  dsimp only
  rw [hbase, (isCost_networkCost hw hpos htimed cand).div_eq_mul (by norm_num)]

theorem isRate_score {w : Rat} (hw : t.wRtt = .num w) (hpos : 0 < w) (htimed : Timed f64 ix)
    (cand : BackendId) : (t.scoreOf f64 ix cand).score.IsRate := by
  rw [score_eq hw hpos htimed]
  exact ((isCost_networkCost hw hpos htimed cand).mul (by norm_num)).isRate_reciprocal

/-- The nearer one scores higher. -/
theorem le_score_iff {w : Rat} (hw : t.wRtt = .num w) (hpos : 0 < w) (htimed : Timed f64 ix)
    (x y : BackendId) :
    Floating.le (t.scoreOf f64 ix y).score (t.scoreOf f64 ix x).score = true ↔
      Floating.le (f64 (ix.topoRttMs t.selfRegion x.region))
        (f64 (ix.topoRttMs t.selfRegion y.region)) = true := by
  have hhundred : (0 : Rat) < 1 / 100 := by norm_num
  have hcost := isCost_networkCost hw hpos htimed
  rw [score_eq hw hpos htimed, score_eq hw hpos htimed,
    ExtRat.le_reciprocal_iff ((hcost x).mul hhundred) ((hcost y).mul hhundred),
    ExtRat.mul_le_mul_iff hhundred (hcost x) (hcost y)]
  unfold networkCost
  rw [hw, ExtRat.mul_le_mul_iff hpos (htimed _ _) (htimed _ _)]

end TopologyAwareStrategy

end HierKvGateway
