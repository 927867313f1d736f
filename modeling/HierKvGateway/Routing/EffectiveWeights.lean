import HierKvGateway.Routing.Exclusion
import HierKvGateway.Routing.OutcomeAverages
import HierKvGateway.Routing.WeightFloor

/-!
# Routing.EffectiveWeights — the weights in effect

The controller recomputes the weights from what was recorded when the interval is over. With exact
numbers, whatever was recorded before, the weights in effect are the configured ones or shares of
one with a floor (`effective_run`). So the hybrid strategy can rely on weights that are not negative
(`nonNegative_controlled`).
-/

namespace HierKvGateway

namespace AdaptiveWeightController

open OutcomeStats
open WaterFilling (Share)

variable {base : AdaptiveWeights ExtRat} {cfg : AdaptiveConfig ExtRat}
  {ctl : AdaptiveWeightController ExtRat}

/-! ## The signals -/

/-- What is recorded are rates. -/
structure Rated (ctl : AdaptiveWeightController ExtRat) : Prop where
  success : ∀ b, (statsOf ctl b).emaSuccess.IsRate
  hit : ∀ r, ctl.kvHitEma = some r → r.IsRate

/-- The worst success rate is a number, so the pressure is a rate. -/
theorem isRate_failurePressure (h : Rated ctl) : ctl.failurePressure.IsRate := by
  have hrates : ∀ x ∈ (ctl.outcomes.entries.filter fun e => e.2.samples ≠ 0).map
      fun e => e.2.emaSuccess, x.IsRate := by
    intro x hx
    obtain ⟨e, he, rfl⟩ := List.mem_map.1 hx
    have hlookup : ctl.outcomes.lookup e.1 = some e.2 :=
      AList.mem_lookup_iff.2 (List.mem_filter.1 he).1
    have hrate := h.success e.1
    unfold statsOf outcomeStats at hrate
    rw [hlookup] at hrate
    exact hrate
  unfold failurePressure
  dsimp only
  split
  · rename_i minSuccess hworst
    obtain ⟨q, rfl⟩ : ∃ q, minSuccess = .num q := by
      revert minSuccess
      refine List.foldlRecOn (motive := fun acc : Option ExtRat =>
        ∀ m, acc = some m → ∃ q, m = .num q) _ _
        (fun m hm => absurd hm.symm (Option.some_ne_none m)) ?_
      intro acc hacc s hs m hm
      obtain ⟨q, rfl, -, -⟩ := hrates s hs
      rw [← Option.some.inj hm]
      cases acc with
      | none => exact ⟨q, rfl⟩
      | some m' =>
        obtain ⟨p, rfl⟩ := hacc m' rfl
        exact ⟨min p q, ExtRat.min_num p q⟩
    refine ExtRat.isRate_clamp ?_
    rw [ExtRat.ofNat_eq, ExtRat.num_sub]
    exact ExtRat.noConfusion
  · exact ExtRat.isRate_zero

/-! ## The weights -/

/-- Weights that are not negative, and exact limits. -/
structure ExactConfig (base : AdaptiveWeights ExtRat) (cfg : AdaptiveConfig ExtRat) : Prop where
  kv : base.kv.NonNegative
  load : base.load.NonNegative
  topology : base.topology.NonNegative
  cost : base.cost.NonNegative
  emaAlpha : ∃ q, cfg.emaAlpha = .num q
  maxAdjustment : ∃ q, cfg.maxAdjustment = .num q

/-- Shares of one, none below the floor. -/
def AreShares (floor : Rat) (w : AdaptiveWeights ExtRat) : Prop :=
  ∃ kv load topology cost : Rat,
    w = ⟨.num kv, .num load, .num topology, .num cost⟩ ∧
      kv + load + topology + cost = 1 ∧ ∀ v ∈ [kv, load, topology, cost], floor ≤ v

/-- A weight that is not 0 or less is more than 0. -/
theorem lt_of_not_le {x : ExtRat} (hx : x.NonNegative)
    (h : ¬Floating.le x (Floating.ofNat 0) = true) : Floating.lt (Floating.ofNat 0) x = true := by
  obtain ⟨q, -, rfl⟩ := hx
  rw [ExtRat.ofNat_eq, ExtRat.le_num, decide_eq_true_eq] at h
  rw [ExtRat.ofNat_eq, ExtRat.lt_num, decide_eq_true_eq]
  exact not_le.1 h

/-- Four weights become four shares. -/
theorem exists_areShares {a b c d : ExtRat} (ha : a.NonNegative) (hb : b.NonNegative)
    (hc : c.NonNegative) (hd : d.NonNegative) {floor : Rat} (hfloor : 0 ≤ floor)
    (hfits : floor ≤ 1 / 4) :
    ∃ w : AdaptiveWeights ExtRat, AreShares floor w ∧
      normalizeWithFloor [a, b, c, d] (.num floor) = some [w.kv, w.load, w.topology, w.cost] := by
  obtain ⟨a, ha, rfl⟩ := ha
  obtain ⟨b, hb, rfl⟩ := hb
  obtain ⟨c, hc, rfl⟩ := hc
  obtain ⟨d, hd, rfl⟩ := hd
  have hnonneg : ∀ v ∈ [a, b, c, d], 0 ≤ v := by
    intro v hv
    simp only [List.mem_cons, List.not_mem_nil, or_false] at hv
    rcases hv with rfl | rfl | rfl | rfl <;> assumption
  have hlength : (([a, b, c, d].length : Nat) : Rat) * floor ≤ 1 := by
    norm_num
    linarith
  obtain ⟨r, hr, hshared⟩ := exists_shared (List.cons_ne_nil a _) hnonneg hfloor hlength
  have hresult := normalizeWithFloor_of_fill hr
  obtain ⟨kv, load, topology, cost, rfl⟩ := List.length_eq_four.1 hshared.length
  refine ⟨⟨.num kv.value, .num load.value, .num topology.value, .num cost.value⟩,
    ⟨_, _, _, _, rfl, ?_, ?_⟩, hresult⟩
  · have hsum := hshared.sum
    simp only [List.map_cons, List.map_nil, List.sum_cons, List.sum_nil] at hsum
    linarith
  · have hle := hshared.floor_le
    simpa using hle

/-- The boosts are a rate of the greatest adjustment. -/
theorem nonNegative_kvBoost {maxAdj : ExtRat} (hrated : Rated ctl) (hadj : maxAdj.NonNegative) :
    (ctl.kvBoost maxAdj).NonNegative := by
  unfold kvBoost
  split
  · rename_i r hr
    obtain ⟨q, rfl, -, -⟩ := hrated.hit r hr
    have hlit : (Floating.lit 5 1 : ExtRat) = .num (5 / 10 ^ 1) := rfl
    obtain ⟨p, hp, hpos, -⟩ : ExtRat.IsRate (Floating.clamp
        ((ExtRat.num q - Floating.lit 5 1) * Floating.ofNat 2) (Floating.ofNat 0)
        (Floating.ofNat 1)) := by
      refine ExtRat.isRate_clamp ?_
      rw [hlit, ExtRat.ofNat_eq, ExtRat.num_sub, ExtRat.num_mul]
      exact ExtRat.noConfusion
    exact ExtRat.NonNegative.mul ⟨p, hpos, hp⟩ hadj
  · exact ExtRat.nonNegative_ofNat 0

theorem nonNegative_loadBoost {maxAdj : ExtRat} (sqrt : ExtRat → ExtRat)
    (store : MetadataStore ExtRat) (hrated : Rated ctl) (hadj : maxAdj.NonNegative) :
    (ctl.loadBoost sqrt store maxAdj).NonNegative := by
  obtain ⟨q, hq, -, -⟩ := isRate_failurePressure hrated
  obtain ⟨p, hp, hpos, -⟩ : ExtRat.IsRate (Floating.clamp
      (Floating.max ctl.failurePressure (loadSpread sqrt store)) (Floating.ofNat 0)
      (Floating.ofNat 1)) := by
    refine ExtRat.isRate_clamp ?_
    rw [hq]
    exact ExtRat.max_num_ne_nan q _
  exact ExtRat.NonNegative.mul ⟨p, hpos, hp⟩ hadj

/-- The floor in effect: a quarter at most. -/
def effectiveFloor (minWeight : Rat) : Rat := max 0 (min minWeight (1 / 4))

/-- New weights are the configured ones if these are all 0, and otherwise shares of one. -/
theorem compute_cases (sqrt : ExtRat → ExtRat) (store : MetadataStore ExtRat) (hrated : Rated ctl)
    (hcfg : ExactConfig ctl.base ctl.cfg) {minWeight : Rat}
    (hmin : ctl.cfg.minWeight = .num minWeight) :
    ctl.compute sqrt store = ctl.base ∨
      AreShares (effectiveFloor minWeight) (ctl.compute sqrt store) := by
  obtain ⟨adj, hadj⟩ := hcfg.maxAdjustment
  have hmaxAdj : (Floating.max ctl.cfg.maxAdjustment (Floating.ofNat 0)).NonNegative := by
    rw [hadj, ExtRat.ofNat_eq, ExtRat.max_num, Nat.cast_zero]
    exact ⟨_, le_max_right adj 0, rfl⟩
  have hone := ExtRat.nonNegative_ofNat 1
  have hkv := hcfg.kv.mul (hone.add (nonNegative_kvBoost hrated hmaxAdj))
  have hload := hcfg.load.mul (hone.add (nonNegative_loadBoost sqrt store hrated hmaxAdj))
  have hsum := ((hkv.add hload).add hcfg.topology).add hcfg.cost
  have hfloor : Floating.clamp ctl.cfg.minWeight (Floating.ofNat 0)
      (Floating.ofNat 1 / Floating.ofNat 4) = ExtRat.num (effectiveFloor minWeight) := by
    rw [hmin, ExtRat.ofNat_eq, ExtRat.ofNat_eq, ExtRat.ofNat_eq, ExtRat.num_div _ _ (by norm_num),
      Nat.cast_zero, Nat.cast_one, ExtRat.clamp_num _ (by norm_num)]
    rfl
  unfold compute
  dsimp only
  split
  · exact Or.inl rfl
  · rename_i hle
    right
    have hpos : Floating.lt (Floating.ofNat 0) _ = true := lt_of_not_le hsum hle
    obtain ⟨w, hw, hresult⟩ := exists_areShares (hkv.div hsum hpos) (hload.div hsum hpos)
      (hcfg.topology.div hsum hpos) (hcfg.cost.div hsum hpos) (le_max_left 0 _)
      (max_le (by norm_num) (min_le_right minWeight (1 / 4)))
    rw [hfloor]
    unfold effectiveFloor
    rw [hresult]
    exact hw

/-! ## All calls -/

/-- A call of the controller. -/
inductive ControllerCall where
  | success (b : BackendId) (latency : Duration)
  | failure (b : BackendId)
  | kvOverlap (overlap promptBlocks : BitVec 32)
  | weights (store : MetadataStore ExtRat) (now : Nat)

/-- The controller after a call. -/
def perform (sqrt : ExtRat → ExtRat) (ctl : AdaptiveWeightController ExtRat) :
    ControllerCall → AdaptiveWeightController ExtRat
  | .success b latency => ctl.recordSuccess b latency
  | .failure b => ctl.recordFailure b
  | .kvOverlap overlap promptBlocks => ctl.recordKvOverlap overlap promptBlocks
  | .weights store now => (ctl.effectiveWeights sqrt store now).2

/-- A controller with this configuration: what is recorded are rates, and the weights are the
configured ones or shares of one. -/
structure Effective (base : AdaptiveWeights ExtRat) (cfg : AdaptiveConfig ExtRat)
    (minWeight : Rat) (ctl : AdaptiveWeightController ExtRat) : Prop where
  sameBase : ctl.base = base
  sameCfg : ctl.cfg = cfg
  rated : Rated ctl
  current : ctl.current = base ∨ AreShares (effectiveFloor minWeight) ctl.current

variable {minWeight : Rat}

theorem effective_new (base : AdaptiveWeights ExtRat) (cfg : AdaptiveConfig ExtRat)
    (minWeight : Rat) (now : Nat) : Effective base cfg minWeight (new base cfg now) where
  sameBase := rfl
  sameCfg := rfl
  rated := ⟨fun _ => ExtRat.isRate_one, fun r hr => absurd hr.symm (Option.some_ne_none r)⟩
  current := Or.inl rfl

/-- The factor of the averages is a rate. -/
theorem exists_alpha (h : ∃ q, ctl.cfg.emaAlpha = .num q) :
    ∃ α : Rat, ctl.alpha = .num α ∧ 0 ≤ α ∧ α ≤ 1 := by
  obtain ⟨q, hq⟩ := h
  refine ⟨_, alpha_eq hq, le_max_of_le_left (by norm_num), max_le (by norm_num) ?_⟩
  exact min_le_right q 1

/-- An outcome that is averaged leaves rates. -/
theorem Effective.recordOutcome (h : Effective base cfg minWeight ctl) (b : BackendId)
    {next : OutcomeStats ExtRat → OutcomeStats ExtRat}
    (hnext : ∀ s : OutcomeStats ExtRat, s.emaSuccess.IsRate → (next s).emaSuccess.IsRate) :
    Effective base cfg minWeight (ctl.recordOutcome next b) where
  sameBase := h.sameBase
  sameCfg := h.sameCfg
  rated := by
    refine ⟨fun c => ?_, h.rated.hit⟩
    by_cases hc : c = b
    · subst hc
      rw [Recorded.statsOf_recordOutcome_self]
      exact hnext _ (h.rated.success c)
    · rw [Recorded.statsOf_recordOutcome_ne next hc]
      exact h.rated.success c
  current := h.current

theorem Effective.recordKvOverlap (h : Effective base cfg minWeight ctl)
    (hcfg : ExactConfig base cfg) (overlap promptBlocks : BitVec 32) :
    Effective base cfg minWeight (ctl.recordKvOverlap overlap promptBlocks) := by
  obtain ⟨α, hα, hpos, hle⟩ := exists_alpha (h.sameCfg ▸ hcfg.emaAlpha)
  unfold AdaptiveWeightController.recordKvOverlap
  split
  · exact h
  · rename_i hblocks
    have hne : (promptBlocks.toNat : Rat) ≠ 0 := by
      rw [Nat.cast_ne_zero]
      intro hzero
      exact hblocks (BitVec.eq_of_toNat_eq hzero)
    have hratio : ExtRat.IsRate (Floating.clamp
        (Floating.ofNat overlap.toNat / Floating.ofNat promptBlocks.toNat) (Floating.ofNat 0)
        (Floating.ofNat 1)) := by
      refine ExtRat.isRate_clamp ?_
      rw [ExtRat.ofNat_eq, ExtRat.ofNat_eq, ExtRat.num_div _ _ hne]
      exact ExtRat.noConfusion
    refine ⟨h.sameBase, h.sameCfg, ⟨h.rated.success, ?_⟩, h.current⟩
    intro r hr
    rw [← Option.some.inj hr]
    split
    · rename_i prev hprev
      -- as an average that is not the first
      rw [hα]
      exact isRate_ema hpos hle (h.rated.hit prev hprev) hratio 1
    · exact hratio

theorem Effective.adjust (h : Effective base cfg minWeight ctl) (hcfg : ExactConfig base cfg)
    (hmin : cfg.minWeight = .num minWeight) (sqrt : ExtRat → ExtRat)
    (store : MetadataStore ExtRat) (now : Nat) :
    Effective base cfg minWeight (ctl.adjust sqrt store now) := by
  obtain ⟨rfl, rfl, hrated, hcurrent⟩ := h
  unfold AdaptiveWeightController.adjust
  split
  · exact ⟨rfl, rfl, hrated, hcurrent⟩
  · exact ⟨rfl, rfl, ⟨hrated.success, hrated.hit⟩, compute_cases sqrt store hrated hcfg hmin⟩

theorem Effective.perform (h : Effective base cfg minWeight ctl) (hcfg : ExactConfig base cfg)
    (hmin : cfg.minWeight = .num minWeight) (sqrt : ExtRat → ExtRat) (call : ControllerCall) :
    Effective base cfg minWeight (ctl.perform sqrt call) := by
  obtain ⟨α, hα, hpos, hle⟩ := exists_alpha (h.sameCfg ▸ hcfg.emaAlpha)
  cases call with
  | success b latency =>
    show Effective base cfg minWeight (ctl.recordOutcome (.success ctl.alpha latency) b)
    rw [hα]
    refine h.recordOutcome b fun s hs => ?_
    exact isRate_ema hpos hle hs ExtRat.isRate_one s.samples
  | failure b =>
    show Effective base cfg minWeight (ctl.recordOutcome (.failure ctl.alpha) b)
    rw [hα]
    refine h.recordOutcome b fun s hs => ?_
    exact isRate_ema hpos hle hs ExtRat.isRate_zero s.samples
  | kvOverlap overlap promptBlocks => exact h.recordKvOverlap hcfg overlap promptBlocks
  | weights store now => exact h.adjust hcfg hmin sqrt store now

/-- After any calls, the weights in effect are the configured ones or shares of one, none below the
floor. -/
theorem effective_run (hcfg : ExactConfig base cfg) (hmin : cfg.minWeight = .num minWeight)
    (sqrt : ExtRat → ExtRat) (created : Nat) (calls : List ControllerCall)
    (store : MetadataStore ExtRat) (now : Nat) {w : AdaptiveWeights ExtRat}
    (hw : ((calls.foldl (perform sqrt) (new base cfg created)).effectiveWeights sqrt store now).1 =
      w) : w = base ∨ AreShares (effectiveFloor minWeight) w := by
  have hrun : Effective base cfg minWeight (calls.foldl (perform sqrt) (new base cfg created)) :=
    Run.foldl_preserves (fun _ call h => h.perform hcfg hmin sqrt call)
      (effective_new base cfg minWeight created) calls
  have hcurrent := (hrun.adjust hcfg hmin sqrt store now).current
  unfold effectiveWeights at hw
  dsimp only at hw
  rwa [hw] at hcurrent

/-! ## The hybrid strategy -/

/-- A controller in effect. -/
abbrev InEffect (base : AdaptiveWeights ExtRat) (cfg : AdaptiveConfig ExtRat) (minWeight : Rat) :
    Type := { ctl : AdaptiveWeightController ExtRat // Effective base cfg minWeight ctl }

/-- The controller as the hybrid strategy asks it, at an instant. -/
def controlled (hcfg : ExactConfig base cfg) (hmin : cfg.minWeight = .num minWeight)
    (sqrt : ExtRat → ExtRat) (now : Nat) (store : MetadataStore ExtRat)
    (ctl : InEffect base cfg minWeight) : StrategyWeights ExtRat × InEffect base cfg minWeight :=
  let w := (ctl.val.effectiveWeights sqrt store now).1
  (⟨w.kv, w.load, w.topology⟩,
    ⟨ctl.val.adjust sqrt store now, ctl.property.adjust hcfg hmin sqrt store now⟩)

/-- With such a controller, no weight of the hybrid strategy is negative. -/
theorem nonNegative_controlled {h : HybridStrategy ExtRat (InEffect base cfg minWeight)}
    (hcfg : ExactConfig base cfg) (hmin : cfg.minWeight = .num minWeight)
    (sqrt : ExtRat → ExtRat) (now : Nat)
    (hadaptive : h.adaptive = some (controlled hcfg hmin sqrt now))
    (hplugins : ∀ p ∈ h.plugins, p.weight.NonNegative) : h.NonNegative := by
  refine ⟨fun store ctl => ?_, hplugins⟩
  have hcurrent := (ctl.property.adjust hcfg hmin sqrt store now).current
  unfold HybridStrategy.effectiveBaseWeights
  rw [hadaptive]
  unfold controlled effectiveWeights
  dsimp only
  rcases hcurrent with hbase | ⟨kv, load, topology, cost, hw, -, hfloor⟩
  · rw [hbase]
    exact ⟨hcfg.kv, hcfg.load, hcfg.topology⟩
  · have hnonneg : ∀ v ∈ [kv, load, topology, cost], 0 ≤ v :=
      fun v hv => (le_max_left 0 _).trans (hfloor v hv)
    rw [hw]
    exact ⟨⟨kv, hnonneg kv (by simp), rfl⟩, ⟨load, hnonneg load (by simp), rfl⟩,
      ⟨topology, hnonneg topology (by simp), rfl⟩⟩

end AdaptiveWeightController

end HierKvGateway
