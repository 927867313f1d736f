import HierKvGateway.Routing.Admission

/-!
# Routing.AvailableCapacity — the capacity of a backend in 64 bits

`available_capacity` reads three numbers without sign as numbers with one and subtracts. What comes
out is the difference up to a multiple of `2 ^ 64`, and the load-aware strategy looks at its sign.

`excludes_full_iff` says for which metrics the sign is that of the difference.
-/

namespace HierKvGateway

namespace BackendMetrics

/-- The blocks that a backend has left; negative if it has too few. -/
def headroom (m : BackendMetrics) : Int :=
  m.kvTotalBlocks.toNat - (m.kvUsedBlocks.toNat + m.activeDecodeBlocks.toNat)

/-- The capacity is the headroom, taken to the numbers of 64 bits with a sign. -/
theorem availableCapacity_eq (m : BackendMetrics) :
    m.availableCapacity = m.headroom.bmod (2 ^ 64) := by
  unfold availableCapacity headroom
  rw [BitVec.toInt_eq_toNat_cond, BitVec.toNat_sub, BitVec.toNat_add, Int.bmod_def]
  have htotal := m.kvTotalBlocks.isLt
  have hused := m.kvUsedBlocks.isLt
  have hactive := m.activeDecodeBlocks.isLt
  omega

/-- The headroom is in the range of 64 bits with a sign, or so far below it that it comes out at
most 0 again. -/
def SignKept (m : BackendMetrics) : Prop :=
  -2 ^ 63 ≤ m.headroom ∧ m.headroom < 2 ^ 63 ∨
    -2 ^ 64 - 2 ^ 63 ≤ m.headroom ∧ m.headroom ≤ -2 ^ 64

instance (m : BackendMetrics) : Decidable m.SignKept := inferInstanceAs (Decidable (_ ∨ _))

/-- The range that a headroom can be in. -/
theorem headroom_bounds (m : BackendMetrics) :
    -2 ^ 65 < m.headroom ∧ m.headroom < 2 ^ 64 := by
  have htotal := m.kvTotalBlocks.isLt
  have hused := m.kvUsedBlocks.isLt
  have hactive := m.activeDecodeBlocks.isLt
  unfold headroom
  omega

theorem availableCapacity_nonpos_iff (m : BackendMetrics) :
    (m.availableCapacity ≤ 0 ↔ m.headroom ≤ 0) ↔ m.SignKept := by
  obtain ⟨hlo, hhi⟩ := m.headroom_bounds
  rw [availableCapacity_eq, Int.bmod_def]
  unfold SignKept
  generalize m.headroom = headroom at hlo hhi ⊢
  omega

end BackendMetrics

namespace LoadAwareStrategy

variable {F : Type} [Floating F]

/-- The score 0 with the cost that stands for exclusion. -/
def Excludes (l : LoadAwareStrategy F) (f64 : F64 → F) (ctx : RoutingContext)
    (store : MetadataStore F) (cand : BackendId) : Prop :=
  (l.scoreOf f64 ctx store cand).score = Floating.ofNat 0 ∧
    (l.scoreOf f64 ctx store cand).rawCost = Floating.maxValue

/-- Of the backends with metrics, those without capacity are excluded. -/
theorem excludes_iff (l : LoadAwareStrategy ExtRat) (f64 : F64 → ExtRat) (ctx : RoutingContext)
    {store : MetadataStore ExtRat} {cand : BackendId} {m : BackendMetrics}
    (hm : store.loadGetMetrics cand = some m) :
    l.Excludes f64 ctx store cand ↔ m.availableCapacity ≤ 0 := by
  unfold Excludes scoreOf
  rw [hm]
  dsimp only
  split
  · rename_i hnone
    exact ⟨fun _ => hnone, fun _ => ⟨rfl, rfl⟩⟩
  · rename_i hsome
    constructor
    · rintro ⟨hscore, hcost⟩
      dsimp only at hscore hcost
      rw [hcost] at hscore
      exact absurd hscore (reciprocal_ne_zero _)
    · intro hnone
      exact absurd hnone hsome

/-- A backend with metrics is excluded just when its blocks do not suffice, as long as the headroom
keeps its sign. -/
theorem excludes_full_iff (l : LoadAwareStrategy ExtRat) (f64 : F64 → ExtRat)
    (ctx : RoutingContext) {store : MetadataStore ExtRat} {cand : BackendId} {m : BackendMetrics}
    (hm : store.loadGetMetrics cand = some m) :
    (l.Excludes f64 ctx store cand ↔
      m.kvTotalBlocks.toNat ≤ m.kvUsedBlocks.toNat + m.activeDecodeBlocks.toNat) ↔
        m.SignKept := by
  have hfull : m.kvTotalBlocks.toNat ≤ m.kvUsedBlocks.toNat + m.activeDecodeBlocks.toNat ↔
      m.headroom ≤ 0 := by
    unfold BackendMetrics.headroom
    omega
  rw [excludes_iff l f64 ctx hm, hfull]
  exact m.availableCapacity_nonpos_iff

/-- A store with the same metrics of all backends. -/
def storeOf (m : BackendMetrics) : MetadataStore ExtRat where
  backends := ∅
  models := .new
  history := .new
  kvFindLocalOverlap _ _ := 0
  kvConfidence := Floating.ofNat 1
  loadFreshness _ := none
  loadGetMetrics _ := some m

/-- A backend of ten blocks, with eight in use and two in decoding. -/
theorem excludes_full_iff_ten :
    let m : BackendMetrics := ⟨0, 0, 2, 0, 8, 10, 0, 0, 0, ⟨0, 0, 0, 0⟩, 0⟩
    LoadAwareStrategy.default.Excludes (fun _ => Floating.ofNat 0) RoutingContext.default
      (storeOf m) ⟨⟨"eu"⟩, ⟨"a"⟩⟩ := by
  intro m
  have hm : (storeOf m).loadGetMetrics ⟨⟨"eu"⟩, ⟨"a"⟩⟩ = some m := rfl
  have hiff := excludes_full_iff LoadAwareStrategy.default (fun _ => Floating.ofNat 0)
    RoutingContext.default hm
  exact (hiff.2 (by decide)).2 (by decide)

/-- A backend that reports `2 ^ 63` blocks, of which none is in use, is excluded. -/
theorem empty_backend_excluded :
    ¬ ∀ (l : LoadAwareStrategy ExtRat) (f64 : F64 → ExtRat) (ctx : RoutingContext)
      (store : MetadataStore ExtRat) (cand : BackendId) (m : BackendMetrics),
      store.loadGetMetrics cand = some m →
        (l.Excludes f64 ctx store cand ↔
          m.kvTotalBlocks.toNat ≤ m.kvUsedBlocks.toNat + m.activeDecodeBlocks.toNat) := by
  intro h
  let m : BackendMetrics := ⟨0, 0, 0, 0, 0, 0x8000000000000000, 0, 0, 0, ⟨0, 0, 0, 0⟩, 0⟩
  have hm : (storeOf m).loadGetMetrics ⟨⟨"eu"⟩, ⟨"a"⟩⟩ = some m := rfl
  have hiff := h LoadAwareStrategy.default (fun _ => Floating.ofNat 0) RoutingContext.default
    (storeOf m) ⟨⟨"eu"⟩, ⟨"a"⟩⟩ m hm
  have hexcluded := (excludes_iff LoadAwareStrategy.default (fun _ => Floating.ofNat 0)
    RoutingContext.default hm).2 (by decide)
  exact absurd (hiff.1 hexcluded) (by decide)

end LoadAwareStrategy

end HierKvGateway
