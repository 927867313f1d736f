import HierKvGateway.Core.ExtRat
import HierKvGateway.Core.Metrics
import HierKvGateway.Routing.Strategy

/-!
# Routing.Admission — strategies that exclude backends

Two strategies look at the load metrics of a backend and exclude it if it has no room: the
load-aware strategy (`load_aware.rs`) and the KV-capacity plugin (`kv_capacity.rs`). To exclude is
to give the score 0 and a cost that stands for exclusion, which is `f64::MAX` with the one and the
infinity with the other.

`LoadAwareStrategy.excluded_iff` and `KvCapacityStrategy.excluded_iff` say which backends are
excluded.
-/

namespace HierKvGateway

variable {F σ : Type} [Floating F]

/-- A backend is excluded: the score 0 with a cost of exclusion. -/
def ScoredBackend.Excluded (s : ScoredBackend F) : Prop :=
  s.score = Floating.ofNat 0 ∧ (s.rawCost = Floating.maxValue ∨ s.rawCost = Floating.infinity)

instance [DecidableEq F] (s : ScoredBackend F) : Decidable s.Excluded :=
  inferInstanceAs (Decidable (_ ∧ _))

namespace BackendMetrics

/-- `kv_cache_usage`. -/
def kvCacheUsage (m : BackendMetrics) : F :=
  if m.kvTotalBlocks = 0 then Floating.ofNat 0
  else Floating.ofNat m.kvUsedBlocks.toNat / Floating.ofNat m.kvTotalBlocks.toNat

/-- `available_capacity`, in blocks (an `i64`). -/
def availableCapacity (m : BackendMetrics) : Int :=
  -- the counters are read as `i64`, so that an overloaded backend comes out negative
  let used := m.kvUsedBlocks + m.activeDecodeBlocks
  (m.kvTotalBlocks - used).toInt

end BackendMetrics

/-! ## The load-aware strategy -/

/-- The load-aware strategy: the weights of its terms. -/
structure LoadAwareStrategy (F : Type) where
  wReq : F
  wQueue : F
  wLat : F
  wGpu : F
  wKv : F
  wDecode : F
  wPrefill : F

namespace LoadAwareStrategy

/-- `LoadAwareStrategy::default`. -/
def default : LoadAwareStrategy F where
  wReq := Floating.ofNat 1
  wQueue := Floating.ofNat 1
  wLat := Floating.lit 1 2
  wGpu := Floating.ofNat 1
  wKv := Floating.ofNat 1
  wDecode := Floating.lit 2 2
  wPrefill := Floating.lit 1 3

/-- The blocks that the output of a request fills at most. -/
def reqDecodeBlocks (ctx : RoutingContext) : Nat :=
  if 0 < ctx.blockSize.toNat then
    (ctx.estimatedOutputTokens.toNat + ctx.blockSize.toNat - 1) / ctx.blockSize.toNat
  else 0

/-- The weighted load cost; `f64` reads the bits of a number. -/
def loadCost (l : LoadAwareStrategy F) (f64 : F64 → F) (ctx : RoutingContext) (m : BackendMetrics) :
    F :=
  let projectedDecode := Floating.ofNat m.activeDecodeBlocks.toNat + Floating.ofNat (reqDecodeBlocks ctx)
  l.wReq * Floating.ofNat m.activeRequests.toNat + l.wQueue * Floating.ofNat m.queueDepth.toNat +
    l.wLat * (f64 m.latency.p99Ms / Floating.ofNat 100) + l.wGpu * f64 m.gpuUtilization +
    l.wKv * m.kvCacheUsage + l.wDecode * projectedDecode +
    l.wPrefill * Floating.ofNat m.activePrefillTokens.toNat

/-- The score of a candidate. -/
def scoreOf (l : LoadAwareStrategy F) (f64 : F64 → F) (ctx : RoutingContext)
    (store : MetadataStore F) (cand : BackendId) : ScoredBackend F :=
  match store.loadGetMetrics cand with
  | none => ⟨cand, Floating.ofNat 0, Floating.maxValue, 0⟩
  | some m =>
    if m.availableCapacity ≤ 0 then ⟨cand, Floating.ofNat 0, Floating.maxValue, 0⟩
    else
      let cost := l.loadCost f64 ctx m
      ⟨cand, Floating.ofNat 1 / (Floating.ofNat 1 + cost), cost, 0⟩

theorem backendId_scoreOf (l : LoadAwareStrategy F) (f64 : F64 → F) (ctx : RoutingContext)
    (store : MetadataStore F) (cand : BackendId) : (l.scoreOf f64 ctx store cand).backendId = cand := by
  unfold scoreOf
  split
  · rfl
  · split
    · rfl
    · rfl

/-- `LoadAwareStrategy` as a strategy. -/
def strategy (l : LoadAwareStrategy F) (f64 : F64 → F) : RoutingStrategy F σ where
  name := "load_aware"
  evaluate ctx candidates store s := (.ok (candidates.map (l.scoreOf f64 ctx store)), s)
  isAvailable store := store.backendsAll.any fun b => (store.loadGetMetrics b.id).isSome
  weight := Floating.lit 30 2

/-- No metrics, or no available capacity. -/
def NoCapacity (store : MetadataStore F) (cand : BackendId) : Prop :=
  ∀ m, store.loadGetMetrics cand = some m → m.availableCapacity ≤ 0

end LoadAwareStrategy

/-! ## The KV-capacity strategy -/

/-- What a KV footprint is estimated from. -/
structure EstimateInput where
  batchSize : BitVec 32
  inputTokens : BitVec 32
  outputTokens : BitVec 32
  blockSize : BitVec 32
deriving DecidableEq, Repr

/-- The estimate of a KV footprint, as far as the strategy reads it. -/
structure KvEstimate where
  bytes : BitVec 64
  perTokenBytes : BitVec 64
deriving DecidableEq, Repr

/-- The KV-capacity strategy. -/
structure KvCapacityStrategy (F : Type) where
  /-- The estimate of the first estimator that knows the model; estimators are plugins. -/
  estimate : String → EstimateInput → Option KvEstimate
  weight : F
  gpuMemSafetyFraction : F
  excludeOnUnknownSpec : Bool

namespace KvCapacityStrategy

/-- `BYTES_PER_MB`. -/
def bytesPerMb : F := Floating.ofNat 1000000

/-- The bytes that a backend has left for the KV cache, if its metrics tell. -/
def availableBytes (est : KvEstimate) (m : BackendMetrics) (blockSize : BitVec 32)
    (gpuMemSafetyFraction : F) : Option F :=
  let perBlockBytes :=
    if 0 < blockSize.toNat then min (est.perTokenBytes.toNat * blockSize.toNat) (2 ^ 64 - 1) else 0
  -- the free blocks, or else a part of the free memory
  if 0 < m.kvTotalBlocks.toNat ∧ 0 < blockSize.toNat ∧ 0 < perBlockBytes then
    let freeBlocks := m.kvTotalBlocks.toNat - m.kvUsedBlocks.toNat
    some (Floating.ofNat freeBlocks * Floating.ofNat perBlockBytes)
  else if 0 < m.gpuMemoryTotalMb.toNat then
    let freeMb := m.gpuMemoryTotalMb.toNat - m.gpuMemoryUsedMb.toNat
    some (Floating.ofNat freeMb * bytesPerMb * gpuMemSafetyFraction)
  else none

/-- `score_capacity`: the cost and the score. -/
def scoreCapacity (est : KvEstimate) (m : BackendMetrics) (blockSize : BitVec 32)
    (gpuMemSafetyFraction : F) : F × F :=
  match availableBytes est m blockSize gpuMemSafetyFraction with
  | none => (Floating.ofNat 0, Floating.ofNat 1)
  | some available =>
    let footprint := Floating.ofNat est.bytes.toNat
    -- both comparisons fail for NaN, and then the backend is admitted
    if Floating.le available (Floating.ofNat 0) then (Floating.infinity, Floating.ofNat 0)
    else if Floating.lt available footprint then (Floating.infinity, Floating.ofNat 0)
    else
      let ratio := Floating.clamp (footprint / available) (Floating.ofNat 0) (Floating.ofNat 1)
      (ratio, Floating.ofNat 1 / (Floating.ofNat 1 + ratio))

/-- `resolve_served_model`: the instance with the name that is asked for, or the first one. -/
def resolveServedModel (cand : BackendId) (requested : Option String) (store : MetadataStore F) :
    Option String :=
  let instances := store.modelGetInstances cand
  ((requested.bind fun name => instances.find? (·.modelName = name)).or instances.head?).map
    (·.modelName)

/-- `estimate_prompt_tokens`. -/
def estimatePromptTokens (ctx : RoutingContext) : BitVec 32 :=
  if ctx.tokenIds ≠ [] then BitVec.ofNat 32 ctx.tokenIds.length
  else if ctx.blockHashes ≠ [] ∧ 0 < ctx.blockSize.toNat then
    BitVec.ofNat 32 ctx.blockHashes.length * ctx.blockSize
  else 0

/-- What the footprint of a request is estimated from. -/
def input (ctx : RoutingContext) : EstimateInput :=
  ⟨1, estimatePromptTokens ctx, ctx.estimatedOutputTokens, ctx.blockSize⟩

/-- The score of a candidate. -/
def scoreOf (k : KvCapacityStrategy F) (ctx : RoutingContext) (store : MetadataStore F)
    (cand : BackendId) : ScoredBackend F :=
  match resolveServedModel cand ctx.modelName store with
  | none => ⟨cand, Floating.ofNat 1, Floating.ofNat 0, 0⟩
  | some servedModel =>
    match k.estimate servedModel (input ctx) with
    | none =>
      if k.excludeOnUnknownSpec then ⟨cand, Floating.ofNat 0, Floating.infinity, 0⟩
      else ⟨cand, Floating.ofNat 1, Floating.ofNat 0, 0⟩
    | some est =>
      match store.loadGetMetrics cand with
      | none => ⟨cand, Floating.ofNat 1, Floating.ofNat 0, 0⟩
      | some m =>
        let (cost, score) := scoreCapacity est m ctx.blockSize k.gpuMemSafetyFraction
        ⟨cand, score, cost, 0⟩

theorem backendId_scoreOf (k : KvCapacityStrategy F) (ctx : RoutingContext)
    (store : MetadataStore F) (cand : BackendId) : (k.scoreOf ctx store cand).backendId = cand := by
  unfold scoreOf
  split
  · rfl
  · split
    · split
      · rfl
      · rfl
    · split
      · rfl
      · rfl

/-- `KvCapacityStrategy` as a strategy. -/
def strategy (k : KvCapacityStrategy F) : RoutingStrategy F σ where
  name := "kv_capacity"
  evaluate ctx candidates store s := (.ok (candidates.map (k.scoreOf ctx store)), s)
  isAvailable _ := true
  weight := k.weight

/-- The model is unknown and that excludes, or the footprint is larger than what is left, or
nothing is left. -/
def TooLarge (k : KvCapacityStrategy F) (ctx : RoutingContext) (store : MetadataStore F)
    (cand : BackendId) : Prop :=
  ∃ servedModel, resolveServedModel cand ctx.modelName store = some servedModel ∧
    match k.estimate servedModel (input ctx) with
    | none => k.excludeOnUnknownSpec = true
    | some est =>
      ∃ m available, store.loadGetMetrics cand = some m ∧
        availableBytes est m ctx.blockSize k.gpuMemSafetyFraction = some available ∧
          (Floating.le available (Floating.ofNat 0) = true ∨
            Floating.lt available (Floating.ofNat est.bytes.toNat) = true)

end KvCapacityStrategy

/-! ## Who is excluded -/

theorem reciprocal_ne_zero (q : Rat) :
    Floating.ofNat 1 / (Floating.ofNat 1 + ExtRat.num q) ≠ (Floating.ofNat 0 : ExtRat) := by
  rw [ExtRat.ofNat_eq, ExtRat.ofNat_eq, ExtRat.num_add]
  by_cases h : (1 : Nat) + q = 0
  · rw [h]
    exact nofun
  · rw [ExtRat.num_div _ _ h]
    intro heq
    have hzero := ExtRat.num.inj heq
    rw [Nat.cast_zero, div_eq_zero_iff] at hzero
    exact hzero.elim (by norm_num) h

/-- With the score `1 / (1 + cost)`, only an infinite cost excludes. -/
theorem excluded_of_cost (cand : BackendId) (cost : ExtRat) :
    (⟨cand, Floating.ofNat 1 / (Floating.ofNat 1 + cost), cost, 0⟩ : ScoredBackend ExtRat).Excluded ↔
      cost = Floating.infinity := by
  unfold ScoredBackend.Excluded
  dsimp only
  constructor
  · rintro ⟨hscore, rfl | hcost⟩
    · exact absurd hscore (reciprocal_ne_zero _)
    · exact hcost
  · rintro rfl
    refine ⟨?_, Or.inr rfl⟩
    rw [ExtRat.ofNat_eq, ExtRat.ofNat_eq, Nat.cast_zero]
    rfl

theorem excluded_maxValue (cand : BackendId) :
    (⟨cand, Floating.ofNat 0, Floating.maxValue, 0⟩ : ScoredBackend ExtRat).Excluded :=
  ⟨rfl, Or.inl rfl⟩

theorem excluded_infinity (cand : BackendId) :
    (⟨cand, Floating.ofNat 0, Floating.infinity, 0⟩ : ScoredBackend ExtRat).Excluded :=
  ⟨rfl, Or.inr rfl⟩

/-- The load-aware strategy excludes the backends without metrics or capacity, and those whose
metrics are infinite. -/
theorem LoadAwareStrategy.excluded_iff (l : LoadAwareStrategy ExtRat) (f64 : F64 → ExtRat)
    (ctx : RoutingContext) (store : MetadataStore ExtRat) (cand : BackendId) :
    (l.scoreOf f64 ctx store cand).Excluded ↔
      NoCapacity store cand ∨
        ∃ m, store.loadGetMetrics cand = some m ∧ l.loadCost f64 ctx m = Floating.infinity := by
  unfold scoreOf NoCapacity
  rcases store.loadGetMetrics cand with _ | m
  · constructor
    · intro _
      exact Or.inl fun m hm => absurd hm nofun
    · intro _
      exact excluded_maxValue cand
  · dsimp only
    split
    · rename_i hcap
      constructor
      · intro _
        refine Or.inl ?_
        intro m' hm
        rw [← Option.some.inj hm]
        exact hcap
      · intro _
        exact excluded_maxValue cand
    · rename_i hcap
      rw [excluded_of_cost]
      constructor
      · intro hcost
        exact Or.inr ⟨m, rfl, hcost⟩
      · rintro (hno | ⟨m', hm, hcost⟩)
        · exact absurd (hno m rfl) hcap
        · rw [Option.some.inj hm]
          exact hcost

namespace KvCapacityStrategy

theorem clamp_ne_infinity (x : ExtRat) :
    Floating.clamp x (Floating.ofNat 0) (Floating.ofNat 1) ≠ Floating.infinity := by
  have hone : (Floating.ofNat 1 : ExtRat) ≠ Floating.infinity := by decide
  unfold Floating.clamp
  dsimp only
  generalize (if Floating.lt x (Floating.ofNat 0) then Floating.ofNat 0 else x : ExtRat) = y
  split
  · exact hone
  · rename_i hle
    rintro rfl
    exact hle (by decide)

/-- The KV-capacity strategy excludes the backends that the footprint is too large for. -/
theorem excluded_iff (k : KvCapacityStrategy ExtRat) (ctx : RoutingContext)
    (store : MetadataStore ExtRat) (cand : BackendId) :
    (k.scoreOf ctx store cand).Excluded ↔ k.TooLarge ctx store cand := by
  have hneutral :
      ¬(⟨cand, Floating.ofNat 1, Floating.ofNat 0, 0⟩ : ScoredBackend ExtRat).Excluded := by
    rintro ⟨hone, -⟩
    have hne : (Floating.ofNat 1 : ExtRat) ≠ Floating.ofNat 0 := by decide +kernel
    exact hne hone
  unfold scoreOf TooLarge
  rcases resolveServedModel cand ctx.modelName store with _ | servedModel
  · simpa using hneutral
  · simp only [Option.some.injEq, exists_eq_left']
    rcases k.estimate servedModel (input ctx) with _ | est
    · dsimp only
      split
      · rename_i hflag
        simpa [hflag] using excluded_infinity cand
      · rename_i hflag
        simpa [hflag] using hneutral
    · dsimp only
      rcases store.loadGetMetrics cand with _ | m
      · simpa using hneutral
      · simp only [Option.some.injEq, exists_and_left, exists_eq_left']
        unfold scoreCapacity
        rcases availableBytes est m ctx.blockSize k.gpuMemSafetyFraction with _ | available
        · simpa using hneutral
        · dsimp only
          simp only [Option.some.injEq, exists_eq_left']
          split
          · rename_i hnone
            simpa [hnone] using excluded_infinity cand
          · rename_i hsome
            split
            · rename_i hlarge
              simpa [hlarge] using excluded_infinity cand
            · rename_i hfits
              rw [excluded_of_cost]
              simp [hsome, hfits, clamp_ne_infinity]

end KvCapacityStrategy

end HierKvGateway
