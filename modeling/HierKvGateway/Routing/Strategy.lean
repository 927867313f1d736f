import HierKvGateway.Lib.LastWrite
import HierKvGateway.Metadata.Store
import HierKvGateway.Routing.PrefixHistory

/-!
# Routing.Strategy — strategies

A strategy scores candidates (`strategy.rs`). The model-aware strategy is a filter
(`model_aware.rs`), the degradation strategy replays the dispatch history (`degradation.rs`), and
the hybrid strategy filters with the one and adds up the scores of others (`hybrid.rs`).

The others (KV, load, topology, plugins) are parameters. A strategy may keep state of its own, such
as a round-robin counter; `σ` is the state of all of them.
-/

namespace HierKvGateway

/-- The scores a strategy returns, or its error. -/
abbrev Scores (F : Type) := Except HierKvGatewayError (List (ScoredBackend F))

/-- A routing strategy. -/
structure RoutingStrategy (F σ : Type) where
  name : String
  evaluate : RoutingContext → List BackendId → MetadataStore F → σ → Scores F × σ
  isAvailable : MetadataStore F → Bool
  weight : F

variable {F σ : Type} [Floating F]

/-- A strategy to which all candidates are alike. -/
def RoutingStrategy.even (name : String) : RoutingStrategy F σ where
  name := name
  evaluate _ candidates _ s :=
    (.ok (candidates.map fun cand => ⟨cand, Floating.ofNat 1, Floating.ofNat 0, 0⟩), s)
  isAvailable _ := true
  weight := Floating.ofNat 1

/-! ## The model-aware strategy -/

namespace ModelAwareStrategy

/-- A backend is excluded. -/
def exclude (cand : BackendId) : ScoredBackend F := ⟨cand, Floating.ofNat 0, Floating.maxValue, 0⟩

/-- The request fits the context length. -/
def ctxOk (ctx : RoutingContext) (inst : ModelInstance) : Bool :=
  let tokenCount := BitVec.ofNat 32 ctx.tokenIds.length
  tokenCount == 0 || decide (tokenCount ≤ inst.maxContextLen)

/-- Tools are supported if they are asked for. -/
def toolOk (ctx : RoutingContext) (inst : ModelInstance) : Bool :=
  !ctx.requiresToolCalling || inst.supportsToolCalling

/-- The score of a candidate. -/
def scoreOf (ctx : RoutingContext) (store : MetadataStore F) (cand : BackendId) : ScoredBackend F :=
  let modelName := ctx.modelName.getD ""
  let matchScore : F := store.modelMatchScore cand modelName
  if Floating.le matchScore (Floating.ofNat 0) then exclude cand
  else
    -- the context length and the tools are looked for among the instances one by one
    let named := (store.modelGetInstances cand).filter (ModelRegistry.nameMatches · modelName)
    if !named.any (ctxOk ctx) || !named.any (toolOk ctx) then exclude cand
    else
      let cost := Floating.ofNat 1 - matchScore
      ⟨cand, Floating.ofNat 1 / (Floating.ofNat 1 + cost), cost, 0⟩

/-- `ModelAwareStrategy`. -/
def strategy : RoutingStrategy F σ where
  name := "model_aware"
  evaluate ctx candidates store s := (.ok (candidates.map (scoreOf ctx store)), s)
  isAvailable _ := true
  weight := Floating.ofNat 1

/-- The backend passes the filter. -/
def Passes (ctx : RoutingContext) (store : MetadataStore F) (backend : BackendId) : Prop :=
  Floating.lt (Floating.ofNat 0) (scoreOf ctx store backend).score = true

instance (ctx : RoutingContext) (store : MetadataStore F) (backend : BackendId) :
    Decidable (Passes ctx store backend) := inferInstanceAs (Decidable (_ = true))

/-- The filter reads the models only. -/
theorem passes_congr {store store' : MetadataStore F} (h : store'.models = store.models)
    (ctx : RoutingContext) (backend : BackendId) :
    Passes ctx store' backend ↔ Passes ctx store backend := by
  unfold Passes scoreOf MetadataStore.modelMatchScore MetadataStore.modelGetInstances
  rw [h]

theorem backendId_scoreOf (ctx : RoutingContext) (store : MetadataStore F) (cand : BackendId) :
    (scoreOf ctx store cand).backendId = cand := by
  unfold scoreOf
  dsimp only
  split
  · rfl
  · split
    · rfl
    · rfl

end ModelAwareStrategy

/-! ## The degradation strategy -/

namespace DegradationStrategy

/-- Load metrics older than this are stale. -/
def loadStaleThresholdSecs : Nat := 30

/-- With fewer entries than this, scores are lowered. -/
def minConfidentHistoryEntries : Nat := 10

/-- The score of a candidate: high if it served the longest known prefix of the request. -/
def scoreOf (confidence totalLen : F) (bestMatch : Option (Nat × DispatchRecord))
    (cand : BackendId) : ScoredBackend F :=
  match bestMatch with
  | some (matchLen, record) =>
    if record.backend = cand then
      let prefixScore := Floating.ofNat matchLen / totalLen
      ⟨cand, prefixScore * confidence, -(prefixScore * confidence), 0⟩
    else ⟨cand, Floating.lit 1 2, Floating.ofNat 1, 0⟩
  | none => ⟨cand, Floating.lit 1 2, Floating.ofNat 1, 0⟩

/-- `DegradationStrategy::evaluate`; it does not fail. -/
def evaluate (xxh3 : Xxh3) (history : PrefixReuseHistory) (ctx : RoutingContext)
    (candidates : List BackendId) : List (ScoredBackend F) :=
  let totalLen := Floating.ofNat (max ctx.blockHashes.length 1)
  let bestMatch := history.findLongestMatch xxh3 ctx.blockHashes
  let confidence :=
    if history.len ≥ minConfidentHistoryEntries then Floating.ofNat 1
    else Floating.ofNat history.len / Floating.ofNat minConfidentHistoryEntries
  candidates.map (scoreOf confidence totalLen bestMatch)

/-- `DegradationStrategy::name`. -/
def name : String := "degradation"

/-- The load metrics of every backend are stale, or missing. -/
def allLoadStale (store : MetadataStore F) : Bool :=
  store.backendsAll.all fun b =>
    match store.loadFreshness b.id with
    | some d => d.asSecs > loadStaleThresholdSecs
    | none => true

/-- Normal routing has nothing to go by: no KV data, no backends or no fresh load metrics. -/
def isAvailable (store : MetadataStore F) : Bool :=
  let kvDegraded := Floating.partialCmp store.kvConfidence (Floating.ofNat 0) == some .eq
  let noBackends := store.backendsLen == 0
  kvDegraded || noBackends || allLoadStale store

theorem backendId_scoreOf (confidence totalLen : F) (bestMatch : Option (Nat × DispatchRecord))
    (cand : BackendId) : (scoreOf confidence totalLen bestMatch cand).backendId = cand := by
  unfold scoreOf
  split
  · split
    · rfl
    · rfl
  · rfl

theorem evaluate_ne_nil (xxh3 : Xxh3) (history : PrefixReuseHistory) (ctx : RoutingContext)
    {candidates : List BackendId} (h : candidates ≠ []) :
    (evaluate xxh3 history ctx candidates : List (ScoredBackend F)) ≠ [] := by
  unfold evaluate
  intro hnil
  exact h (List.map_eq_nil_iff.1 hnil)

end DegradationStrategy

end HierKvGateway
