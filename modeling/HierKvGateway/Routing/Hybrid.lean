import HierKvGateway.Routing.Strategy

/-!
# Routing.Hybrid — the hybrid strategy

The default strategy (`hybrid.rs`): the model filter removes candidates, and the others are ranked
by the weighted sum of normalised costs.

`HybridStrategy.mem_evaluate`: what it returns are the candidates that the filter lets through.
-/

namespace HierKvGateway

/-- The weights of the three built-in strategies. -/
structure StrategyWeights (F : Type) where
  kv : F
  load : F
  topology : F

/-- The hybrid strategy. -/
structure HybridStrategy (F σ : Type) where
  kv : RoutingStrategy F σ
  model : RoutingStrategy F σ
  load : RoutingStrategy F σ
  topology : RoutingStrategy F σ
  weights : StrategyWeights F
  temperature : F
  /-- The weight controller, if there is one (`effective_weights`). -/
  adaptive : Option (MetadataStore F → σ → StrategyWeights F × σ)
  plugins : List (RoutingStrategy F σ)

namespace HybridStrategy

variable {F σ : Type} [Floating F]

/-- Load metrics older than this count less. -/
def staleLoadThresholdSecs : Nat := 10

/-- `HybridStrategy::name`. -/
def name : String := "hybrid"

/-- The lowest and the highest finite cost. -/
def costRange (scores : List (ScoredBackend F)) : F × F :=
  (scores.filter fun s => Floating.isFinite s.rawCost).foldl
    (fun (lo, hi) s =>
      (if Floating.lt s.rawCost lo then s.rawCost else lo,
        if Floating.lt hi s.rawCost then s.rawCost else hi))
    (Floating.infinity, -Floating.infinity)

/-- Costs turned into scores between 0 and 1: the lowest cost is 1. -/
def normalizeCosts (scores : List (ScoredBackend F)) : BackendId → Option F :=
  let (minCost, maxCost) := costRange scores
  let span := maxCost - minCost
  LastWrite.apply (fun _ => none) <| scores.map fun s =>
    if Floating.isFinite s.rawCost then
      let normalized :=
        if Floating.lt (Floating.ofNat 0) span then (s.rawCost - minCost) / span
        else Floating.ofNat 0
      (s.backendId, Floating.ofNat 1 - normalized)
    else (s.backendId, Floating.ofNat 0)

/-- The weights of a decision, those of the plugins last. They add up to 1. -/
structure DecisionWeights (F : Type) where
  kv : F
  load : F
  topology : F
  plugins : List F

/-- `total / 3` each if no weight is positive. -/
def normalizeWeights (w : DecisionWeights F) : DecisionWeights F :=
  let total := w.kv + w.load + w.topology + w.plugins.foldl (· + ·) (Floating.ofNat 0)
  if Floating.lt (Floating.ofNat 0) total then
    ⟨w.kv / total, w.load / total, w.topology / total, w.plugins.map (· / total)⟩
  else
    let third := Floating.ofNat 1 / Floating.ofNat 3
    ⟨third, third, third, w.plugins.map fun _ => Floating.ofNat 0⟩

/-- The load metrics of a candidate are stale. -/
def loadStale (store : MetadataStore F) (filtered : List BackendId) : Bool :=
  filtered.any fun cand =>
    match store.loadFreshness cand with
    | some freshness => freshness.asSecs > staleLoadThresholdSecs
    | none => false

/-- The base weights: the controller's if there is one. -/
def effectiveBaseWeights (h : HybridStrategy F σ) (store : MetadataStore F) (s : σ) :
    StrategyWeights F × σ :=
  match h.adaptive with
  | some effectiveWeights => effectiveWeights store s
  | none => (h.weights, s)

/-- The weights of a decision over the filtered candidates. -/
def decisionWeights (h : HybridStrategy F σ) (base : StrategyWeights F) (store : MetadataStore F)
    (filtered : List BackendId) : DecisionWeights F :=
  normalizeWeights
    { kv := if h.kv.isAvailable store then base.kv else Floating.ofNat 0
      load := if loadStale store filtered then base.load * Floating.lit 3 1 else base.load
      topology := base.topology
      plugins := h.plugins.map fun p => if p.isAvailable store then p.weight else Floating.ofNat 0 }

/-- Evaluate a strategy if its weight is positive. -/
def evaluateWeighted (strategy : RoutingStrategy F σ) (weight : F) (ctx : RoutingContext)
    (filtered : List BackendId) (store : MetadataStore F) (s : σ) : Scores F × σ :=
  if Floating.lt (Floating.ofNat 0) weight then strategy.evaluate ctx filtered store s
  else (.ok [], s)

/-- The normalised scores of the plugins, in order; none where the weight is not positive. -/
def evaluatePlugins (ctx : RoutingContext) (filtered : List BackendId) (store : MetadataStore F) :
    List (RoutingStrategy F σ × F) → σ →
      Except HierKvGatewayError (List (BackendId → Option F)) × σ
  | [], s => (.ok [], s)
  | (p, weight) :: plugins, s =>
    if Floating.le weight (Floating.ofNat 0) then
      let (rest, s) := evaluatePlugins ctx filtered store plugins s
      (rest.map ((fun _ => none) :: ·), s)
    else
      match p.evaluate ctx filtered store s with
      | (.error e, s) => (.error e, s)
      | (.ok scores, s) =>
        let (rest, s) := evaluatePlugins ctx filtered store plugins s
        (rest.map (normalizeCosts scores :: ·), s)

/-- The weighted sum for a candidate. -/
def hybridScore (w : DecisionWeights F) (kvNorm loadNorm topoNorm : BackendId → Option F)
    (pluginNorms : List (BackendId → Option F)) (cand : BackendId) : F :=
  let value (norm : BackendId → Option F) : F := (norm cand).getD (Floating.ofNat 0)
  let base := w.kv * value kvNorm + w.load * value loadNorm + w.topology * value topoNorm
  (pluginNorms.zip w.plugins).foldl (fun acc (norm, weight) => acc + weight * value norm) base

/-- Score the candidates that passed the filter, the best first. -/
def scoreFiltered (h : HybridStrategy F σ) (ctx : RoutingContext) (filtered : List BackendId)
    (store : MetadataStore F) (s : σ) : Scores F × σ :=
  let (base, s) := h.effectiveBaseWeights store s
  let w := h.decisionWeights base store filtered
  match evaluateWeighted h.kv w.kv ctx filtered store s with
  | (.error e, s) => (.error e, s)
  | (.ok kvScores, s) =>
    match evaluateWeighted h.load w.load ctx filtered store s with
    | (.error e, s) => (.error e, s)
    | (.ok loadScores, s) =>
      match evaluateWeighted h.topology w.topology ctx filtered store s with
      | (.error e, s) => (.error e, s)
      | (.ok topoScores, s) =>
        match evaluatePlugins ctx filtered store (h.plugins.zip w.plugins) s with
        | (.error e, s) => (.error e, s)
        | (.ok pluginNorms, s) =>
          let score := hybridScore w (normalizeCosts kvScores) (normalizeCosts loadScores)
            (normalizeCosts topoScores) pluginNorms
          let hybrid := filtered.map fun cand =>
            (⟨cand, score cand, -score cand, 0⟩ : ScoredBackend F)
          (.ok (hybrid.mergeSort fun a b => Floating.cmp b.score a.score != .gt), s)

/-- `HybridStrategy::evaluate`. -/
def evaluate (h : HybridStrategy F σ) (ctx : RoutingContext) (candidates : List BackendId)
    (store : MetadataStore F) (s : σ) : Scores F × σ :=
  if candidates = [] then (.ok [], s)
  else
    match h.model.evaluate ctx candidates store s with
    | (.error e, s) => (.error e, s)
    | (.ok modelScores, s) =>
      let filtered := (modelScores.filter fun m => Floating.lt (Floating.ofNat 0) m.score).map
        (·.backendId)
      if filtered = [] then
        (.error (.routingFailed "No candidate backend passed the model-aware filter"), s)
      else h.scoreFiltered ctx filtered store s

/-- The hybrid strategy as a strategy. -/
def strategy (h : HybridStrategy F σ) : RoutingStrategy F σ where
  name := name
  evaluate := h.evaluate
  isAvailable := h.model.isAvailable
  weight := Floating.ofNat 1

/-- Candidates are only ranked if every active strategy has scores for them: by the weighted sum. -/
theorem scoreFiltered_ok {h : HybridStrategy F σ} {ctx : RoutingContext}
    {filtered : List BackendId} {store : MetadataStore F} {s s₀ s' : σ} {base : StrategyWeights F}
    {ranked : List (ScoredBackend F)} (hbase : h.effectiveBaseWeights store s = (base, s₀))
    (hres : h.scoreFiltered ctx filtered store s = (.ok ranked, s')) :
    let w := h.decisionWeights base store filtered
    ∃ kvScores s₁ loadScores s₂ topoScores s₃ pluginNorms,
      evaluateWeighted h.kv w.kv ctx filtered store s₀ = (.ok kvScores, s₁) ∧
      evaluateWeighted h.load w.load ctx filtered store s₁ = (.ok loadScores, s₂) ∧
      evaluateWeighted h.topology w.topology ctx filtered store s₂ = (.ok topoScores, s₃) ∧
      evaluatePlugins ctx filtered store (h.plugins.zip w.plugins) s₃ = (.ok pluginNorms, s') ∧
      let score := hybridScore w (normalizeCosts kvScores) (normalizeCosts loadScores)
        (normalizeCosts topoScores) pluginNorms
      ranked = (filtered.map fun cand =>
        (⟨cand, score cand, -score cand, 0⟩ : ScoredBackend F)).mergeSort
          fun a b => Floating.cmp b.score a.score != .gt := by
  intro w
  unfold scoreFiltered at hres
  rw [hbase] at hres
  dsimp only at hres
  -- an error of any of them would be the result
  rcases hkv : evaluateWeighted h.kv w.kv ctx filtered store s₀ with ⟨_ | kvScores, s₁⟩
  · rw [hkv] at hres
    exact absurd (Prod.mk.inj hres).1 nofun
  rw [hkv] at hres
  dsimp only at hres
  rcases hload : evaluateWeighted h.load w.load ctx filtered store s₁ with ⟨_ | loadScores, s₂⟩
  · rw [hload] at hres
    exact absurd (Prod.mk.inj hres).1 nofun
  rw [hload] at hres
  dsimp only at hres
  rcases htopo : evaluateWeighted h.topology w.topology ctx filtered store s₂ with
    ⟨_ | topoScores, s₃⟩
  · rw [htopo] at hres
    exact absurd (Prod.mk.inj hres).1 nofun
  rw [htopo] at hres
  dsimp only at hres
  rcases hplug : evaluatePlugins ctx filtered store (h.plugins.zip w.plugins) s₃ with
    ⟨_ | pluginNorms, s₄⟩
  · rw [hplug] at hres
    exact absurd (Prod.mk.inj hres).1 nofun
  rw [hplug] at hres
  rcases Prod.mk.inj hres with ⟨hranked, rfl⟩
  exact ⟨kvScores, s₁, loadScores, s₂, topoScores, s₃, pluginNorms, rfl, hload, htopo, hplug,
    (Except.ok.inj hranked).symm⟩

/-- Every filtered candidate is scored, and nothing else. -/
theorem backendIds_scoreFiltered {h : HybridStrategy F σ} {ctx : RoutingContext}
    {filtered : List BackendId} {store : MetadataStore F} {s s' : σ}
    {scores : List (ScoredBackend F)}
    (hres : h.scoreFiltered ctx filtered store s = (.ok scores, s')) :
    (scores.map (·.backendId)).Perm filtered := by
  rcases scoreFiltered_ok rfl hres with ⟨_, _, _, _, _, _, _, -, -, -, -, rfl⟩
  refine ((List.mergeSort_perm _ _).map _).trans ?_
  rw [List.map_map]
  exact List.Perm.of_eq (List.map_id filtered)

/-- What the hybrid strategy returns are candidates that the model filter lets through. -/
theorem mem_evaluate {h : HybridStrategy F σ} (hmodel : h.model = ModelAwareStrategy.strategy)
    {ctx : RoutingContext} {candidates : List BackendId} {store : MetadataStore F} {s s' : σ}
    {scores : List (ScoredBackend F)} (hres : h.evaluate ctx candidates store s = (.ok scores, s'))
    {scored : ScoredBackend F} (hmem : scored ∈ scores) :
    scored.backendId ∈ candidates ∧ ModelAwareStrategy.Passes ctx store scored.backendId := by
  unfold evaluate at hres
  rw [hmodel] at hres
  split at hres
  · rcases Except.ok.inj (Prod.mk.inj hres).1 with rfl
    exact absurd hmem List.not_mem_nil
  · dsimp only [ModelAwareStrategy.strategy] at hres
    split at hres
    · exact absurd (Prod.mk.inj hres).1 nofun
    · have hperm := backendIds_scoreFiltered hres
      have hid := hperm.subset (List.mem_map_of_mem hmem)
      rcases List.mem_map.1 hid with ⟨m, hm, heq⟩
      rcases List.mem_filter.1 hm with ⟨hm, hpos⟩
      rcases List.mem_map.1 hm with ⟨cand, hcand, rfl⟩
      have hcandId : cand = scored.backendId := by
        rw [← heq]
        exact (ModelAwareStrategy.backendId_scoreOf ctx store cand).symm
      rw [← hcandId]
      exact ⟨hcand, hpos⟩

end HybridStrategy

end HierKvGateway
