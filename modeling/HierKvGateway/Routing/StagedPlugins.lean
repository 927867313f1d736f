import HierKvGateway.Routing.Exclusion
import HierKvGateway.Routing.Engine

/-!
# Routing.StagedPlugins — plugins without a weight

A plugin with the weight 0 is attached without taking part in decisions, so that a price table can
be staged (`cost_aware.rs`, `cost.rs`). It is not evaluated, its share of the weights is 0, and the
other shares do not depend on it.

`RoutingEngine.routeCandidates_active`: every decision, every error and every state is the same as
without such plugins.
-/

namespace HierKvGateway

variable {σ : Type}

/-- The plugin has a weight. -/
def RoutingStrategy.active (p : RoutingStrategy ExtRat σ) : Bool := p.weight ≠ .num 0

namespace HybridStrategy

/-- The hybrid strategy without the plugins that have no weight. -/
def active (h : HybridStrategy ExtRat σ) : HybridStrategy ExtRat σ :=
  { h with plugins := h.plugins.filter (·.active) }

variable {ctx : RoutingContext} {filtered : List BackendId} {store : MetadataStore ExtRat}

/-! ## The weights -/

/-- The weight of a plugin before the weights are normalised. -/
def rawWeight (store : MetadataStore ExtRat) (p : RoutingStrategy ExtRat σ) : ExtRat :=
  if p.isAvailable store then p.weight else Floating.ofNat 0

theorem ofNat_zero : (Floating.ofNat 0 : ExtRat) = .num 0 :=
  (ExtRat.ofNat_eq 0).trans (congrArg _ Nat.cast_zero)

theorem rawWeight_idle {p : RoutingStrategy ExtRat σ} (h : ¬p.active = true) :
    rawWeight store p = .num 0 := by
  have hweight : p.weight = .num 0 := by simpa [RoutingStrategy.active] using h
  unfold rawWeight
  rw [hweight, ofNat_zero, ite_self]

/-- Without weight, nothing is added to the sum. -/
theorem sum_active (store : MetadataStore ExtRat) (plugins : List (RoutingStrategy ExtRat σ))
    (acc : ExtRat) :
    (plugins.map (rawWeight store)).foldl (· + ·) acc =
      ((plugins.filter (·.active)).map (rawWeight store)).foldl (· + ·) acc := by
  induction plugins generalizing acc with
  | nil => rfl
  | cons p plugins ih =>
    rw [List.map_cons, List.foldl_cons, ih, List.filter_cons]
    split
    · rw [List.map_cons, List.foldl_cons]
    · rename_i hidle
      have hzero : acc + ExtRat.num 0 = acc := add_zero acc
      rw [rawWeight_idle hidle, hzero]

/-- The share of a plugin. -/
def share (total : ExtRat) (x : ExtRat) : ExtRat :=
  if Floating.lt (Floating.ofNat 0) total then x / total else Floating.ofNat 0

/-- The share of nothing is nothing. -/
theorem share_zero (total : ExtRat) : share total (.num 0) = .num 0 := by
  unfold share
  rw [ofNat_zero]
  split
  · rename_i hpos
    cases total with
    | nan => exact absurd hpos Bool.false_ne_true
    | negInf => exact absurd hpos Bool.false_ne_true
    | num q =>
      have hq : q ≠ 0 := (of_decide_eq_true ((ExtRat.lt_num 0 q).symm.trans hpos)).ne'
      rw [ExtRat.num_div _ _ hq, zero_div]
    | posInf => rfl
  · rfl

/-- The sum that the weights are divided by. -/
def DecisionWeights.total (w : DecisionWeights ExtRat) : ExtRat :=
  w.kv + w.load + w.topology + w.plugins.foldl (· + ·) (Floating.ofNat 0)

theorem plugins_normalizeWeights (w : DecisionWeights ExtRat) :
    (normalizeWeights w).plugins = w.plugins.map (share w.total) := by
  unfold normalizeWeights share DecisionWeights.total
  dsimp only
  split
  · rfl
  · rfl

/-- The shares of the built-in strategies depend on the sum of the plugins' weights only. -/
theorem normalizeWeights_congr {w w' : DecisionWeights ExtRat} (hkv : w'.kv = w.kv)
    (hload : w'.load = w.load) (htopology : w'.topology = w.topology) (htotal : w'.total = w.total) :
    (normalizeWeights w').kv = (normalizeWeights w).kv ∧
      (normalizeWeights w').load = (normalizeWeights w).load ∧
      (normalizeWeights w').topology = (normalizeWeights w).topology := by
  unfold DecisionWeights.total at htotal
  unfold normalizeWeights
  dsimp only
  rw [htotal, hkv, hload, htopology]
  split
  · exact ⟨rfl, rfl, rfl⟩
  · exact ⟨rfl, rfl, rfl⟩

/-- The weights before they are normalised. -/
def rawWeights (h : HybridStrategy ExtRat σ) (base : StrategyWeights ExtRat)
    (store : MetadataStore ExtRat) (filtered : List BackendId) : DecisionWeights ExtRat where
  kv := if h.kv.isAvailable store then base.kv else Floating.ofNat 0
  load := if loadStale store filtered then base.load * Floating.lit 3 1 else base.load
  topology := base.topology
  plugins := h.plugins.map (rawWeight store)

theorem total_active (h : HybridStrategy ExtRat σ) (base : StrategyWeights ExtRat)
    (store : MetadataStore ExtRat) (filtered : List BackendId) :
    (h.active.rawWeights base store filtered).total = (h.rawWeights base store filtered).total := by
  have hsum := sum_active store h.plugins (Floating.ofNat 0)
  unfold DecisionWeights.total rawWeights
  dsimp only
  rw [hsum]
  rfl

/-- The share of a plugin in a decision. -/
def pluginShare (h : HybridStrategy ExtRat σ) (base : StrategyWeights ExtRat)
    (store : MetadataStore ExtRat) (filtered : List BackendId) (p : RoutingStrategy ExtRat σ) :
    ExtRat :=
  share (h.rawWeights base store filtered).total (rawWeight store p)

theorem plugins_decisionWeights (h : HybridStrategy ExtRat σ) (base : StrategyWeights ExtRat)
    (store : MetadataStore ExtRat) (filtered : List BackendId) :
    (h.decisionWeights base store filtered).plugins =
      h.plugins.map (h.pluginShare base store filtered) :=
  (plugins_normalizeWeights (h.rawWeights base store filtered)).trans List.map_map

theorem pluginShare_idle (h : HybridStrategy ExtRat σ) (base : StrategyWeights ExtRat)
    {p : RoutingStrategy ExtRat σ} (hidle : ¬p.active = true) :
    h.pluginShare base store filtered p = .num 0 := by
  unfold pluginShare
  rw [rawWeight_idle hidle, share_zero]

/-- Without the plugins that have no weight, all shares are the same. -/
theorem decisionWeights_active (h : HybridStrategy ExtRat σ) (base : StrategyWeights ExtRat)
    (store : MetadataStore ExtRat) (filtered : List BackendId) :
    let w := h.decisionWeights base store filtered
    let w' := h.active.decisionWeights base store filtered
    w'.kv = w.kv ∧ w'.load = w.load ∧ w'.topology = w.topology ∧
      w'.plugins = (h.plugins.filter (·.active)).map (h.pluginShare base store filtered) := by
  intro w w'
  have htotal := total_active h base store filtered
  have hbuiltin : w'.kv = w.kv ∧ w'.load = w.load ∧ w'.topology = w.topology :=
    normalizeWeights_congr rfl rfl rfl htotal
  rcases hbuiltin with ⟨hkv, hload, htopology⟩
  refine ⟨hkv, hload, htopology, ?_⟩
  have hplugins := plugins_decisionWeights h.active base store filtered
  show (h.active.decisionWeights base store filtered).plugins = _
  rw [hplugins]
  unfold pluginShare
  rw [htotal]
  rfl

/-! ## The scores -/

/-- What the plugins add to the score of a candidate. -/
def addNorms (norms : List (BackendId → Option ExtRat)) (weights : List ExtRat) (cand : BackendId)
    (acc : ExtRat) : ExtRat :=
  (norms.zip weights).foldl
    (fun acc (norm, weight) => acc + weight * (norm cand).getD (Floating.ofNat 0)) acc

/-- A plugin without a share is skipped. -/
theorem evaluatePlugins_skip (ctx : RoutingContext) (filtered : List BackendId)
    (store : MetadataStore ExtRat) {p : RoutingStrategy ExtRat σ} {weight : ExtRat}
    (h : Floating.le weight (Floating.ofNat 0) = true)
    (rest : List (RoutingStrategy ExtRat σ × ExtRat)) (s : σ) :
    evaluatePlugins ctx filtered store ((p, weight) :: rest) s =
      ((evaluatePlugins ctx filtered store rest s).1.map ((fun _ => none) :: ·),
        (evaluatePlugins ctx filtered store rest s).2) :=
  if_pos h

/-- A plugin with a share is asked first. -/
theorem evaluatePlugins_ask (ctx : RoutingContext) (filtered : List BackendId)
    (store : MetadataStore ExtRat) {p : RoutingStrategy ExtRat σ} {weight : ExtRat}
    (h : ¬Floating.le weight (Floating.ofNat 0) = true)
    (rest : List (RoutingStrategy ExtRat σ × ExtRat)) (s : σ) :
    evaluatePlugins ctx filtered store ((p, weight) :: rest) s =
      match p.evaluate ctx filtered store s with
      | (.error e, s) => (.error e, s)
      | (.ok scores, s) => ((evaluatePlugins ctx filtered store rest s).1.map
          (normalizeCosts scores :: ·), (evaluatePlugins ctx filtered store rest s).2) := by
  rw [evaluatePlugins, if_neg h]
  rcases p.evaluate ctx filtered store s with ⟨e | scores, s⟩
  · rfl
  · rfl

/-- Both lists of plugins fail alike, or add the same to every score. -/
theorem evaluatePlugins_active (ctx : RoutingContext) (filtered : List BackendId)
    (store : MetadataStore ExtRat) {f : RoutingStrategy ExtRat σ → ExtRat}
    (hf : ∀ p : RoutingStrategy ExtRat σ, ¬p.active = true → f p = .num 0)
    (plugins : List (RoutingStrategy ExtRat σ)) (s : σ) :
    (∃ e s', evaluatePlugins ctx filtered store (plugins.map fun p => (p, f p)) s = (.error e, s') ∧
      evaluatePlugins ctx filtered store
        ((plugins.filter (·.active)).map fun p => (p, f p)) s = (.error e, s')) ∨
    ∃ norms norms' s',
      evaluatePlugins ctx filtered store (plugins.map fun p => (p, f p)) s = (.ok norms, s') ∧
      evaluatePlugins ctx filtered store
        ((plugins.filter (·.active)).map fun p => (p, f p)) s = (.ok norms', s') ∧
      ∀ cand acc, addNorms norms (plugins.map f) cand acc =
        addNorms norms' ((plugins.filter (·.active)).map f) cand acc := by
  induction plugins generalizing s with
  | nil => exact Or.inr ⟨[], [], s, rfl, rfl, fun _ _ => rfl⟩
  | cons p plugins ih =>
    rw [List.filter_cons]
    by_cases hactive : p.active = true
    · rw [if_pos hactive, List.map_cons, List.map_cons, List.map_cons, List.map_cons]
      by_cases hweight : Floating.le (f p) (Floating.ofNat 0) = true
      · -- both skip it
        rw [evaluatePlugins_skip ctx filtered store hweight,
          evaluatePlugins_skip ctx filtered store hweight]
        rcases ih s with ⟨e, s', hfull, hpart⟩ | ⟨norms, norms', s', hfull, hpart, hsame⟩
        · rw [hfull, hpart]
          exact Or.inl ⟨e, s', rfl, rfl⟩
        · rw [hfull, hpart]
          exact Or.inr ⟨_, _, s', rfl, rfl, fun cand acc => hsame cand _⟩
      · -- both ask it
        rw [evaluatePlugins_ask ctx filtered store hweight,
          evaluatePlugins_ask ctx filtered store hweight]
        rcases p.evaluate ctx filtered store s with ⟨e | scores, s₁⟩
        · exact Or.inl ⟨e, s₁, rfl, rfl⟩
        · dsimp only
          rcases ih s₁ with ⟨e, s', hfull, hpart⟩ | ⟨norms, norms', s', hfull, hpart, hsame⟩
          · rw [hfull, hpart]
            exact Or.inl ⟨e, s', rfl, rfl⟩
          · rw [hfull, hpart]
            exact Or.inr ⟨_, _, s', rfl, rfl, fun cand acc => hsame cand _⟩
    · -- only the full list has it, and skips it
      rw [if_neg hactive, List.map_cons, List.map_cons]
      have hzero : Floating.le (f p) (Floating.ofNat 0) = true := by
        rw [hf p hactive, ofNat_zero]
        decide +kernel
      rw [evaluatePlugins_skip ctx filtered store hzero]
      rcases ih s with ⟨e, s', hfull, hpart⟩ | ⟨norms, norms', s', hfull, hpart, hsame⟩
      · rw [hfull, hpart]
        exact Or.inl ⟨e, s', rfl, rfl⟩
      · rw [hfull, hpart]
        refine Or.inr ⟨_, norms', s', rfl, rfl, fun cand acc => ?_⟩
        have hadd : acc + f p * Floating.ofNat 0 = acc := by
          rw [hf p hactive, ofNat_zero, ExtRat.num_mul, zero_mul]
          exact add_zero acc
        have hstep : addNorms ((fun _ => none) :: norms) (f p :: plugins.map f) cand acc =
            addNorms norms (plugins.map f) cand (acc + f p * Floating.ofNat 0) := rfl
        rw [hstep, hadd]
        exact hsame cand acc

theorem zip_map (plugins : List (RoutingStrategy ExtRat σ)) (f : RoutingStrategy ExtRat σ → ExtRat) :
    plugins.zip (plugins.map f) = plugins.map fun p => (p, f p) := by
  induction plugins with
  | nil => rfl
  | cons p plugins ih => rw [List.map_cons, List.zip_cons_cons, ih, List.map_cons]

/-- The candidates are scored as without the plugins that have no weight. -/
theorem scoreFiltered_active (h : HybridStrategy ExtRat σ) (s : σ) :
    h.active.scoreFiltered ctx filtered store s = h.scoreFiltered ctx filtered store s := by
  unfold scoreFiltered
  have hbase : h.active.effectiveBaseWeights store s = h.effectiveBaseWeights store s := rfl
  rw [hbase]
  rcases h.effectiveBaseWeights store s with ⟨base, s₀⟩
  dsimp only
  rcases decisionWeights_active h base store filtered with ⟨hkv, hload, htopology, hplugins⟩
  have hfull := plugins_decisionWeights h base store filtered
  have hactive : h.active.kv = h.kv ∧ h.active.load = h.load ∧ h.active.topology = h.topology ∧
      h.active.plugins = h.plugins.filter (·.active) := ⟨rfl, rfl, rfl, rfl⟩
  rcases hactive with ⟨hk, hl, ht, hp⟩
  rw [hk, hl, ht, hp, hkv, hload, htopology, hplugins, hfull, zip_map, zip_map]
  rcases evaluateWeighted h.kv (h.decisionWeights base store filtered).kv ctx filtered store s₀ with
    ⟨e | kvScores, s₁⟩
  · rfl
  dsimp only
  rcases evaluateWeighted h.load (h.decisionWeights base store filtered).load ctx filtered store s₁
    with ⟨e | loadScores, s₂⟩
  · rfl
  dsimp only
  rcases evaluateWeighted h.topology (h.decisionWeights base store filtered).topology ctx filtered
    store s₂ with ⟨e | topoScores, s₃⟩
  · rfl
  dsimp only
  have hidle : ∀ p : RoutingStrategy ExtRat σ, ¬p.active = true →
      h.pluginShare base store filtered p = .num 0 := fun _ hp => h.pluginShare_idle base hp
  rcases evaluatePlugins_active ctx filtered store hidle h.plugins s₃ with
    ⟨e, s', heq, heq'⟩ | ⟨norms, norms', s', heq, heq', hsame⟩
  · rw [heq, heq']
  · rw [heq, heq']
    have hscore : ∀ cand,
        hybridScore (h.active.decisionWeights base store filtered) (normalizeCosts kvScores)
          (normalizeCosts loadScores) (normalizeCosts topoScores) norms' cand =
        hybridScore (h.decisionWeights base store filtered) (normalizeCosts kvScores)
          (normalizeCosts loadScores) (normalizeCosts topoScores) norms cand := by
      intro cand
      unfold hybridScore
      dsimp only
      rw [hkv, hload, htopology, hplugins, hfull]
      exact (hsame cand _).symm
    simp only [hscore]

/-- The hybrid strategy scores as without the plugins that have no weight. -/
theorem evaluate_active (h : HybridStrategy ExtRat σ) :
    h.active.evaluate = h.evaluate := by
  funext ctx candidates store s
  unfold evaluate
  have hmodel : h.active.model = h.model := rfl
  rw [hmodel]
  simp only [scoreFiltered_active]

end HybridStrategy

/-! ## Decisions -/

namespace RoutingEngine

/-- The engine without the plugins that have no weight. -/
def active (e : RoutingEngine ExtRat σ) : RoutingEngine ExtRat σ := { e with hybrid := e.hybrid.active }

/-- Every decision is the same without the plugins that have no weight, and so are the errors and
the states after. -/
theorem routeCandidates_active (e : RoutingEngine ExtRat σ) (now : Nat) (ctx : RoutingContext)
    (limit : Nat) (st : EngineState ExtRat σ) :
    e.active.routeCandidates now ctx limit st = e.routeCandidates now ctx limit st := by
  have hstrategy : e.hybrid.active.strategy = e.hybrid.strategy := by
    unfold HybridStrategy.strategy
    rw [HybridStrategy.evaluate_active]
    rfl
  have hprimary : e.active.primaryStrategy = e.primaryStrategy := by
    unfold primaryStrategy active
    dsimp only
    rw [hstrategy]
  have hscore : ∀ cands st, e.active.scoreCandidates ctx cands st = e.scoreCandidates ctx cands st := by
    intro cands st
    unfold scoreCandidates
    rw [hprimary]
    rfl
  have hselect : ∀ temperature limit pool s,
      e.active.selectLoop temperature limit pool s = e.selectLoop temperature limit pool s := by
    intro temperature limit
    induction limit with
    | zero => exact fun _ _ => rfl
    | succ limit ih =>
      intro pool s
      unfold selectLoop
      simp only [ih]
      rfl
  have hrest : ∀ head st, e.active.routeRest now ctx limit head st =
      e.routeRest now ctx limit head st := by
    intro head st
    unfold routeRest
    simp only [hscore]
    unfold selectRanked
    simp only [hselect]
    rfl
  unfold routeCandidates
  simp only [hrest]
  rfl

end RoutingEngine

end HierKvGateway
