import HierKvGateway.Routing.Hybrid

/-!
# Routing.Engine — routing decisions

The routing engine (`engine.rs`): a session goes back to its backend if that is still registered;
otherwise the primary strategy scores the candidates, with the degradation strategy behind it, and
the best are selected. The decision is recorded in the dispatch history and for the session.
-/

namespace HierKvGateway

/-- A routing decision. -/
structure RouteDecision (F : Type) where
  backend : BackendId
  /-- The name of the strategy that made it. -/
  strategy : String
  kvOverlap : BitVec 32
  scores : List (String × F)
deriving DecidableEq, Repr

/-- The routing engine: what does not change between requests. -/
structure RoutingEngine (F σ : Type) where
  hybrid : HybridStrategy F σ
  /-- A strategy that scores instead of the hybrid one. -/
  primary : Option (RoutingStrategy F σ)
  sessionAffinityTtl : Duration
  maxRetries : Nat
  selfRegion : RegionId
  temperature : F
  traceSubScores : Bool
  xxh3 : Xxh3
  /-- The random draw of an index with given weights (`WeightedIndex`); the generator is part of
  the state. -/
  sampleIndex : List F → σ → Option Nat × σ

/-- What the engine reads and writes: the metadata, the dispatch history, and the state of the
strategies. -/
structure EngineState (F σ : Type) where
  store : MetadataStore F
  prefixHistory : PrefixReuseHistory
  inner : σ

namespace RoutingEngine

variable {F σ : Type} [Floating F]

/-- `RoutingEngine::new`. -/
def new (hybrid : HybridStrategy F σ) (sessionAffinityTtl : Duration) (maxRetries : Nat)
    (selfRegion : RegionId) (xxh3 : Xxh3) (sampleIndex : List F → σ → Option Nat × σ) :
    RoutingEngine F σ where
  hybrid := hybrid
  primary := none
  sessionAffinityTtl := sessionAffinityTtl
  maxRetries := maxRetries
  selfRegion := selfRegion
  temperature := hybrid.temperature
  traceSubScores := false
  xxh3 := xxh3
  sampleIndex := sampleIndex

/-- `RoutingEngine::with_primary_strategy`. -/
def withPrimaryStrategy (e : RoutingEngine F σ) (strategy : RoutingStrategy F σ) :
    RoutingEngine F σ :=
  { e with primary := some strategy }

/-! ## Selection -/

/-- The last of the highest scores (`max_by`). -/
def greedy : List (ScoredBackend F) → Option (ScoredBackend F)
  | [] => none
  | s :: scores =>
    some (scores.foldl (fun best x => if Floating.cmp best.score x.score = .gt then best else x) s)

/-- `select_with_temperature`. -/
def selectWithTemperature (e : RoutingEngine F σ) (scores : List (ScoredBackend F))
    (temperature : F) (s : σ) : Option (ScoredBackend F) × σ :=
  if scores = [] then (none, s)
  else if Floating.le temperature (Floating.ofNat 0) then (greedy scores, s)
  else
    let maxScore := (scores.map (·.score)).foldl Floating.max (-Floating.infinity)
    let exps := scores.map fun x => Floating.exp ((x.score - maxScore) / temperature)
    let sum := exps.foldl (· + ·) (Floating.ofNat 0)
    -- a numerical anomaly
    if !Floating.isFinite sum || Floating.le sum (Floating.ofNat 0) then (greedy scores, s)
    else
      let (idx, s) := e.sampleIndex (exps.map (· / sum)) s
      (idx.bind (scores[·]?), s)

/-- The loop of `select_ranked`: pick one, take it out of the pool, go on. -/
def selectLoop (e : RoutingEngine F σ) (temperature : F) :
    Nat → List (ScoredBackend F) → σ → List (ScoredBackend F) × σ
  | 0, _, s => ([], s)
  | limit + 1, pool, s =>
    if pool = [] then ([], s)
    else
      match e.selectWithTemperature pool temperature s with
      | (none, s) => ([], s)
      | (some pick, s) =>
        let pos := pool.findIdx fun x => x.backendId = pick.backendId
        match pool[pos]? with
        | none => ([], s)
        | some found =>
          let (rest, s) := selectLoop e temperature limit (pool.eraseIdx pos) s
          (found :: rest, s)

/-- `select_ranked`. -/
def selectRanked (e : RoutingEngine F σ) (scores : List (ScoredBackend F)) (temperature : F)
    (limit : Nat) (s : σ) : List (ScoredBackend F) × σ :=
  e.selectLoop temperature limit scores s

/-! ## Candidates -/

/-- The order of backends (`Ord`). -/
def backendLe (a b : BackendId) : Bool :=
  decide (a.region.str < b.region.str) ||
    (a.region.str == b.region.str && decide (a.inst.str ≤ b.inst.str))

/-- Sorted candidates without the head. -/
def collect (headBackend : Option BackendId) (ids : List BackendId) : List BackendId :=
  (ids.filter fun id => some id ≠ headBackend).mergeSort backendLe

/-- The candidates: the backends that match the model name, or all if none does. -/
def candidates (ctx : RoutingContext) (headBackend : Option BackendId) (store : MetadataStore F) :
    List BackendId :=
  let all := collect headBackend (store.backendsAll.map (·.id))
  match ctx.modelName with
  | some name =>
    if name.isEmpty then all
    else
      let byModel := store.modelFindBackends name
      if byModel = [] then all else collect headBackend byModel
  | none => all

/-! ## Routing -/

/-- The name of a decision made by affinity. -/
def sessionAffinity : String := "session_affinity"

/-- The affinity record of the request's session, if its backend is still registered. -/
def affinity (ctx : RoutingContext) (store : MetadataStore F) : Option SessionAffinity :=
  ctx.sessionId.bind fun session =>
    (store.sessionGet session).filter fun a => (store.backendGet a.backend).isSome

/-- Write the session record of a decision. -/
def setSession (now : Nat) (ctx : RoutingContext) (backend : BackendId) (st : EngineState F σ) :
    EngineState F σ :=
  match ctx.sessionId with
  | some session =>
    let overlap := st.store.kvFindLocalOverlap ctx.blockHashes backend
    { st with store := st.store.sessionSet now session backend overlap }
  | none => st

/-- Record a dispatch. -/
def recordDispatch (e : RoutingEngine F σ) (now : Nat) (ctx : RoutingContext) (backend : BackendId)
    (st : EngineState F σ) : EngineState F σ :=
  { st with prefixHistory := st.prefixHistory.recordDispatch e.xxh3 now ctx.blockHashes backend }

/-- Step 1: the session's backend is the head. -/
def affinityHead (e : RoutingEngine F σ) (now : Nat) (ctx : RoutingContext) (st : EngineState F σ) :
    Option (RouteDecision F) × EngineState F σ :=
  match affinity ctx st.store with
  | some a =>
    let overlap := st.store.kvFindLocalOverlap ctx.blockHashes a.backend
    let st := e.recordDispatch now ctx a.backend (setSession now ctx a.backend st)
    (some ⟨a.backend, sessionAffinity, overlap, []⟩, st)
  | none => (none, st)

omit [Floating F] in
/-- The head is the backend of the session's record. -/
theorem affinityHead_eq_some {e : RoutingEngine F σ} {now : Nat} {ctx : RoutingContext}
    {st st' : EngineState F σ} {h : RouteDecision F}
    (hhead : e.affinityHead now ctx st = (some h, st')) :
    ∃ a, affinity ctx st.store = some a ∧ h.backend = a.backend ∧ h.strategy = sessionAffinity ∧
      st' = e.recordDispatch now ctx a.backend (setSession now ctx a.backend st) := by
  unfold affinityHead at hhead
  split at hhead
  · rename_i a ha
    rcases Prod.mk.inj hhead with ⟨hh, hst⟩
    rcases Option.some.inj hh with rfl
    exact ⟨a, ha, rfl, rfl, hst.symm⟩
  · exact absurd (Prod.mk.inj hhead).1.symm (Option.some_ne_none h)

omit [Floating F] in
theorem affinityHead_eq_none {e : RoutingEngine F σ} {now : Nat} {ctx : RoutingContext}
    {st st' : EngineState F σ} :
    e.affinityHead now ctx st = (none, st') ↔ affinity ctx st.store = none ∧ st' = st := by
  unfold affinityHead
  split
  · rename_i a ha
    constructor
    · intro hhead
      exact absurd (Prod.mk.inj hhead).1 (Option.some_ne_none _)
    · rintro ⟨hnone, -⟩
      exact absurd (ha.symm.trans hnone) (Option.some_ne_none a)
  · rename_i hnone
    constructor
    · intro hhead
      exact ⟨hnone, (Prod.mk.inj hhead).2.symm⟩
    · rintro ⟨-, rfl⟩
      rfl

omit [Floating F] in
@[simp] theorem models_setSession (now : Nat) (ctx : RoutingContext) (backend : BackendId)
    (st : EngineState F σ) : (setSession now ctx backend st).store.models = st.store.models := by
  unfold setSession
  split
  · rfl
  · rfl

/-- The strategy in charge. -/
def primaryStrategy (e : RoutingEngine F σ) : RoutingStrategy F σ :=
  e.primary.getD e.hybrid.strategy

/-- Step 3: the scores and the name of the strategy they are from. The degradation strategy takes
over if the primary one fails or has no scores. -/
def scoreCandidates (e : RoutingEngine F σ) (ctx : RoutingContext) (cands : List BackendId)
    (st : EngineState F σ) :
    Except HierKvGatewayError (List (ScoredBackend F) × String) × EngineState F σ :=
  let (result, inner) := e.primaryStrategy.evaluate ctx cands st.store st.inner
  let st := { st with inner := inner }
  let degradationAvailable := DegradationStrategy.isAvailable st.store
  let deg := DegradationStrategy.evaluate e.xxh3 st.prefixHistory ctx cands
  match result with
  | .ok scores =>
    if scores ≠ [] then (.ok (scores, e.primaryStrategy.name), st)
    else if degradationAvailable then
      if deg = [] then
        (.error (.routingFailed
          "Both the primary strategy and the degradation strategy produced no candidate scores"), st)
      else (.ok (deg, DegradationStrategy.name), st)
    else (.error (.routingFailed "The primary strategy produced no candidate scores"), st)
  | .error err =>
    if degradationAvailable then
      if deg = [] then (.error err, st) else (.ok (deg, DegradationStrategy.name), st)
    else (.error err, st)

/-- The primary strategy fails, or has no scores. -/
def PrimaryFails (e : RoutingEngine F σ) (ctx : RoutingContext) (cands : List BackendId)
    (st : EngineState F σ) : Prop :=
  ∀ scores s, e.primaryStrategy.evaluate ctx cands st.store st.inner = (.ok scores, s) → scores = []

/-- Where the scores are from: the primary strategy, the degradation strategy, or nowhere. -/
theorem scoreCandidates_cases (e : RoutingEngine F σ) (ctx : RoutingContext)
    {cands : List BackendId} (hcands : cands ≠ []) (st : EngineState F σ) :
    (∃ scores s, scores ≠ [] ∧
      e.primaryStrategy.evaluate ctx cands st.store st.inner = (.ok scores, s) ∧
      e.scoreCandidates ctx cands st =
        (.ok (scores, e.primaryStrategy.name), { st with inner := s })) ∨
    (e.PrimaryFails ctx cands st ∧ DegradationStrategy.isAvailable st.store = true ∧
      ∃ scores s, scores = DegradationStrategy.evaluate e.xxh3 st.prefixHistory ctx cands ∧
        scores ≠ [] ∧
        e.scoreCandidates ctx cands st =
          (.ok (scores, DegradationStrategy.name), { st with inner := s })) ∨
    (e.PrimaryFails ctx cands st ∧ DegradationStrategy.isAvailable st.store = false ∧
      ∃ err s, e.scoreCandidates ctx cands st = (.error err, { st with inner := s })) := by
  have hdeg := DegradationStrategy.evaluate_ne_nil (F := F) e.xxh3 st.prefixHistory ctx hcands
  rcases heval : e.primaryStrategy.evaluate ctx cands st.store st.inner with ⟨err | scores, s⟩
  · right
    -- an error of the primary strategy
    have hfails : e.PrimaryFails ctx cands st := by
      intro scores s' heq
      rw [heval] at heq
      exact absurd (Prod.mk.inj heq).1 nofun
    unfold scoreCandidates
    rw [heval]
    rcases havail : DegradationStrategy.isAvailable st.store with _ | _
    · exact Or.inr ⟨hfails, rfl, err, s, by simp [havail]⟩
    · exact Or.inl ⟨hfails, rfl, _, s, rfl, hdeg, by simp [havail, hdeg]⟩
  · by_cases hnil : scores = []
    · right
      -- no scores count as a failure as well
      have hfails : e.PrimaryFails ctx cands st := by
        intro scores' s' heq
        rw [heval] at heq
        rw [← Except.ok.inj (Prod.mk.inj heq).1]
        exact hnil
      unfold scoreCandidates
      rw [heval]
      rcases havail : DegradationStrategy.isAvailable st.store with _ | _
      · exact Or.inr ⟨hfails, rfl, _, s, by simp [havail, hnil]; rfl⟩
      · exact Or.inl ⟨hfails, rfl, _, s, rfl, hdeg, by simp [havail, hdeg, hnil]⟩
    · refine Or.inl ⟨scores, s, hnil, rfl, ?_⟩
      unfold scoreCandidates
      rw [heval]
      exact if_pos hnil

theorem scored_ne_nil (e : RoutingEngine F σ) (ctx : RoutingContext) {cands : List BackendId}
    (hcands : cands ≠ []) {st st' : EngineState F σ} {scored : List (ScoredBackend F)}
    {used : String} (h : e.scoreCandidates ctx cands st = (.ok (scored, used), st')) :
    scored ≠ [] := by
  rcases e.scoreCandidates_cases ctx hcands st with
    ⟨scores, s, hne, _, hscore⟩ | ⟨_, _, scores, s, _, hne, hscore⟩ | ⟨_, _, err, s, hscore⟩
  · rw [h] at hscore
    have heq := Except.ok.inj (Prod.mk.inj hscore).1
    rw [(Prod.mk.inj heq).1]
    exact hne
  · rw [h] at hscore
    have heq := Except.ok.inj (Prod.mk.inj hscore).1
    rw [(Prod.mk.inj heq).1]
    exact hne
  · rw [h] at hscore
    exact absurd (Prod.mk.inj hscore).1 nofun

/-- The score of a backend under the name of a strategy, if it has one. -/
def subScore (name : String) (backend : BackendId) (scores : List (ScoredBackend F)) :
    List (String × F) :=
  match scores.find? fun x => x.backendId = backend with
  | some x => [(name, x.score)]
  | none => []

/-- Step 7: the scores of the first pick under each strategy, if they are traced. -/
def traceScores (e : RoutingEngine F σ) (ctx : RoutingContext) (cands : List BackendId)
    (used : String) (first : BackendId) (st : EngineState F σ) :
    Except HierKvGatewayError (List (String × F)) × EngineState F σ :=
  if e.traceSubScores && used == HybridStrategy.name then
    match e.hybrid.kv.evaluate ctx cands st.store st.inner with
    | (.error err, inner) => (.error err, { st with inner := inner })
    | (.ok kv, inner) =>
      match e.hybrid.load.evaluate ctx cands st.store inner with
      | (.error err, inner) => (.error err, { st with inner := inner })
      | (.ok load, inner) =>
        match e.hybrid.topology.evaluate ctx cands st.store inner with
        | (.error err, inner) => (.error err, { st with inner := inner })
        | (.ok topo, inner) =>
          (.ok (subScore e.hybrid.kv.name first kv ++ subScore e.hybrid.load.name first load ++
            subScore e.hybrid.topology.name first topo), { st with inner := inner })
  else (.ok [], st)

/-- Step 8: the decisions in order; the traced scores go to the first. -/
def decisions (ctx : RoutingContext) (used : String) (store : MetadataStore F) :
    List (String × F) → List (ScoredBackend F) → List (RouteDecision F)
  | _, [] => []
  | headScores, pick :: ranked =>
    ⟨pick.backendId, used, store.kvFindLocalOverlap ctx.blockHashes pick.backendId,
      headScores ++ [(used, pick.score)]⟩ :: decisions ctx used store [] ranked

/-- Steps 5 to 8, with the picks made. -/
def conclude (e : RoutingEngine F σ) (now : Nat) (ctx : RoutingContext)
    (head : Option (RouteDecision F)) (cands : List BackendId) (used : String)
    (first : ScoredBackend F) (ranked : List (ScoredBackend F)) (st : EngineState F σ) :
    Except HierKvGatewayError (List (RouteDecision F)) × EngineState F σ :=
  let st :=
    if head.isNone then setSession now ctx first.backendId (e.recordDispatch now ctx first.backendId st)
    else st
  match e.traceScores ctx cands used first.backendId st with
  | (.error err, st) => (.error err, st)
  | (.ok headScores, st) => (.ok (head.toList ++ decisions ctx used st.store headScores ranked), st)

/-- Steps 2 to 8. -/
def routeRest (e : RoutingEngine F σ) (now : Nat) (ctx : RoutingContext) (limit : Nat)
    (head : Option (RouteDecision F)) (st : EngineState F σ) :
    Except HierKvGatewayError (List (RouteDecision F)) × EngineState F σ :=
  let cands := candidates ctx (head.map (·.backend)) st.store
  if cands = [] then
    match head with
    | some h => (.ok [h], st)
    | none => (.error .backendUnavailable, st)
  else
    match e.scoreCandidates ctx cands st with
    | (.error err, st) => (.error err, st)
    | (.ok (scored, used), st) =>
      let slots := limit - head.toList.length
      match e.selectRanked scored e.temperature slots st.inner with
      | ([], inner) =>
        match head with
        | some h => (.ok [h], { st with inner := inner })
        | none =>
          (.error (.routingFailed "Unable to select a backend from the scores"),
            { st with inner := inner })
      | (first :: ranked, inner) =>
        e.conclude now ctx head cands used first (first :: ranked) { st with inner := inner }

/-- `route_candidates` in the second `now`: up to `limit` decisions, the preferred one first. -/
def routeCandidates (e : RoutingEngine F σ) (now : Nat) (ctx : RoutingContext) (limit : Nat)
    (st : EngineState F σ) :
    Except HierKvGatewayError (List (RouteDecision F)) × EngineState F σ :=
  if limit = 0 then (.ok [], st)
  else
    match e.affinityHead now ctx st with
    | (some h, st) => if limit = 1 then (.ok [h], st) else e.routeRest now ctx limit (some h) st
    | (none, st) => e.routeRest now ctx limit none st

/-- `route`: the single best decision. -/
def route (e : RoutingEngine F σ) (now : Nat) (ctx : RoutingContext) (st : EngineState F σ) :
    Except HierKvGatewayError (RouteDecision F) × EngineState F σ :=
  match e.routeCandidates now ctx 1 st with
  | (.error err, st) => (.error err, st)
  | (.ok ranked, st) =>
    match ranked.getLast? with
    | some d => (.ok d, st)
    | none => (.error (.routingFailed "Unable to select a backend from the scores"), st)

/-! ## What routing does not write -/

/-- Two states that differ in the state of the strategies at most. -/
structure SameRecords (st st' : EngineState F σ) : Prop where
  store : st'.store = st.store
  prefixHistory : st'.prefixHistory = st.prefixHistory

omit [Floating F] in
theorem SameRecords.refl (st : EngineState F σ) : SameRecords st st := ⟨rfl, rfl⟩

omit [Floating F] in
theorem SameRecords.trans {st st' st'' : EngineState F σ} (h : SameRecords st st')
    (h' : SameRecords st' st'') : SameRecords st st'' :=
  ⟨h'.store.trans h.store, h'.prefixHistory.trans h.prefixHistory⟩

variable (e : RoutingEngine F σ) (ctx : RoutingContext) {cands : List BackendId}

theorem sameRecords_scoreCandidates (hcands : cands ≠ []) {st st' : EngineState F σ}
    {scores : Except HierKvGatewayError (List (ScoredBackend F) × String)}
    (h : e.scoreCandidates ctx cands st = (scores, st')) : SameRecords st st' := by
  rcases e.scoreCandidates_cases ctx hcands st with
    ⟨scores, s, -, -, heq⟩ | ⟨-, -, scores, s, -, -, heq⟩ | ⟨-, -, err, s, heq⟩
  · rw [← (Prod.mk.inj (heq.symm.trans h)).2]
    exact ⟨rfl, rfl⟩
  · rw [← (Prod.mk.inj (heq.symm.trans h)).2]
    exact ⟨rfl, rfl⟩
  · rw [← (Prod.mk.inj (heq.symm.trans h)).2]
    exact ⟨rfl, rfl⟩

omit [Floating F] in
theorem sameRecords_traceScores {used : String} {first : BackendId} {st st' : EngineState F σ}
    {scores : Except HierKvGatewayError (List (String × F))}
    (h : e.traceScores ctx cands used first st = (scores, st')) : SameRecords st st' := by
  unfold traceScores at h
  split at h
  · split at h
    · rw [← (Prod.mk.inj h).2]
      exact ⟨rfl, rfl⟩
    · split at h
      · rw [← (Prod.mk.inj h).2]
        exact ⟨rfl, rfl⟩
      · split at h
        · rw [← (Prod.mk.inj h).2]
          exact ⟨rfl, rfl⟩
        · rw [← (Prod.mk.inj h).2]
          exact ⟨rfl, rfl⟩
  · rw [← (Prod.mk.inj h).2]
    exact SameRecords.refl st

end RoutingEngine

end HierKvGateway
