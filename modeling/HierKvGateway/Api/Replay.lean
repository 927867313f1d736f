import HierKvGateway.Api.Forward
import HierKvGateway.Lib.Run
import HierKvGateway.Routing.Affinity

/-!
# Api.Replay — what is recorded and who serves

The routing step records a dispatch to the backend it prefers, before the forwarding loop finds
out who answers.

1. `RoutingEngine.routeCandidates_records`: what a routing step records, whatever comes of it.
2. `GatewayState.replays`: if the preferred backend answers, there is room for the record, and
   routing does not fail after it, then what is recorded is who served.
3. `GatewayState.failover_not_recorded`: the preferred backend fails, the other one serves, and
   the record says the first.
-/

namespace HierKvGateway

namespace RoutingEngine

variable {F σ : Type}

/-! ## What routing records -/

/-- The state after a dispatch to a backend is recorded. -/
def recorded (e : RoutingEngine F σ) (now : Nat) (ctx : RoutingContext) (backend : BackendId)
    (st : EngineState F σ) : EngineState F σ :=
  e.recordDispatch now ctx backend (setSession now ctx backend st)

variable (e : RoutingEngine F σ) (now : Nat) (ctx : RoutingContext)

/-- The two records are independent. -/
theorem setSession_recordDispatch (backend : BackendId) (st : EngineState F σ) :
    setSession now ctx backend (e.recordDispatch now ctx backend st) =
      e.recorded now ctx backend st := by
  unfold recorded setSession recordDispatch
  cases ctx.sessionId with
  | none => rfl
  | some session => rfl

theorem SameRecords.recorded {st st' : EngineState F σ} (h : SameRecords st st')
    (backend : BackendId) :
    SameRecords (e.recorded now ctx backend st) (e.recorded now ctx backend st') := by
  unfold RoutingEngine.recorded setSession recordDispatch
  cases ctx.sessionId with
  | none => exact ⟨h.store, by simp only [h.prefixHistory]⟩
  | some session => exact ⟨by simp only [h.store], by simp only [h.prefixHistory]⟩

theorem prefixHistory_recorded (backend : BackendId) (st : EngineState F σ) :
    (e.recorded now ctx backend st).prefixHistory =
      st.prefixHistory.recordDispatch e.xxh3 now ctx.blockHashes backend := by
  unfold recorded setSession recordDispatch
  cases ctx.sessionId with
  | none => rfl
  | some session => rfl

/-- The session of the request is with the backend. -/
theorem sessionGet_recorded {session : SessionId} (h : ctx.sessionId = some session)
    (backend : BackendId) (st : EngineState F σ) :
    ∃ a, (e.recorded now ctx backend st).store.sessionGet session = some a ∧
      a.backend = backend := by
  unfold recorded setSession recordDispatch
  rw [h]
  exact ⟨_, AList.lookup_insert _, rfl⟩

/-- Without a session and blocks there is nothing to record. -/
theorem recorded_of_nothing (hsession : ctx.sessionId = none) (hblocks : ctx.blockHashes = [])
    (backend : BackendId) (st : EngineState F σ) : e.recorded now ctx backend st = st := by
  unfold recorded setSession recordDispatch PrefixReuseHistory.recordDispatch
  rw [hsession, hblocks]
  rfl

/-- Tracing only fails if a strategy that is to be traced does. -/
theorem traceScores_cases (cands : List BackendId) (used : String) (first : BackendId)
    (st : EngineState F σ) :
    ∃ res st', e.traceScores ctx cands used first st = (res, st') ∧ SameRecords st st' ∧
      ((∃ scores, res = .ok scores) ∨
        (∃ err, res = .error err) ∧ e.traceSubScores = true ∧ used = HybridStrategy.name ∧
          ¬e.Traceable ctx cands st.store st.inner) := by
  by_cases hon : e.traceSubScores = true ∧ used = HybridStrategy.name
  · by_cases htrace : e.Traceable ctx cands st.store st.inner
    · rcases e.traceScores_of_traceable ctx used first htrace with ⟨scores, st', heq⟩
      exact ⟨_, st', heq, e.sameRecords_traceScores ctx heq, Or.inl ⟨scores, rfl⟩⟩
    · rcases e.traceScores_of_not_traceable ctx first st hon.1 htrace with ⟨err, st', heq⟩
      rw [← hon.2] at heq
      exact ⟨_, st', heq, e.sameRecords_traceScores ctx heq,
        Or.inr ⟨⟨err, rfl⟩, hon.1, hon.2, htrace⟩⟩
  · exact ⟨_, st, e.traceScores_of_not ctx cands used first st hon, SameRecords.refl st,
      Or.inl ⟨[], rfl⟩⟩

theorem conclude_new {cands : List BackendId} {used : String} {first : ScoredBackend F}
    {st st' : EngineState F σ} {headScores : List (String × F)}
    (htrace : e.traceScores ctx cands used first.backendId
      (e.recorded now ctx first.backendId st) = (.ok headScores, st'))
    (ranked : List (ScoredBackend F)) :
    e.conclude now ctx none cands used first (first :: ranked) st =
      (.ok (⟨first.backendId, used, st'.store.kvFindLocalOverlap ctx.blockHashes first.backendId,
        headScores ++ [(used, first.score)]⟩ :: decisions ctx used st'.store [] ranked), st') := by
  unfold conclude
  dsimp only [Option.isNone]
  rw [if_pos rfl, e.setSession_recordDispatch, htrace]
  rfl

theorem conclude_new_error {cands : List BackendId} {used : String} {first : ScoredBackend F}
    {st st' : EngineState F σ} {err : HierKvGatewayError}
    (htrace : e.traceScores ctx cands used first.backendId
      (e.recorded now ctx first.backendId st) = (.error err, st'))
    (ranked : List (ScoredBackend F)) :
    e.conclude now ctx none cands used first ranked st = (.error err, st') := by
  unfold conclude
  dsimp only [Option.isNone]
  rw [if_pos rfl, e.setSession_recordDispatch, htrace]

variable [Floating F]

/-- The backend is the first pick for a request that is not pinned. -/
def Picked (limit : Nat) (st : EngineState F σ) (backend : BackendId) : Prop :=
  ∃ scored used st' first ranked s,
    e.scoreCandidates ctx (candidates ctx none st.store) st = (.ok (scored, used), st') ∧
      e.selectRanked scored e.temperature limit st'.inner = (first :: ranked, s) ∧
      first.backendId = backend

/-- The backend that a request goes to first: that of its session, or else the first pick. -/
def Preferred (limit : Nat) (st : EngineState F σ) (backend : BackendId) : Prop :=
  match affinity ctx st.store with
  | some a => a.backend = backend
  | none => e.Picked ctx limit st backend

theorem preferred_unique {limit : Nat} {st : EngineState F σ} {backend backend' : BackendId}
    (h : e.Preferred ctx limit st backend) (h' : e.Preferred ctx limit st backend') :
    backend = backend' := by
  unfold Preferred at h h'
  rcases haff : affinity ctx st.store with _ | a
  · rw [haff] at h h'
    rcases h with ⟨scored, used, st₁, first, ranked, s, hscore, hselect, rfl⟩
    rcases h' with ⟨scored', used', st₂, first', ranked', s', hscore', hselect', rfl⟩
    rcases Prod.mk.inj (hscore.symm.trans hscore') with ⟨hok, rfl⟩
    rcases Prod.mk.inj (Except.ok.inj hok) with ⟨rfl, -⟩
    rcases Prod.mk.inj (hselect.symm.trans hselect') with ⟨hcons, -⟩
    rw [(List.cons.inj hcons).1]
  · rw [haff] at h h'
    exact h.symm.trans h'

/-- Nothing fails in steps 2 to 8 once there is a record: with a head, the other candidates are
scored, and if the scores are to be traced, those of the first pick can be had. -/
def Concludes (limit : Nat) (head : Option (RouteDecision F)) (st : EngineState F σ) : Prop :=
  let cands := candidates ctx (head.map (·.backend)) st.store
  cands ≠ [] →
    (head.isSome = true → e.PrimaryFails ctx cands st →
      DegradationStrategy.isAvailable st.store = true) ∧
    ∀ scored st' first ranked s,
      e.scoreCandidates ctx cands st = (.ok (scored, HybridStrategy.name), st') →
      e.selectRanked scored e.temperature (limit - head.toList.length) st'.inner =
        (first :: ranked, s) →
      e.traceSubScores = true →
      let picked : EngineState F σ := { st' with inner := s }
      let st := if head.isNone then e.recorded now ctx first.backendId picked else picked
      e.Traceable ctx cands st.store st.inner

/-- Routing does not fail once there is a record. -/
def Kept (limit : Nat) (st : EngineState F σ) : Prop :=
  ∀ head st', e.affinityHead now ctx st = (head, st') → head = none ∨ limit ≠ 1 →
    e.Concludes now ctx limit head st'

/-- With a head, steps 2 to 8 record nothing and answer with the head in front, or fail. -/
theorem routeRest_head (limit : Nat) (h : RouteDecision F) (st : EngineState F σ) :
    ∃ res st', e.routeRest now ctx limit (some h) st = (res, st') ∧ SameRecords st st' ∧
      ((∃ ds, res = .ok (h :: ds)) ∨
        (∃ err, res = .error err) ∧ ¬e.Concludes now ctx limit (some h) st) := by
  -- the head is answered alone if there is nobody else, or nobody is selected
  by_cases hcands : candidates ctx (some h.backend) st.store = []
  · refine ⟨.ok [h], st, ?_, SameRecords.refl st, Or.inl ⟨[], rfl⟩⟩
    unfold routeRest
    exact if_pos hcands
  rcases hscore : e.scoreCandidates ctx (candidates ctx (some h.backend) st.store) st with
    ⟨err | ⟨scored, used⟩, st'⟩
  · refine ⟨.error err, st', ?_, e.sameRecords_scoreCandidates ctx hcands hscore,
      Or.inr ⟨⟨err, rfl⟩, ?_⟩⟩
    · unfold routeRest
      simp only [Option.map_some, if_neg hcands, hscore]
    · -- without scores the head is lost, unless degradation is available
      intro hconcl
      rcases e.scoreCandidates_cases ctx hcands st with
        ⟨scores, s, -, -, heq⟩ | ⟨-, -, scores, s, -, -, heq⟩ | ⟨hfails, havail, -⟩
      · exact absurd (Prod.mk.inj (hscore.symm.trans heq)).1 nofun
      · exact absurd (Prod.mk.inj (hscore.symm.trans heq)).1 nofun
      · exact absurd (((hconcl hcands).1 rfl hfails).symm.trans havail) nofun
  have hsame := e.sameRecords_scoreCandidates ctx hcands hscore
  rcases hselect : e.selectRanked scored e.temperature (limit - 1) st'.inner with
    ⟨_ | ⟨first, ranked⟩, s⟩
  · refine ⟨.ok [h], { st' with inner := s }, ?_, hsame.trans ⟨rfl, rfl⟩, Or.inl ⟨[], rfl⟩⟩
    unfold routeRest
    simp only [Option.map_some, if_neg hcands, hscore, Option.toList_some, List.length_singleton,
      hselect]
  have hpicked : SameRecords st { st' with inner := s } := hsame.trans ⟨rfl, rfl⟩
  have hrest : e.routeRest now ctx limit (some h) st =
      e.conclude now ctx (some h) (candidates ctx (some h.backend) st.store) used first
        (first :: ranked) { st' with inner := s } := by
    unfold routeRest
    simp only [Option.map_some, if_neg hcands, hscore, Option.toList_some, List.length_singleton,
      hselect]
  rcases e.traceScores_cases ctx (candidates ctx (some h.backend) st.store) used first.backendId
    { st' with inner := s } with ⟨res, st'', htrace, hsame', ⟨scores, rfl⟩ | ⟨⟨err, rfl⟩, hon⟩⟩
  · exact ⟨_, st'', hrest.trans (e.conclude_head now ctx htrace _),
      hpicked.trans hsame', Or.inl ⟨_, rfl⟩⟩
  · refine ⟨_, st'', hrest.trans (e.conclude_head_error now ctx htrace _),
      hpicked.trans hsame', Or.inr ⟨⟨err, rfl⟩, ?_⟩⟩
    intro hconcl
    rcases hon with ⟨hon, rfl, hnot⟩
    exact hnot ((hconcl hcands).2 scored st' first ranked s hscore hselect hon)

/-- Without a head, steps 2 to 8 fail and record nothing, or the first pick is recorded; then it
is in front of the answer, or tracing fails. -/
theorem routeRest_new (limit : Nat) (st : EngineState F σ) :
    ∃ res st', e.routeRest now ctx limit none st = (res, st') ∧
      ((∃ err, res = .error err) ∧ SameRecords st st' ∨
        ∃ backend, e.Picked ctx limit st backend ∧
          SameRecords (e.recorded now ctx backend st) st' ∧
          ((∃ d ds, res = .ok (d :: ds) ∧ d.backend = backend) ∨
            (∃ err, res = .error err) ∧ ¬e.Concludes now ctx limit none st)) := by
  -- up to the selection, failures come before the record
  by_cases hcands : candidates ctx none st.store = []
  · refine ⟨.error .backendUnavailable, st, ?_, Or.inl ⟨⟨_, rfl⟩, SameRecords.refl st⟩⟩
    unfold routeRest
    exact if_pos hcands
  rcases hscore : e.scoreCandidates ctx (candidates ctx none st.store) st with
    ⟨err | ⟨scored, used⟩, st'⟩
  · refine ⟨.error err, st', ?_,
      Or.inl ⟨⟨err, rfl⟩, e.sameRecords_scoreCandidates ctx hcands hscore⟩⟩
    unfold routeRest
    simp only [Option.map_none, if_neg hcands, hscore]
  have hsame := e.sameRecords_scoreCandidates ctx hcands hscore
  rcases hselect : e.selectRanked scored e.temperature limit st'.inner with
    ⟨_ | ⟨first, ranked⟩, s⟩
  · refine ⟨.error (.routingFailed "Unable to select a backend from the scores"),
      { st' with inner := s }, ?_, Or.inl ⟨⟨_, rfl⟩, hsame.trans ⟨rfl, rfl⟩⟩⟩
    unfold routeRest
    simp only [Option.map_none, if_neg hcands, hscore, Option.toList_none, List.length_nil,
      Nat.sub_zero, hselect]
  have hpicked : SameRecords st { st' with inner := s } := hsame.trans ⟨rfl, rfl⟩
  have hpick : e.Picked ctx limit st first.backendId :=
    ⟨scored, used, st', first, ranked, s, hscore, hselect, rfl⟩
  have hrest : e.routeRest now ctx limit none st =
      e.conclude now ctx none (candidates ctx none st.store) used first (first :: ranked)
        { st' with inner := s } := by
    unfold routeRest
    simp only [Option.map_none, if_neg hcands, hscore, Option.toList_none, List.length_nil,
      Nat.sub_zero, hselect]
  -- the first pick is recorded, and then the scores are traced
  have hrec : SameRecords (e.recorded now ctx first.backendId st)
      (e.recorded now ctx first.backendId { st' with inner := s }) :=
    hpicked.recorded e now ctx first.backendId
  rcases e.traceScores_cases ctx (candidates ctx none st.store) used first.backendId
    (e.recorded now ctx first.backendId { st' with inner := s }) with
      ⟨res, st'', htrace, hsame', ⟨scores, rfl⟩ | ⟨⟨err, rfl⟩, hon⟩⟩
  · refine ⟨_, st'', hrest.trans (e.conclude_new now ctx htrace ranked),
      Or.inr ⟨_, hpick, hrec.trans hsame', Or.inl ⟨_, _, rfl, rfl⟩⟩⟩
  · refine ⟨_, st'', hrest.trans (e.conclude_new_error now ctx htrace _),
      Or.inr ⟨_, hpick, hrec.trans hsame', Or.inr ⟨⟨err, rfl⟩, ?_⟩⟩⟩
    intro hconcl
    rcases hon with ⟨hon, rfl, hnot⟩
    exact hnot ((hconcl hcands).2 scored st' first ranked s hscore hselect hon)

/-- A routing step fails and records nothing, or it records a dispatch to the preferred backend;
then this backend is in front of the answer, unless something fails after the record. -/
theorem routeCandidates_records {limit : Nat} (hlimit : limit ≠ 0) (st : EngineState F σ) :
    ∃ res st', e.routeCandidates now ctx limit st = (res, st') ∧
      ((∃ err, res = .error err) ∧ SameRecords st st' ∨
        ∃ backend, e.Preferred ctx limit st backend ∧
          SameRecords (e.recorded now ctx backend st) st' ∧
          ((∃ d ds, res = .ok (d :: ds) ∧ d.backend = backend) ∨
            (∃ err, res = .error err) ∧ ¬e.Kept now ctx limit st)) := by
  unfold routeCandidates Preferred
  rw [if_neg hlimit]
  rcases hhead : e.affinityHead now ctx st with ⟨_ | h, st₁⟩
  · rcases affinityHead_eq_none.1 hhead with ⟨hnone, rfl⟩
    rw [hnone]
    rcases e.routeRest_new now ctx limit st₁ with ⟨res, st', heq, hfails | hrecorded⟩
    · exact ⟨res, st', heq, Or.inl hfails⟩
    · rcases hrecorded with ⟨backend, hpick, hsame, hok | ⟨herr, hnot⟩⟩
      · exact ⟨res, st', heq, Or.inr ⟨backend, hpick, hsame, Or.inl hok⟩⟩
      · refine ⟨res, st', heq, Or.inr ⟨backend, hpick, hsame, Or.inr ⟨herr, ?_⟩⟩⟩
        intro hkept
        exact hnot (hkept none st₁ hhead (Or.inl rfl))
  · rcases affinityHead_eq_some hhead with ⟨a, ha, hbackend, -, rfl⟩
    rw [ha]
    by_cases hone : limit = 1
    · refine ⟨.ok [h], _, if_pos hone, Or.inr ⟨a.backend, rfl, SameRecords.refl _, ?_⟩⟩
      exact Or.inl ⟨h, [], rfl, hbackend⟩
    · rcases e.routeRest_head now ctx limit h (e.recorded now ctx a.backend st) with
        ⟨res, st', heq, hsame, ⟨ds, rfl⟩ | ⟨herr, hnot⟩⟩
      · refine ⟨_, st', (if_neg hone).trans heq, Or.inr ⟨a.backend, rfl, hsame, ?_⟩⟩
        exact Or.inl ⟨h, ds, rfl, hbackend⟩
      · refine ⟨_, st', (if_neg hone).trans heq, Or.inr ⟨a.backend, rfl, hsame, ?_⟩⟩
        refine Or.inr ⟨herr, ?_⟩
        intro hkept
        exact hnot (hkept (some h) _ hhead (Or.inr hone))

end RoutingEngine

/-! ## Runs of requests -/

/-- A request as it is routed and forwarded. -/
structure RoutedRequest (F σ : Type) where
  /-- The second in which it is routed. -/
  now : Nat
  ctx : RoutingContext
  /-- One attempt and the retries. -/
  limit : Nat
  limit_ne_zero : limit ≠ 0
  inference : InferenceRequest F
  env : ForwardEnv F σ

/-- The gateway, as requests change it. -/
structure GatewayState (F σ : Type) where
  engine : EngineState F σ
  breakers : CircuitBreakerRegistry

/-- What happens at a gateway. -/
inductive GatewayEvent (F σ : Type) where
  | request (r : RoutedRequest F σ)
  /-- Metadata, session records, metrics and breakers change between two requests. -/
  | changed (w : GatewayState F σ)

namespace GatewayState

variable {F σ : Type} [Floating F] (e : RoutingEngine F σ)

/-- Route a request and forward it: the chunks with the decision of the backend that served it. -/
def serve (r : RoutedRequest F σ) (w : GatewayState F σ) :
    Except HierKvGatewayError (List InferenceChunk × RouteDecision F) × GatewayState F σ :=
  match e.routeCandidates r.now r.ctx r.limit w.engine with
  | (.error err, engine) => (.error err, ⟨engine, w.breakers⟩)
  | (.ok decisions, engine) =>
    if decisions = [] then (.error .backendUnavailable, ⟨engine, w.breakers⟩)
    else
      let (result, st) := r.env.forwardLoop r.inference (BitVec.ofNat 32 r.ctx.blockHashes.length)
        0 none decisions ⟨w.breakers, engine.inner, []⟩
      (result, ⟨{ engine with inner := st.inner }, st.breakers⟩)

/-- What an event does to the gateway. -/
def step (w : GatewayState F σ) : GatewayEvent F σ → GatewayState F σ
  | .request r => (serve e r w).2
  | .changed w' => w'

omit [Floating F] in
/-- A backend is recorded for the full prefix of a request and for its session, as far as it has
them. -/
structure RecordedFor (ctx : RoutingContext) (backend : BackendId) (st : EngineState F σ) :
    Prop where
  fullPrefix : ∀ hash,
    (PrefixReuseHistory.computePrefixHashes e.xxh3 ctx.blockHashes).getLast? = some hash →
      ∃ record, st.prefixHistory.entries.lookup hash = some record ∧ record.backend = backend
  session : ∀ session, ctx.sessionId = some session →
    ∃ a, st.store.sessionGet session = some a ∧ a.backend = backend

/-- If a backend served a request, it is recorded for it; if none did, nothing is recorded. -/
def Replays (w : GatewayState F σ) : GatewayEvent F σ → Prop
  | .request r =>
    match serve e r w with
    | (.ok (_, d), w') => RecordedFor e r.ctx d.backend w'.engine
    | (.error _, w') =>
      w'.engine.prefixHistory = w.engine.prefixHistory ∧
        w'.engine.store.history = w.engine.store.history
  | .changed _ => True

/-- There is nothing to record for a request, or else the preferred backend answers, there is room
in the dispatch history, and routing does not fail once there is a record. -/
def Straight (w : GatewayState F σ) : GatewayEvent F σ → Prop
  | .request r =>
    (r.ctx.sessionId = none ∧ r.ctx.blockHashes = []) ∨
      e.Kept r.now r.ctx r.limit w.engine ∧
        ∀ backend, e.Preferred r.ctx r.limit w.engine backend →
          r.env.Answers r.inference w.breakers 0 backend ∧
            (r.ctx.blockHashes ≠ [] →
              PrefixReuseHistory.RoomFor r.now (w.engine.prefixHistory.addPrefixes e.xxh3 r.now
                r.ctx.blockHashes backend))
  | .changed _ => True

omit [Floating F] in
/-- What is recorded for a request is there, if there is room. -/
theorem recordedFor_recorded {now : Nat} {ctx : RoutingContext} {backend : BackendId}
    {st : EngineState F σ}
    (hroom : ctx.blockHashes ≠ [] → PrefixReuseHistory.RoomFor now
      (st.prefixHistory.addPrefixes e.xxh3 now ctx.blockHashes backend)) :
    RecordedFor e ctx backend (e.recorded now ctx backend st) := by
  constructor
  · intro hash hlast
    have hne : ctx.blockHashes ≠ [] := by
      intro hnil
      rw [hnil] at hlast
      exact absurd hlast nofun
    rcases PrefixReuseHistory.dispatched_recordDispatch (hroom hne)
      (List.mem_of_getLast? hlast) with ⟨record, hrecord, hbackend, -⟩
    rw [e.prefixHistory_recorded]
    exact ⟨record, hrecord, hbackend⟩
  · intro session hsession
    exact e.sessionGet_recorded now ctx hsession backend st

omit [Floating F] in
theorem RecordedFor.congr {ctx : RoutingContext} {backend : BackendId} {st st' : EngineState F σ}
    (h : RecordedFor e ctx backend st) (hsame : RoutingEngine.SameRecords st st') :
    RecordedFor e ctx backend st' := by
  constructor
  · rw [hsame.prefixHistory]
    exact h.fullPrefix
  · rw [hsame.store]
    exact h.session

omit [Floating F] in
/-- For a request without a session and blocks, every backend will do. -/
theorem recordedFor_of_nothing {ctx : RoutingContext} (hsession : ctx.sessionId = none)
    (hblocks : ctx.blockHashes = []) (backend : BackendId) (st : EngineState F σ) :
    RecordedFor e ctx backend st := by
  constructor
  · intro hash hlast
    rw [hblocks] at hlast
    exact absurd hlast nofun
  · intro session hsome
    exact absurd (hsession.symm.trans hsome) nofun

variable {e}

theorem serve_of_error {r : RoutedRequest F σ} {w : GatewayState F σ} {err : HierKvGatewayError}
    {engine : EngineState F σ}
    (hroute : e.routeCandidates r.now r.ctx r.limit w.engine = (.error err, engine)) :
    serve e r w = (.error err, ⟨engine, w.breakers⟩) := by
  unfold serve
  rw [hroute]

/-- Forwarding records nothing, and goes no further than the first decision if that answers. -/
theorem serve_of_ok {r : RoutedRequest F σ} {w : GatewayState F σ} {d : RouteDecision F}
    {ds : List (RouteDecision F)} {engine : EngineState F σ}
    (hroute : e.routeCandidates r.now r.ctx r.limit w.engine = (.ok (d :: ds), engine)) :
    ∃ res w', serve e r w = (res, w') ∧ RoutingEngine.SameRecords engine w'.engine ∧
      (r.env.Answers r.inference w.breakers 0 d.backend → ∃ chunks, res = .ok (chunks, d)) := by
  rcases hloop : r.env.forwardLoop r.inference (BitVec.ofNat 32 r.ctx.blockHashes.length) 0 none
    (d :: ds) ⟨w.breakers, engine.inner, []⟩ with ⟨res, st⟩
  refine ⟨res, ⟨{ engine with inner := st.inner }, st.breakers⟩, ?_, ⟨rfl, rfl⟩, ?_⟩
  · unfold serve
    rw [hroute]
    dsimp only
    rw [if_neg (List.cons_ne_nil d ds), hloop]
  · intro hanswers
    rcases r.env.forwardLoop_of_answers (BitVec.ofNat 32 r.ctx.blockHashes.length) engine.inner []
      hanswers none ds with ⟨chunks, st', heq⟩
    exact ⟨chunks, (Prod.mk.inj (hloop.symm.trans heq)).1⟩

/-- A request that goes straight to its preferred backend is recorded for who serves it. -/
theorem replays_of_straight {w : GatewayState F σ} {ev : GatewayEvent F σ}
    (h : Straight e w ev) : Replays e w ev := by
  cases ev with
  | changed w' => trivial
  | request r =>
    unfold Replays
    dsimp only
    rcases e.routeCandidates_records r.now r.ctx r.limit_ne_zero w.engine with
      ⟨res, engine, hroute, ⟨⟨err, rfl⟩, hsame⟩ | ⟨backend, hpref, hsame, hres⟩⟩
    · rw [serve_of_error hroute]
      exact ⟨hsame.prefixHistory, congrArg _ hsame.store⟩
    rcases h with ⟨hsession, hblocks⟩ | ⟨hkept, hstraight⟩
    · -- the dispatch leaves no trace, whoever serves
      rw [e.recorded_of_nothing r.now r.ctx hsession hblocks] at hsame
      rcases hres with ⟨d, ds, rfl, -⟩ | ⟨⟨err, rfl⟩, -⟩
      · rcases serve_of_ok hroute with ⟨err | ⟨chunks, d'⟩, w', heq, hsame', -⟩
        · rw [heq]
          exact ⟨(hsame.trans hsame').prefixHistory, congrArg _ (hsame.trans hsame').store⟩
        · rw [heq]
          exact recordedFor_of_nothing e hsession hblocks d'.backend w'.engine
      · rw [serve_of_error hroute]
        exact ⟨hsame.prefixHistory, congrArg _ hsame.store⟩
    · rcases hres with ⟨d, ds, rfl, rfl⟩ | ⟨-, hnot⟩
      · rcases hstraight d.backend hpref with ⟨hanswers, hroom⟩
        rcases serve_of_ok hroute with ⟨res, w', heq, hsame', hserved⟩
        rcases hserved hanswers with ⟨chunks, rfl⟩
        rw [heq]
        exact (recordedFor_recorded e hroom).congr e (hsame.trans hsame')
      · exact absurd hkept hnot

/-- Whenever another backend than the preferred one serves a request of a session, the record is
of the wrong one. -/
theorem not_replays_of_failover {w w' : GatewayState F σ} {r : RoutedRequest F σ}
    {session : SessionId} (hsession : r.ctx.sessionId = some session) {backend : BackendId}
    (hpref : e.Preferred r.ctx r.limit w.engine backend) {chunks : List InferenceChunk}
    {d : RouteDecision F} (hserve : serve e r w = (.ok (chunks, d), w'))
    (hne : d.backend ≠ backend) : ¬Replays e w (.request r) := by
  intro hreplays
  unfold Replays at hreplays
  dsimp only at hreplays
  rw [hserve] at hreplays
  rcases hreplays.session session hsession with ⟨a, ha, hbackend⟩
  rcases e.routeCandidates_records r.now r.ctx r.limit_ne_zero w.engine with
    ⟨res, engine, hroute, ⟨⟨err, rfl⟩, -⟩ | ⟨backend', hpref', hsame, hres⟩⟩
  · exact absurd (Prod.mk.inj ((serve_of_error hroute).symm.trans hserve)).1 nofun
  rcases e.preferred_unique r.ctx hpref hpref' with rfl
  rcases hres with ⟨d', ds, rfl, -⟩ | ⟨⟨err, rfl⟩, -⟩
  · rcases serve_of_ok hroute with ⟨res, w'', heq, hsame', -⟩
    rcases Prod.mk.inj (heq.symm.trans hserve) with ⟨-, rfl⟩
    -- the record is still that of the routing step
    rw [(hsame.trans hsame').store] at ha
    rcases e.sessionGet_recorded r.now r.ctx hsession backend w.engine with ⟨a', ha', hrec⟩
    rw [Option.some.inj (ha.symm.trans ha')] at hbackend
    exact hne (hbackend.symm.trans hrec)
  · exact absurd (Prod.mk.inj ((serve_of_error hroute).symm.trans hserve)).1 nofun

/-- In a run whose requests all go straight to their preferred backends, what is recorded is who
served. -/
theorem replays {w : GatewayState F σ} {events : List (GatewayEvent F σ)}
    (h : Run.Each (step e) (Straight e) w events) : Run.Each (step e) (Replays e) w events :=
  h.mono fun _ _ => replays_of_straight

/-! ## Two backends -/

/-- A request of the session for one block, with three retries; the backends that are down refuse
it. -/
def ofSession (down : BackendId → Bool) : RoutedRequest ExtRat Unit where
  now := 0
  ctx := { RoutingContext.default with
    sessionId := some TwoBackends.session, modelName := some "m", blockHashes := [7] }
  limit := 4
  limit_ne_zero := by decide
  inference := ⟨⟨"q"⟩, "m", [], [], 16, Floating.ofNat 0, false, [], none⟩
  env :=
    { connectors := fun _ => some fun _ backend _ =>
        if down backend then .error (.connectorError "refused") else .ok []
      adaptive := none
      consideredAt := fun _ => 0
      answeredAt := fun _ => 0
      elapsed := fun _ => .fromSecs 0 }

/-- The session is with the first backend, and no circuit is open. -/
def pinned : GatewayState ExtRat Unit :=
  ⟨TwoBackends.state (RoutingHistory.new.set 0 TwoBackends.session TwoBackends.first 0),
    .new ⟨5, 30, 2⟩⟩

/-- Both backends are up, and the first serves its session. -/
theorem replays_pinned :
    Run.Each (step TwoBackends.engine) (Replays TwoBackends.engine) pinned
      [.request (ofSession fun _ => false)] := by
  refine replays ⟨Or.inr ⟨?_, ?_⟩, trivial⟩
  · intro head st' hhead hlimit hcands
    rcases (⟨congrArg Prod.fst hhead, congrArg Prod.snd hhead⟩ : _ = head ∧ _ = st') with
      ⟨rfl, rfl⟩
    constructor
    · intro _ hfails
      -- the other backend is scored
      let r := ofSession fun _ => false
      let st := TwoBackends.engine.recorded r.now r.ctx TwoBackends.first pinned.engine
      let cands := RoutingEngine.candidates r.ctx (some TwoBackends.first) st.store
      have hscored : (TwoBackends.engine.primaryStrategy.evaluate r.ctx cands st.store ()).1.map
          List.length = .ok 1 := by decide +kernel
      rcases heval : TwoBackends.engine.primaryStrategy.evaluate r.ctx cands st.store () with
        ⟨err | scores, s⟩
      · rw [heval] at hscored
        exact absurd hscored nofun
      · rw [heval, hfails scores s heval] at hscored
        exact absurd (Except.ok.inj hscored) nofun
    · intro scored st' first ranked s _ _ htrace
      exact absurd htrace Bool.false_ne_true
  · rintro backend rfl
    exact ⟨⟨rfl, _, rfl, [], rfl⟩, fun _ => by unfold PrefixReuseHistory.RoomFor; decide +kernel⟩

/-- The first backend is down, the second serves, and the record of the session says the first. -/
theorem failover_not_recorded :
    ¬Run.Each (step TwoBackends.engine) (Replays TwoBackends.engine) pinned
      [.request (ofSession (· = TwoBackends.first))] := by
  intro h
  have hserved : (serve TwoBackends.engine (ofSession (· = TwoBackends.first)) pinned).1.map
      (·.2.backend) = .ok TwoBackends.second := by decide +kernel
  rcases hserve : serve TwoBackends.engine (ofSession (· = TwoBackends.first)) pinned with
    ⟨err | ⟨chunks, d⟩, w'⟩
  · rw [hserve] at hserved
    exact absurd hserved nofun
  · rw [hserve] at hserved
    have hsecond : d.backend = TwoBackends.second := Except.ok.inj hserved
    have hne : d.backend ≠ TwoBackends.first := by
      rw [hsecond]
      decide
    have hpref : TwoBackends.engine.Preferred (ofSession (· = TwoBackends.first)).ctx 4
        pinned.engine TwoBackends.first := rfl
    exact not_replays_of_failover rfl hpref hserve hne h.1

end GatewayState

end HierKvGateway
