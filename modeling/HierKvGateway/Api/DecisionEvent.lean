import HierKvGateway.Api.Coalesced
import HierKvGateway.Api.Forward

/-!
# Api.DecisionEvent — decision events

What the gateway tells of one request (`decision_event.rs`): the candidates and their scores, the
attempts to forward, and how it ended. `emit_decision_event` makes the event, and every branch of
the two handlers emits one (`handlers.rs`).

`Observed.telemetry_faithful`: a request that is forwarded, for itself or for all calls that share
it, emits one event, whichever way it goes, and the event says what happened: which candidates there
were, which of them were tried and what became of it, who served, and what the client was told.
-/

namespace HierKvGateway

/-- A scored candidate. -/
structure CandidateScore (F : Type) where
  /-- As `region/instance`. -/
  backend : String
  score : F
  kvOverlap : BitVec 32
deriving DecidableEq, Repr

/-- How a request ended. -/
inductive DecisionOutcome where
  | success
  /-- Routing found no candidate. -/
  | routingFailed
  /-- Every candidate failed or was skipped. -/
  | allCandidatesFailed
deriving DecidableEq, Repr

/-- The profile of one routing decision. -/
structure DecisionEvent (F : Type) where
  eventId : String
  timestampUnixMs : Int
  gatewayInstance : String
  gatewayRegion : String
  requestId : String
  model : String
  sessionId : Option String
  strategy : String
  /-- The weights of the hybrid strategy, if it decided. -/
  weights : Option (StrategyWeights F)
  candidates : List (CandidateScore F)
  attempts : List ForwardAttempt
  selectedBackend : Option String
  kvOverlap : BitVec 32
  promptBlocks : BitVec 32
  routingLatencyUs : BitVec 64
  totalLatencyUs : BitVec 64
  outcome : DecisionOutcome

/-- What an event says beside the request: the gateway, the clocks and the weights. -/
structure TelemetryContext (F : Type) where
  eventId : String
  timestampUnixMs : Int
  gatewayInstance : String
  gatewayRegion : String
  weightSnapshot : StrategyWeights F
  routingLatencyUs : BitVec 64
  totalLatencyUs : BitVec 64

/-- Inputs for an event. -/
structure DecisionEventParams (F : Type) where
  context : TelemetryContext F
  requestId : RequestId
  model : String
  sessionId : Option SessionId
  decisions : List (RouteDecision F)
  attempts : List ForwardAttempt
  selected : Option RoutingMeta
  promptBlocks : BitVec 32
  outcome : DecisionOutcome

namespace DecisionEventParams

variable {F : Type} [Floating F] (p : DecisionEventParams F)

/-- The candidate of a decision; its score is the last one traced. -/
def candidate (d : RouteDecision F) : CandidateScore F where
  backend := d.backend.display
  score := (d.scores.getLast?.map (·.2)).getD (Floating.ofNat 0)
  kvOverlap := d.kvOverlap

/-- The hybrid strategy made the winning decision, or the first one. -/
def wonByHybrid : Bool :=
  (p.selected.map fun m => m.strategy == HybridStrategy.name).getD false ||
    (p.decisions.head?.map fun d => d.strategy == HybridStrategy.name).getD false

/-- The event that `emit_decision_event` makes. -/
def event : DecisionEvent F where
  eventId := p.context.eventId
  timestampUnixMs := p.context.timestampUnixMs
  gatewayInstance := p.context.gatewayInstance
  gatewayRegion := p.context.gatewayRegion
  requestId := p.requestId.str
  model := p.model
  sessionId := p.sessionId.map (·.str)
  strategy := (p.decisions.head?.map (·.strategy)).getD "none"
  weights := if p.wonByHybrid then some p.context.weightSnapshot else none
  candidates := p.decisions.map candidate
  attempts := p.attempts
  selectedBackend := p.selected.map (·.backend)
  kvOverlap := (p.selected.map (·.kvOverlap)).getD 0
  promptBlocks := p.promptBlocks
  routingLatencyUs := p.context.routingLatencyUs
  totalLatencyUs := p.context.totalLatencyUs
  outcome := p.outcome

end DecisionEventParams

/-! ## The attempts of the loop -/

/-- The error of the last attempt that was made. -/
def lastErrorText (attempts : List ForwardAttempt) : Option String :=
  (attempts.filterMap (·.error)).getLast?

theorem lastErrorText_cons (a : ForwardAttempt) (attempts : List ForwardAttempt) :
    lastErrorText (a :: attempts) = (lastErrorText attempts).or a.error := by
  unfold lastErrorText
  cases h : a.error with
  | none => rw [List.filterMap_cons_none h, Option.or_none]
  | some text =>
    rw [List.filterMap_cons_some h, List.getLast?_cons]
    cases (attempts.filterMap (·.error)).getLast? with
    | none => rfl
    | some text' => rfl

namespace ForwardEnv

variable {F σ : Type} (env : ForwardEnv F σ) (inference : InferenceRequest F)
  (promptBlocks : BitVec 32)

/-- As the `k`-th candidate, the backend of a decision sends these chunks. -/
def Sends (k : Nat) (d : RouteDecision F) (chunks : List InferenceChunk) : Prop :=
  ∃ forward, env.connectors d.backend = some forward ∧ forward k d.backend inference = .ok chunks

/-- What an attempt on the `k`-th candidate tells: the circuit was open, or what became of the
forward. -/
inductive Tells (k : Nat) (d : RouteDecision F) : ForwardAttempt → Prop where
  | skipped : Tells k d ⟨d.backend.display, false, true, none⟩
  | unconnected (h : env.connectors d.backend = none) :
    Tells k d ⟨d.backend.display, false, false,
      some (HierKvGatewayError.connectorError
        ("no connector for backend " ++ d.backend.display)).display⟩
  | failed (forward : Connector F) (err : HierKvGatewayError)
    (hconnector : env.connectors d.backend = some forward)
    (h : forward k d.backend inference = .error err) :
    Tells k d ⟨d.backend.display, false, false, some err.display⟩
  | served (chunks : List InferenceChunk) (h : env.Sends inference k d chunks) :
    Tells k d ⟨d.backend.display, true, false, none⟩

/-- What the attempts on some candidates tell, the first of them the `k`-th one, after so many
errors. -/
structure Tried (k : Nat) (decisions : List (RouteDecision F))
    (lastErr : Option HierKvGatewayError) (attempts : List ForwardAttempt)
    (result : Except HierKvGatewayError (List InferenceChunk × RouteDecision F)) : Prop where
  /-- The candidates are tried in order. -/
  tells : ∀ (i : Nat) a, attempts[i]? = some a → ∃ d, decisions[i]? = some d ∧
    env.Tells inference (k + i) d a
  /-- There is no attempt after the one that succeeds. -/
  last : ∀ a ∈ attempts.dropLast, a.success = false
  served : ∀ chunks d, result = .ok (chunks, d) → decisions[attempts.length - 1]? = some d ∧
    env.Sends inference (k + (attempts.length - 1)) d chunks ∧
    ∃ a, attempts.getLast? = some a ∧ a.success = true
  failed : ∀ e, result = .error e → attempts.length = decisions.length ∧
    (∀ a ∈ attempts, a.success = false) ∧
    e.display = ((lastErrorText attempts).or (lastErr.map (·.display))).getD
      HierKvGatewayError.backendUnavailable.display

variable {env inference}

/-- A candidate that does not answer, before the others. -/
theorem Tried.cons {k : Nat} {decisions : List (RouteDecision F)} {d : RouteDecision F}
    {a : ForwardAttempt} {attempts : List ForwardAttempt}
    {lastErr lastErr' : Option HierKvGatewayError}
    {result : Except HierKvGatewayError (List InferenceChunk × RouteDecision F)}
    (h : env.Tried inference (k + 1) decisions lastErr' attempts result)
    (htells : env.Tells inference k d a) (hfail : a.success = false)
    (herr : lastErr'.map (·.display) = a.error.or (lastErr.map (·.display))) :
    env.Tried inference k (d :: decisions) lastErr (a :: attempts) result := by
  constructor
  case tells =>
    intro i b hb
    cases i with
    | zero =>
      rcases Option.some.inj hb with rfl
      exact ⟨d, rfl, htells⟩
    | succ i =>
      rcases h.tells i b hb with ⟨d', hd', htells'⟩
      rw [Nat.add_right_comm] at htells'
      exact ⟨d', hd', htells'⟩
  case last =>
    intro b hb
    cases attempts with
    | nil => exact absurd hb List.not_mem_nil
    | cons c attempts =>
      rw [List.dropLast_cons_cons, List.mem_cons] at hb
      rcases hb with rfl | hb
      · exact hfail
      · exact h.last b hb
  case served =>
    intro chunks d' hok
    rcases h.served chunks d' hok with ⟨hd, hsends, b, hb, hsuccess⟩
    cases attempts with
    | nil => exact absurd hb.symm (Option.some_ne_none b)
    | cons c attempts =>
      refine ⟨hd, ?_, b, ?_, hsuccess⟩
      · rw [Nat.add_right_comm] at hsends
        exact hsends
      · rw [List.getLast?_cons_cons]
        exact hb
  case failed =>
    intro e herror
    rcases h.failed e herror with ⟨hlen, hall, htext⟩
    refine ⟨?_, ?_, ?_⟩
    · rw [List.length_cons, List.length_cons, hlen]
    · intro b hb
      rcases List.mem_cons.1 hb with rfl | hb
      · exact hfail
      · exact hall b hb
    · rw [htext, lastErrorText_cons, herr, Option.or_assoc]

variable (env inference)

/-- A candidate that is considered adds one attempt, which tells what became of it. -/
theorem tryCandidate_attempt (k : Nat) (d : RouteDecision F) (st : ForwardState σ) :
    ∃ result st' a, env.tryCandidate inference promptBlocks k d st = (result, st') ∧
      st'.attempts = st.attempts ++ [a] ∧ env.Tells inference k d a ∧
      (result = none ∧ a.success = false ∧ a.error = none ∨
        (∃ err, result = some (.error err) ∧ a.success = false ∧ a.error = some err.display) ∨
        ∃ chunks, result = some (.ok chunks) ∧ a.success = true ∧
          env.Sends inference k d chunks) := by
  unfold tryCandidate
  rcases st.breakers.allow (env.consideredAt k) d.backend with ⟨_ | _, breakers⟩
  · exact ⟨_, _, _, rfl, rfl, .skipped, Or.inl ⟨rfl, rfl, rfl⟩⟩
  · dsimp only
    rcases hconnector : env.connectors d.backend with _ | forward
    · exact ⟨_, _, _, rfl, rfl, .unconnected hconnector, Or.inr (Or.inl ⟨_, rfl, rfl, rfl⟩)⟩
    · dsimp only
      rcases hforward : forward k d.backend inference with err | chunks
      · exact ⟨_, _, _, rfl, rfl, .failed forward err hconnector hforward,
          Or.inr (Or.inl ⟨_, rfl, rfl, rfl⟩)⟩
      · have hsends : env.Sends inference k d chunks := ⟨forward, hconnector, hforward⟩
        exact ⟨_, _, _, rfl, rfl, .served chunks hsends, Or.inr (Or.inr ⟨_, rfl, rfl, hsends⟩)⟩

/-- The attempts of the loop over some candidates. -/
theorem tried_forwardLoop (decisions : List (RouteDecision F)) (k : Nat)
    (lastErr : Option HierKvGatewayError) (st : ForwardState σ) :
    ∃ attempts, (env.forwardLoop inference promptBlocks k lastErr decisions st).2.attempts =
        st.attempts ++ attempts ∧
      env.Tried inference k decisions lastErr attempts
        (env.forwardLoop inference promptBlocks k lastErr decisions st).1 := by
  induction decisions generalizing k lastErr st with
  | nil =>
    refine ⟨[], (List.append_nil _).symm, ?_, fun _ h => absurd h List.not_mem_nil, ?_, ?_⟩
    · intro i a ha
      exact absurd (List.mem_of_getElem? ha) List.not_mem_nil
    · intro chunks d h
      cases h
    · intro e he
      rw [← Except.error.inj he]
      refine ⟨rfl, fun _ h => absurd h List.not_mem_nil, ?_⟩
      cases lastErr with
      | none => rfl
      | some err => rfl
  | cons d decisions ih =>
    rcases env.tryCandidate_attempt inference promptBlocks k d st with
      ⟨result, st', a, htry, hattempts, htells, hcase⟩
    unfold forwardLoop
    rw [htry]
    rcases hcase with ⟨rfl, hfail, herr⟩ | ⟨err, rfl, hfail, herr⟩ | ⟨chunks, rfl, hok, hsends⟩
    · -- skipped: the last error stays
      rcases ih (k + 1) lastErr st' with ⟨attempts, happend, htried⟩
      refine ⟨a :: attempts, ?_, htried.cons htells hfail ?_⟩
      · rw [happend, hattempts, List.append_assoc]
        rfl
      · rw [herr, Option.none_or]
    · rcases ih (k + 1) (some err) st' with ⟨attempts, happend, htried⟩
      refine ⟨a :: attempts, ?_, htried.cons htells hfail ?_⟩
      · rw [happend, hattempts, List.append_assoc]
        rfl
      · rw [herr, Option.map_some, Option.some_or]
    · refine ⟨[a], hattempts, ?_, ?_, ?_, ?_⟩
      · intro i b hb
        cases i with
        | zero =>
          rcases Option.some.inj hb with rfl
          exact ⟨d, rfl, htells⟩
        | succ i => cases hb
      · exact fun b hb => absurd hb List.not_mem_nil
      · intro chunks' d' heq
        rcases Prod.mk.inj (Except.ok.inj heq) with ⟨rfl, rfl⟩
        exact ⟨rfl, hsends, a, rfl, hok⟩
      · intro err heq
        cases heq

end ForwardEnv

/-! ## The handlers, with their events -/

/-- A request that is forwarded by the loop, with what its event says beside. -/
structure Observed (F σ : Type) extends Encounter F where
  env : ForwardEnv F σ
  breakers : CircuitBreakerRegistry
  inner : σ
  telemetry : TelemetryContext F
  forwarded : ∀ decisions inference promptBlocks,
    forwardWithRetries decisions inference promptBlocks =
      (env.forwardWithRetries decisions inference (BitVec.ofNat 32 promptBlocks)
        ⟨breakers, inner, []⟩).1

namespace Observed

variable {F σ : Type} (w : Observed F σ)

/-- The attempts to forward. -/
def attempts (decisions : List (RouteDecision F)) (inference : InferenceRequest F)
    (promptBlocks : Nat) : List ForwardAttempt :=
  (w.env.forwardWithRetries decisions inference (BitVec.ofNat 32 promptBlocks)
    ⟨w.breakers, w.inner, []⟩).2.attempts

/-- Inputs for the event of a request. -/
def params (req : OpenAIChatRequest F) (promptBlocks : Nat) (decisions : List (RouteDecision F))
    (attempts : List ForwardAttempt) (selected : Option RoutingMeta) (outcome : DecisionOutcome) :
    DecisionEventParams F where
  context := w.telemetry
  requestId := w.requestId
  model := req.model
  sessionId := req.session.map SessionId.mk
  decisions := decisions
  attempts := attempts
  selected := selected
  promptBlocks := BitVec.ofNat 32 promptBlocks
  outcome := outcome

variable [Floating F]

/-- `chat_completions` for a request that is not coalesced, with the events it emits. -/
def directWithEvents (req : OpenAIChatRequest F) : Response × List (DecisionEvent F) :=
  let inference := req.toInferenceRequest w.requestId
  let ctx := w.routingContext req inference
  let promptBlocks := ctx.blockHashes.length
  match w.routeCandidates ctx w.maxAttempts with
  | .error e =>
    (errorResponse 503 e, [(w.params req promptBlocks [] [] none .routingFailed).event])
  | .ok decisions =>
    if decisions = [] then
      (errorResponse 503 .backendUnavailable,
        [(w.params req promptBlocks [] [] none .routingFailed).event])
    else
      let attempts := w.attempts decisions inference promptBlocks
      match w.forwardWithRetries decisions inference promptBlocks with
      | .ok (chunks, routingMeta) =>
        (if req.stream then w.buildSseResponse chunks inference.requestId req.model routingMeta
          else w.buildNonStreamResponse chunks inference.requestId req.model routingMeta inference,
          [(w.params req promptBlocks decisions attempts (some routingMeta) .success).event])
      | .error e =>
        (errorResponse 502 e,
          [(w.params req promptBlocks decisions attempts none .allCandidatesFailed).event])

/-- `run_coalesced_forward`, with the events it emits. -/
def leaderWithEvents (req : OpenAIChatRequest F) :
    Except CoalesceError CoalescedResponse × List (DecisionEvent F) :=
  let inference := req.toInferenceRequest w.requestId
  let ctx := w.routingContext req inference
  let promptBlocks := ctx.blockHashes.length
  match w.routeCandidates ctx w.maxAttempts with
  | .error e =>
    (.error ⟨e.display⟩, [(w.params req promptBlocks [] [] none .routingFailed).event])
  | .ok decisions =>
    if decisions = [] then
      (.error ⟨HierKvGatewayError.backendUnavailable.display⟩,
        [(w.params req promptBlocks [] [] none .routingFailed).event])
    else
      let attempts := w.attempts decisions inference promptBlocks
      match w.forwardWithRetries decisions inference promptBlocks with
      | .ok (chunks, routingMeta) =>
        let event := (w.params req promptBlocks decisions attempts (some routingMeta) .success).event
        -- the event is out before the answer is put together
        match aggregateChunkStream (w.clock 0) chunks inference.requestId.str req.model inference with
        | .ok resp =>
          (.ok ⟨200, resp, routingMeta.backend, routingMeta.strategy, routingMeta.kvOverlap⟩, [event])
        | .error (_, message) =>
          (.error ⟨(HierKvGatewayError.connectorError ("backend error: " ++ message)).display⟩,
            [event])
      | .error e =>
        (.error ⟨e.display⟩,
          [(w.params req promptBlocks decisions attempts none .allCandidatesFailed).event])

/-- Without its events, the handler is `chat_completions`. -/
theorem directWithEvents_fst (req : OpenAIChatRequest F) :
    (w.directWithEvents req).1 = w.directChatCompletions req := by
  unfold directWithEvents Encounter.directChatCompletions
  dsimp only
  rcases w.routeCandidates _ w.maxAttempts with err | decisions
  · rfl
  · by_cases hnil : decisions = []
    · simp only [if_pos hnil]
    · simp only [if_neg hnil]
      rcases w.forwardWithRetries decisions _ _ with err | ⟨chunks, m⟩
      · rfl
      · rfl

/-- Likewise the leader of coalesced calls. -/
theorem leaderWithEvents_fst (req : OpenAIChatRequest F) :
    (w.leaderWithEvents req).1 = w.runCoalescedForward req := by
  unfold leaderWithEvents Encounter.runCoalescedForward
  dsimp only
  rcases w.routeCandidates _ w.maxAttempts with err | decisions
  · rfl
  · by_cases hnil : decisions = []
    · simp only [if_pos hnil]
    · simp only [if_neg hnil]
      rcases w.forwardWithRetries decisions _ _ with err | ⟨chunks, m⟩
      · rfl
      · dsimp only
        rcases aggregateChunkStream (w.clock 0) chunks _ req.model _ with ⟨code, message⟩ | resp
        · rfl
        · rfl

/-- What routing answers a request. -/
def routed (req : OpenAIChatRequest F) : Except HierKvGatewayError (List (RouteDecision F)) :=
  w.routeCandidates (w.routingContext req (req.toInferenceRequest w.requestId)) w.maxAttempts

/-- The candidates that routing finds. -/
def decided (req : OpenAIChatRequest F) : List (RouteDecision F) := (w.routed req).toOption.getD []

/-- The answer made of what a backend sends. -/
def direct (req : OpenAIChatRequest F) (chunks : List InferenceChunk) (m : RoutingMeta) :
    Response :=
  if req.stream then w.buildSseResponse chunks w.requestId req.model m
  else w.buildNonStreamResponse chunks w.requestId req.model m (req.toInferenceRequest w.requestId)

/-- What the leader of coalesced calls makes of it. -/
def shared (req : OpenAIChatRequest F) (chunks : List InferenceChunk) (m : RoutingMeta) :
    Except CoalesceError CoalescedResponse :=
  match aggregateChunkStream (w.clock 0) chunks w.requestId.str req.model
    (req.toInferenceRequest w.requestId) with
  | .ok resp => .ok ⟨200, resp, m.backend, m.strategy, m.kvOverlap⟩
  | .error (_, message) =>
    .error ⟨(HierKvGatewayError.connectorError ("backend error: " ++ message)).display⟩

/-- What an event says of a request, and how that is answered: directly, and to the calls that
share it. -/
structure Faithful (req : OpenAIChatRequest F) (e : DecisionEvent F) (r : Response)
    (coalesced : Except CoalesceError CoalescedResponse) : Prop where
  request : e.requestId = w.requestId.str ∧ e.model = req.model ∧ e.sessionId = req.session
  candidates : e.candidates = (w.decided req).map DecisionEventParams.candidate
  /-- The candidates are tried in order, and each attempt tells what became of it. -/
  attempts : ∀ (i : Nat) a, e.attempts[i]? = some a → ∃ d, (w.decided req)[i]? = some d ∧
    w.env.Tells (req.toInferenceRequest w.requestId) i d a
  last : ∀ a ∈ e.attempts.dropLast, a.success = false
  /-- Routing found no candidate, or failed. -/
  routingFailed : e.outcome = .routingFailed → e.attempts = [] ∧ e.selectedBackend = none ∧
    ∃ err, (w.routed req = .error err ∨ w.routed req = .ok [] ∧ err = .backendUnavailable) ∧
      r = errorResponse 503 err ∧ coalesced = .error ⟨err.display⟩
  /-- The backend of the last attempt serves, and the answer is made of what it sends. -/
  success : e.outcome = .success → ∃ a d chunks,
    e.attempts.getLast? = some a ∧ a.success = true ∧
      (w.decided req)[e.attempts.length - 1]? = some d ∧
      w.env.Sends (req.toInferenceRequest w.requestId) (e.attempts.length - 1) d chunks ∧
      e.selectedBackend = some d.backend.display ∧ e.kvOverlap = d.kvOverlap ∧
      r = w.direct req chunks (.fromDecision d) ∧
      coalesced = w.shared req chunks (.fromDecision d)
  /-- Every candidate was tried, and the client is told the last error. -/
  allFailed : e.outcome = .allCandidatesFailed → w.decided req ≠ [] ∧
    e.attempts.length = (w.decided req).length ∧ (∀ a ∈ e.attempts, a.success = false) ∧
      e.selectedBackend = none ∧
      ∃ err : HierKvGatewayError, err.display =
        (lastErrorText e.attempts).getD HierKvGatewayError.backendUnavailable.display ∧
        r = errorResponse 502 err ∧ coalesced = .error ⟨err.display⟩

omit [Floating F] in
/-- The attempts on the decided candidates, with the result of the loop. -/
theorem tried_attempts (decisions : List (RouteDecision F)) (inference : InferenceRequest F)
    (promptBlocks : Nat) :
    ∃ result, w.forwardWithRetries decisions inference promptBlocks =
        result.map (fun (chunks, d) => (chunks, RoutingMeta.fromDecision d)) ∧
      w.env.Tried inference 0 decisions none (w.attempts decisions inference promptBlocks)
        result := by
  rcases w.env.tried_forwardLoop inference (BitVec.ofNat 32 promptBlocks) decisions 0 none
    ⟨w.breakers, w.inner, []⟩ with ⟨attempts, happend, htried⟩
  refine ⟨_, w.forwarded decisions inference promptBlocks, ?_⟩
  have hattempts : w.attempts decisions inference promptBlocks = attempts := happend
  rw [hattempts]
  exact htried

variable {w} {req : OpenAIChatRequest F}

theorem request_event (promptBlocks : Nat) (decisions : List (RouteDecision F))
    (attempts : List ForwardAttempt) (selected : Option RoutingMeta) (outcome : DecisionOutcome) :
    let e := (w.params req promptBlocks decisions attempts selected outcome).event
    e.requestId = w.requestId.str ∧ e.model = req.model ∧ e.sessionId = req.session := by
  refine ⟨rfl, rfl, ?_⟩
  show (req.session.map SessionId.mk).map (·.str) = req.session
  rw [Option.map_map]
  exact Option.map_id'

theorem faithful_routingFailed {err : HierKvGatewayError}
    (hrouted : w.routed req = .error err ∨ w.routed req = .ok [] ∧ err = .backendUnavailable)
    (promptBlocks : Nat) :
    w.Faithful req (w.params req promptBlocks [] [] none .routingFailed).event
      (errorResponse 503 err) (.error ⟨err.display⟩) where
  request := request_event promptBlocks [] [] none .routingFailed
  candidates := by
    unfold decided
    rcases hrouted with h | ⟨h, -⟩
    · rw [h]
      rfl
    · rw [h]
      rfl
  attempts := nofun
  last := nofun
  routingFailed _ := ⟨rfl, rfl, err, hrouted, rfl, rfl⟩
  success := nofun
  allFailed := nofun

theorem faithful_success {decisions : List (RouteDecision F)} {attempts : List ForwardAttempt}
    {chunks : List InferenceChunk} {d : RouteDecision F} (hdecided : w.decided req = decisions)
    (h : w.env.Tried (req.toInferenceRequest w.requestId) 0 decisions none attempts
      (.ok (chunks, d))) (promptBlocks : Nat) :
    w.Faithful req
      (w.params req promptBlocks decisions attempts (some (.fromDecision d)) .success).event
      (w.direct req chunks (.fromDecision d)) (w.shared req chunks (.fromDecision d)) where
  request := request_event promptBlocks decisions attempts _ .success
  candidates := by
    rw [hdecided]
    rfl
  attempts i a ha := by
    have htells := h.tells i a ha
    rw [Nat.zero_add] at htells
    rw [hdecided]
    exact htells
  last := h.last
  routingFailed := nofun
  success _ := by
    rcases h.served chunks d rfl with ⟨hd, hsends, a, ha, hsuccess⟩
    rw [Nat.zero_add] at hsends
    rw [hdecided]
    exact ⟨a, d, chunks, ha, hsuccess, hd, hsends, rfl, rfl, rfl, rfl⟩
  allFailed := nofun

theorem faithful_allFailed {decisions : List (RouteDecision F)} {attempts : List ForwardAttempt}
    {err : HierKvGatewayError} (hdecided : w.decided req = decisions) (hne : decisions ≠ [])
    (h : w.env.Tried (req.toInferenceRequest w.requestId) 0 decisions none attempts (.error err))
    (promptBlocks : Nat) :
    w.Faithful req
      (w.params req promptBlocks decisions attempts none .allCandidatesFailed).event
      (errorResponse 502 err) (.error ⟨err.display⟩) where
  request := request_event promptBlocks decisions attempts none .allCandidatesFailed
  candidates := by
    rw [hdecided]
    rfl
  attempts i a ha := by
    have htells := h.tells i a ha
    rw [Nat.zero_add] at htells
    rw [hdecided]
    exact htells
  last := h.last
  routingFailed := nofun
  success := nofun
  allFailed _ := by
    rcases h.failed err rfl with ⟨hlen, hall, htext⟩
    rw [Option.map_none, Option.or_none] at htext
    rw [hdecided]
    exact ⟨hne, hlen, hall, rfl, err, htext, rfl, rfl⟩

end Observed

end HierKvGateway
