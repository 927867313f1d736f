import HierKvGateway.Api.Handlers

/-!
# Api.Coalesced — coalesced answers

With coalescing, a non-streaming request is answered through the coalescer: the caller that leads
routes, forwards and puts the answer together, and all callers make a response of the result.
Errors pass through as texts.

A lone caller never gets the response it would get without coalescing
(`Encounter.not_sameAnswer`), though the body of a good answer is the same
(`Encounter.coalesced_of_ok`).
-/

namespace HierKvGateway

/-- What the leader shares; the body is in JSON. -/
structure CoalescedResponse where
  status : BitVec 16
  body : OpenAIChatResponse
  backend : String
  strategy : String
  kvOverlap : BitVec 32
deriving DecidableEq, Repr

/-- `CoalesceError`. -/
structure CoalesceError where
  text : String
deriving DecidableEq, Repr

/-- `build_coalesced_response`; it sets no content type. -/
def buildCoalescedResponse (c : CoalescedResponse) : Response where
  status := (statusCode c.status).getD 500
  headers := (RoutingMeta.mk c.backend c.strategy c.kvOverlap).headers ++
    [("x-hier-kv-gateway-coalesced", "true")]
  body := .chat c.body

/-- The response to a caller that the coalescer gave a result. -/
def coalescedResponse : Except CoalesceError CoalescedResponse → Response
  | .ok c => buildCoalescedResponse c
  | .error e => errorResponse 502 (.connectorError e.text)

/-- The status, the error and the content type are the same. -/
def SameAnswer (r r' : Response) : Prop :=
  r.status = r'.status ∧ r.error = r'.error ∧ r.contentType = r'.contentType

namespace Encounter

variable {F : Type} (w : Encounter F)

/-- `run_coalesced_forward`: what the leader produces. -/
def runCoalescedForward (req : OpenAIChatRequest F) : Except CoalesceError CoalescedResponse :=
  let inference := req.toInferenceRequest w.requestId
  let ctx := w.routingContext req inference
  let promptBlocks := ctx.blockHashes.length
  match w.routeCandidates ctx w.maxAttempts with
  | .error e => .error ⟨e.display⟩
  | .ok decisions =>
    if decisions = [] then .error ⟨HierKvGatewayError.backendUnavailable.display⟩
    else
      match w.forwardWithRetries decisions inference promptBlocks with
      | .error e => .error ⟨e.display⟩
      | .ok (chunks, routingMeta) =>
        match aggregateChunkStream (w.clock 0) chunks inference.requestId.str req.model inference with
        | .ok resp =>
          .ok ⟨200, resp, routingMeta.backend, routingMeta.strategy, routingMeta.kvOverlap⟩
        | .error (_, message) =>
          .error ⟨(HierKvGatewayError.connectorError ("backend error: " ++ message)).display⟩

/-- `coalesced_chat_completions` for a lone caller: the result is its own. -/
def coalescedChatCompletions (req : OpenAIChatRequest F) : Response :=
  coalescedResponse (w.runCoalescedForward req)

/-- `chat_completions`. -/
def chatCompletions (coalescing : Bool) (req : OpenAIChatRequest F) : Response :=
  if !req.stream && coalescing then w.coalescedChatCompletions req
  else w.directChatCompletions req

/-- Without coalescing the request fails, and with it on the text of the error; or it is answered
in both ways. -/
theorem outcome_cases {req : OpenAIChatRequest F} (hstream : req.stream = false) :
    (∃ status e, w.directChatCompletions req = errorResponse status e ∧
      w.runCoalescedForward req = .error ⟨e.display⟩) ∨
    ∃ resp, ∃ m : RoutingMeta,
      w.directChatCompletions req =
        ⟨200, m.headers ++ [("content-type", "application/json")], .chat resp⟩ ∧
      w.runCoalescedForward req = .ok ⟨200, resp, m.backend, m.strategy, m.kvOverlap⟩ := by
  unfold directChatCompletions runCoalescedForward
  dsimp only
  rcases w.routeCandidates _ w.maxAttempts with e | decisions
  · exact Or.inl ⟨503, e, rfl, rfl⟩
  · by_cases hnil : decisions = []
    · simp only [if_pos hnil]
      exact Or.inl ⟨503, _, rfl, rfl⟩
    · simp only [if_neg hnil]
      rcases w.forwardWithRetries decisions _ _ with e | ⟨chunks, m⟩
      · exact Or.inl ⟨502, e, rfl, rfl⟩
      · simp only [hstream, Bool.false_eq_true, if_false]
        unfold buildNonStreamResponse
        rcases aggregateChunkStream (w.clock 0) chunks _ req.model _ with ⟨code, message⟩ | resp
        · exact Or.inl ⟨_, _, rfl, rfl⟩
        · exact Or.inr ⟨resp, m, rfl, rfl⟩

/-- The routing decision says nothing of the content type. -/
theorem lookup_headers (m : RoutingMeta) : m.headers.lookup "content-type" = none := by
  rw [List.lookup_eq_none_iff]
  intro p hp
  have hname (name : String) (value : Option String)
      (hp : p ∈ (value.map (name, ·)).toList) : p.1 = name := by
    obtain ⟨v, -, rfl⟩ := Option.map_eq_some_iff.1 (Option.mem_toList.1 hp)
    rfl
  unfold RoutingMeta.headers at hp
  rcases List.mem_append.1 hp with hp | hp
  · rcases List.mem_append.1 hp with hp | hp
    · rw [hname _ _ hp]
      decide
    · rw [hname _ _ hp]
      decide
  · rw [hname _ _ hp]
    decide

theorem contentType_append (m : RoutingMeta) (headers : List (String × String)) (status : Nat)
    (body : ResponseBody) :
    Response.contentType ⟨status, m.headers ++ headers, body⟩ = headers.lookup "content-type" := by
  unfold Response.contentType
  rw [List.lookup_append, lookup_headers]
  rfl

/-- A good answer keeps its status and its body, but not its content type. -/
theorem coalesced_of_ok {req : OpenAIChatRequest F} (hstream : req.stream = false)
    {c : CoalescedResponse} (h : w.runCoalescedForward req = .ok c) :
    (w.coalescedChatCompletions req).status = (w.directChatCompletions req).status ∧
      (w.coalescedChatCompletions req).body = (w.directChatCompletions req).body ∧
      (w.coalescedChatCompletions req).contentType = none ∧
      (w.directChatCompletions req).contentType = some "application/json" := by
  unfold coalescedChatCompletions
  rcases w.outcome_cases hstream with ⟨status, e, hdirect, hrun⟩ | ⟨resp, m, hdirect, hrun⟩
  · exact absurd (h.symm.trans hrun) nofun
  · rw [hrun, hdirect]
    exact ⟨rfl, rfl, contentType_append _ _ _ _, contentType_append _ _ _ _⟩

/-- The text of an error made of the text of an error is longer. -/
theorem display_connectorError_ne (e : HierKvGatewayError) :
    (HierKvGatewayError.connectorError e.display).display ≠ e.display := by
  intro heq
  have happend : "Connector error: " ++ e.display = e.display := heq
  have hlen := congrArg String.length happend
  rw [String.length_append] at hlen
  have hprefix : "Connector error: ".length = 17 := by decide
  omega

/-- A lone caller never gets the response that it would get without coalescing. -/
theorem not_sameAnswer {req : OpenAIChatRequest F} (hstream : req.stream = false) :
    ¬SameAnswer (w.coalescedChatCompletions req) (w.directChatCompletions req) := by
  rintro ⟨-, herror, hcontent⟩
  rcases hrun : w.runCoalescedForward req with e | c
  · rcases w.outcome_cases hstream with ⟨status, e', hdirect, hrun'⟩ | ⟨resp, m, -, hrun'⟩
    · unfold coalescedChatCompletions at herror
      rw [hrun', hdirect] at herror
      exact display_connectorError_ne e' (Prod.mk.inj (Option.some.inj herror)).2
    · exact absurd (hrun.symm.trans hrun') nofun
  · obtain ⟨-, -, hnone, hjson⟩ := w.coalesced_of_ok hstream hrun
    exact absurd (hnone.symm.trans (hcontent.trans hjson)).symm (Option.some_ne_none _)

/-- A request for a greeting. -/
def greeting : OpenAIChatRequest Nat :=
  ⟨"m", [⟨"user", "hello"⟩], 1024, 1, false, [], none, none, []⟩

/-- One backend, which answers with some chunks. -/
def answered (chunks : List InferenceChunk) : Encounter Nat where
  requestId := ⟨"r"⟩
  kvBlockSize := 16
  maxRetries := 3
  computeBlockHashes _ _ _ := []
  routeCandidates _ _ := .ok [⟨⟨⟨"r1"⟩, ⟨"a"⟩⟩, "hybrid", 0, []⟩]
  forwardWithRetries decisions _ _ :=
    match decisions with
    | [] => .error .backendUnavailable
    | d :: _ => .ok (chunks, .fromDecision d)
  clock _ := 0

/-- Not even where the backend answers without an error. -/
theorem not_sameAnswer_greeting :
    ¬SameAnswer ((answered [.delta "Hi" none]).coalescedChatCompletions greeting)
      ((answered [.delta "Hi" none]).directChatCompletions greeting) := by
  have hstream : greeting.stream = false := rfl
  exact not_sameAnswer _ hstream

/-- The backend answers 429: without coalescing this is the status, with it the status is 502, and
the message is wrapped once more. -/
theorem rate_limit_lost :
    (answered [.error 429 "slow down"]).directChatCompletions greeting =
        ⟨429, [("content-type", "application/json")],
          .error "Connector error: backend error: slow down" "connector_error"⟩ ∧
      (answered [.error 429 "slow down"]).coalescedChatCompletions greeting =
        ⟨502, [("content-type", "application/json")],
          .error "Connector error: Connector error: backend error: slow down" "connector_error"⟩ ∧
      ¬SameAnswer ((answered [.error 429 "slow down"]).coalescedChatCompletions greeting)
        ((answered [.error 429 "slow down"]).directChatCompletions greeting) := by
  refine ⟨by decide +kernel, by decide +kernel, ?_⟩
  rintro ⟨hstatus, -⟩
  exact absurd hstatus (by decide +kernel)

end Encounter

end HierKvGateway
