import HierKvGateway.Api.Handlers
import HierKvGateway.Connector.CircuitBreaker

/-!
# Api.Forward — forwarding with retries

A request is forwarded to the decided backends in order, until one answers
(`forward_with_retries`). A candidate with an open circuit is skipped, and so is one without a
connector. The sleeps between attempts only let time pass: each candidate has instants of its own.
-/

namespace HierKvGateway

/-- A candidate that was considered. -/
structure ForwardAttempt where
  backend : String
  success : Bool
  skippedOpenCircuit : Bool
  error : Option String
deriving DecidableEq, Repr

/-- What a connector answers the `k`-th candidate of a request. -/
abbrev Connector (F : Type) :=
  Nat → BackendId → InferenceRequest F → Except HierKvGatewayError (List InferenceChunk)

/-- The weight controller, as it is fed; its state is part of `σ`. -/
structure AdaptiveController (σ : Type) where
  recordSuccess : BackendId → Duration → σ → σ
  recordFailure : BackendId → σ → σ
  recordKvOverlap : BitVec 32 → BitVec 32 → σ → σ

/-- What a request meets while it is forwarded. -/
structure ForwardEnv (F σ : Type) where
  connectors : BackendId → Option (Connector F)
  adaptive : Option (AdaptiveController σ)
  /-- When the `k`-th candidate is considered. -/
  consideredAt : Nat → Nat
  /-- When the `k`-th candidate has answered. -/
  answeredAt : Nat → Nat
  /-- How long the answer of the `k`-th candidate took. -/
  elapsed : Nat → Duration

/-- What forwarding changes. -/
structure ForwardState (σ : Type) where
  breakers : CircuitBreakerRegistry
  inner : σ
  attempts : List ForwardAttempt

namespace ForwardEnv

variable {F σ : Type} (env : ForwardEnv F σ)

/-- Feed the controller a success. -/
def feedSuccess (k : Nat) (d : RouteDecision F) (promptBlocks : BitVec 32) (s : σ) : σ :=
  match env.adaptive with
  | some ctl =>
    ctl.recordKvOverlap d.kvOverlap promptBlocks (ctl.recordSuccess d.backend (env.elapsed k) s)
  | none => s

/-- Feed the controller a failure. -/
def feedFailure (d : RouteDecision F) (s : σ) : σ :=
  match env.adaptive with
  | some ctl => ctl.recordFailure d.backend s
  | none => s

/-- Consider the `k`-th candidate: skip it, or attempt the forward. -/
def tryCandidate (inference : InferenceRequest F) (promptBlocks : BitVec 32) (k : Nat)
    (d : RouteDecision F) (st : ForwardState σ) :
    Option (Except HierKvGatewayError (List InferenceChunk)) × ForwardState σ :=
  match st.breakers.allow (env.consideredAt k) d.backend with
  | (false, breakers) =>
    (none, ⟨breakers, st.inner, st.attempts ++ [⟨d.backend.display, false, true, none⟩]⟩)
  | (true, breakers) =>
    match env.connectors d.backend with
    | none =>
      -- the breaker is not told
      let err := .connectorError ("no connector for backend " ++ d.backend.display)
      (some (.error err), ⟨breakers, env.feedFailure d st.inner,
        st.attempts ++ [⟨d.backend.display, false, false, some err.display⟩]⟩)
    | some forward =>
      match forward k d.backend inference with
      | .ok chunks =>
        (some (.ok chunks), ⟨breakers.onSuccess (env.answeredAt k) d.backend,
          env.feedSuccess k d promptBlocks st.inner,
          st.attempts ++ [⟨d.backend.display, true, false, none⟩]⟩)
      | .error err =>
        (some (.error err), ⟨breakers.onFailure (env.answeredAt k) d.backend,
          env.feedFailure d st.inner,
          st.attempts ++ [⟨d.backend.display, false, false, some err.display⟩]⟩)

/-- The loop over the candidates, from the `k`-th on: the chunks of the first that answers, with
its decision, or the last error. -/
def forwardLoop (inference : InferenceRequest F) (promptBlocks : BitVec 32) :
    Nat → Option HierKvGatewayError → List (RouteDecision F) → ForwardState σ →
      Except HierKvGatewayError (List InferenceChunk × RouteDecision F) × ForwardState σ
  | _, lastErr, [], st => (.error (lastErr.getD .backendUnavailable), st)
  | k, lastErr, d :: decisions, st =>
    -- a candidate that is skipped leaves the last error as it is
    match env.tryCandidate inference promptBlocks k d st with
    | (none, st) => forwardLoop inference promptBlocks (k + 1) lastErr decisions st
    | (some (.error err), st) =>
      forwardLoop inference promptBlocks (k + 1) (some err) decisions st
    | (some (.ok chunks), st) => (.ok (chunks, d), st)

/-- `forward_with_retries`. -/
def forwardWithRetries (decisions : List (RouteDecision F)) (inference : InferenceRequest F)
    (promptBlocks : BitVec 32) (st : ForwardState σ) :
    Except HierKvGatewayError (List InferenceChunk × RoutingMeta) × ForwardState σ :=
  let (result, st) := env.forwardLoop inference promptBlocks 0 none decisions st
  (result.map fun (chunks, d) => (chunks, RoutingMeta.fromDecision d), st)

/-! ## Who answers -/

/-- As the `k`-th candidate, the backend is allowed, has a connector and answers. -/
def Answers (inference : InferenceRequest F) (breakers : CircuitBreakerRegistry) (k : Nat)
    (backend : BackendId) : Prop :=
  (breakers.allow (env.consideredAt k) backend).1 = true ∧
    ∃ forward, env.connectors backend = some forward ∧
      ∃ chunks, forward k backend inference = .ok chunks

variable {env} {inference : InferenceRequest F} {promptBlocks : BitVec 32} {k : Nat}
  {d : RouteDecision F} {st : ForwardState σ}

variable (env) in
/-- A candidate is answered exactly if it is allowed, has a connector and answers. -/
theorem tryCandidate_ok_iff (promptBlocks : BitVec 32) (st : ForwardState σ) :
    (∃ chunks st', env.tryCandidate inference promptBlocks k d st = (some (.ok chunks), st')) ↔
      env.Answers inference st.breakers k d.backend := by
  unfold tryCandidate Answers
  rcases st.breakers.allow (env.consideredAt k) d.backend with ⟨_ | _, breakers⟩
  · simp
  · rcases env.connectors d.backend with _ | forward
    · simp
    · rcases hforward : forward k d.backend inference with err | chunks
      · simp [hforward]
      · simp [hforward]

variable (env) in
/-- The loop stops at a candidate that answers. -/
theorem forwardLoop_of_answers (promptBlocks : BitVec 32) {breakers : CircuitBreakerRegistry}
    (inner : σ) (attempts : List ForwardAttempt) (h : env.Answers inference breakers k d.backend)
    (lastErr : Option HierKvGatewayError) (decisions : List (RouteDecision F)) :
    ∃ chunks st', env.forwardLoop inference promptBlocks k lastErr (d :: decisions)
      ⟨breakers, inner, attempts⟩ = (.ok (chunks, d), st') := by
  rcases (env.tryCandidate_ok_iff promptBlocks ⟨breakers, inner, attempts⟩).2 h with
    ⟨chunks, st', htry⟩
  refine ⟨chunks, st', ?_⟩
  unfold forwardLoop
  rw [htry]

end ForwardEnv

end HierKvGateway
