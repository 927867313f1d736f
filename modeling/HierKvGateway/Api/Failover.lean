import HierKvGateway.Api.Forward
import HierKvGateway.Lib.Program
import Mathlib.Data.List.Nodup

/-!
# Api.Failover — the calls of the forwarding loop

`forward_with_retries` again, as a program over what it calls: the circuit breakers, the connectors,
the weight controller and the clock of the backoff. Run in the surroundings of a request it is the
function of `Api.Forward` (`run_retryLoop`).

What happens to a candidate is its `Fate`. If the decided backends are pairwise different, the fates
are those in the breakers as the request finds them, and the calls, the attempts and the result are
those of the fates up to the first answer (`failover`).
-/

namespace HierKvGateway

/-- What the loop calls. -/
inductive ForwardCall (F : Type) where
  | allow (backend : BackendId)
  | onSuccess (backend : BackendId)
  | onFailure (backend : BackendId)
  | connector (backend : BackendId)
  | forward (connector : Connector F) (backend : BackendId) (inference : InferenceRequest F)
  | backoff (attempt : BitVec 32)
  | recordSuccess (backend : BackendId)
  | recordFailure (backend : BackendId)
  | recordKvOverlap (overlap promptBlocks : BitVec 32)

/-- What is answered. -/
def ForwardCall.Answer {F : Type} : ForwardCall F → Type
  | allow _ => Bool
  | onSuccess _ => Unit
  | onFailure _ => Unit
  | connector _ => Option (Connector F)
  | forward _ _ _ => Except HierKvGatewayError (List InferenceChunk)
  | backoff _ => Unit
  | recordSuccess _ => Unit
  | recordFailure _ => Unit
  | recordKvOverlap _ _ => Unit

/-- Everything around the loop. -/
def forwardInterface (F : Type) : Interface := ⟨ForwardCall F, ForwardCall.Answer⟩

/-- A program of the loop. -/
abbrev ForwardProgram (F α : Type) := Program (forwardInterface F) α

namespace ForwardProgram

variable {F σ : Type}

/-! ## The calls -/

def allow (backend : BackendId) : ForwardProgram F Bool :=
  Program.perform (I := forwardInterface F) (.allow backend)

def onSuccess (backend : BackendId) : ForwardProgram F Unit :=
  Program.perform (I := forwardInterface F) (.onSuccess backend)

def onFailure (backend : BackendId) : ForwardProgram F Unit :=
  Program.perform (I := forwardInterface F) (.onFailure backend)

def connector (backend : BackendId) : ForwardProgram F (Option (Connector F)) :=
  Program.perform (I := forwardInterface F) (.connector backend)

def forward (connector : Connector F) (backend : BackendId) (inference : InferenceRequest F) :
    ForwardProgram F (Except HierKvGatewayError (List InferenceChunk)) :=
  Program.perform (I := forwardInterface F) (.forward connector backend inference)

def backoff (attempt : BitVec 32) : ForwardProgram F Unit :=
  Program.perform (I := forwardInterface F) (.backoff attempt)

def recordSuccess (backend : BackendId) : ForwardProgram F Unit :=
  Program.perform (I := forwardInterface F) (.recordSuccess backend)

def recordFailure (backend : BackendId) : ForwardProgram F Unit :=
  Program.perform (I := forwardInterface F) (.recordFailure backend)

def recordKvOverlap (overlap promptBlocks : BitVec 32) : ForwardProgram F Unit :=
  Program.perform (I := forwardInterface F) (.recordKvOverlap overlap promptBlocks)

/-! ## The loop -/

/-- Sleep, unless nothing has failed yet. -/
def backoffAfter (failures : BitVec 32) : ForwardProgram F Unit :=
  if 0 < failures.toNat then backoff (failures - 1) else pure ()

/-- Tell the controller of a success, if there is one. -/
def feedSuccess (adaptive : Bool) (d : RouteDecision F) (promptBlocks : BitVec 32) :
    ForwardProgram F Unit :=
  if adaptive then do
    recordSuccess d.backend
    recordKvOverlap d.kvOverlap promptBlocks
  else pure ()

/-- Tell the controller of a failure, if there is one. -/
def feedFailure (adaptive : Bool) (backend : BackendId) : ForwardProgram F Unit :=
  if adaptive then recordFailure backend else pure ()

/-- Attempt the forward, and tell the breaker and the controller. -/
def attemptForward (adaptive : Bool) (inference : InferenceRequest F) (promptBlocks : BitVec 32)
    (c : Connector F) (d : RouteDecision F) :
    ForwardProgram F (Except HierKvGatewayError (List InferenceChunk)) := do
  match ← forward c d.backend inference with
  | .ok chunks => do
    onSuccess d.backend
    feedSuccess adaptive d promptBlocks
    pure (.ok chunks)
  | .error err => do
    onFailure d.backend
    feedFailure adaptive d.backend
    pure (.error err)

/-- Consider a candidate, after so many failures: the result, if it is not skipped. -/
def considerCandidate (adaptive : Bool) (inference : InferenceRequest F) (promptBlocks : BitVec 32)
    (failures : BitVec 32) (d : RouteDecision F) :
    ForwardProgram F (Option (Except HierKvGatewayError (List InferenceChunk)) × ForwardAttempt) := do
  let allowed ← allow d.backend
  if !allowed then pure (none, ⟨d.backend.display, false, true, none⟩)
  else do
    backoffAfter failures
    match ← connector d.backend with
    | none => do
      let err := .connectorError ("no connector for backend " ++ d.backend.display)
      feedFailure adaptive d.backend
      pure (some (.error err), ⟨d.backend.display, false, false, some err.display⟩)
    | some c => do
      match ← attemptForward adaptive inference promptBlocks c d with
      | .ok chunks => pure (some (.ok chunks), ⟨d.backend.display, true, false, none⟩)
      | .error err =>
        pure (some (.error err), ⟨d.backend.display, false, false, some err.display⟩)

/-- The loop of `forward_with_retries`, with the failures, the last error and the attempts so
far. -/
def retryLoop (adaptive : Bool) (inference : InferenceRequest F) (promptBlocks : BitVec 32) :
    List (RouteDecision F) → BitVec 32 → Option HierKvGatewayError → List ForwardAttempt →
      ForwardProgram F
        (Except HierKvGatewayError (List InferenceChunk × RoutingMeta) × List ForwardAttempt)
  | [], _, lastErr, attempts => pure (.error (lastErr.getD .backendUnavailable), attempts)
  | d :: decisions, failures, lastErr, attempts => do
    match ← considerCandidate adaptive inference promptBlocks failures d with
    | (none, attempt) =>
      retryLoop adaptive inference promptBlocks decisions failures lastErr (attempts ++ [attempt])
    | (some (.error err), attempt) =>
      retryLoop adaptive inference promptBlocks decisions (failures + 1) (some err)
        (attempts ++ [attempt])
    | (some (.ok chunks), attempt) =>
      pure (.ok (chunks, .fromDecision d), attempts ++ [attempt])

end ForwardProgram

/-! ## The surroundings of a request -/

/-- The breakers, what the controller changes, and how many candidates have been considered. -/
structure Surroundings (σ : Type) where
  breakers : CircuitBreakerRegistry
  inner : σ
  considered : Nat

namespace ForwardEnv

open ForwardProgram

variable {F σ : Type} (env : ForwardEnv F σ)

/-- What the controller makes of its state, if there is one. -/
def control (f : AdaptiveController σ → σ → σ) (inner : σ) : σ :=
  match env.adaptive with
  | some ctl => f ctl inner
  | none => inner

/-- What is answered to the calls of a request. -/
def surroundings : Program.Environment (forwardInterface F) (Surroundings σ) where
  answer
    | .allow backend, s =>
      let (allowed, breakers) := s.breakers.allow (env.consideredAt s.considered) backend
      (allowed, ⟨breakers, s.inner, s.considered + 1⟩)
    | .onSuccess backend, s =>
      ((), { s with
        breakers := s.breakers.onSuccess (env.answeredAt (s.considered - 1)) backend })
    | .onFailure backend, s =>
      ((), { s with
        breakers := s.breakers.onFailure (env.answeredAt (s.considered - 1)) backend })
    | .connector backend, s => (env.connectors backend, s)
    | .forward connector backend inference, s =>
      (connector (s.considered - 1) backend inference, s)
    | .backoff _, s => ((), s)
    | .recordSuccess backend, s =>
      ((), { s with
        inner := env.control (·.recordSuccess backend (env.elapsed (s.considered - 1))) s.inner })
    | .recordFailure backend, s =>
      ((), { s with inner := env.control (·.recordFailure backend) s.inner })
    | .recordKvOverlap overlap promptBlocks, s =>
      ((), { s with inner := env.control (·.recordKvOverlap overlap promptBlocks) s.inner })

/-- The run of the loop. -/
def runLoop (inference : InferenceRequest F) (promptBlocks : BitVec 32)
    (decisions : List (RouteDecision F)) (failures : BitVec 32)
    (lastErr : Option HierKvGatewayError) (attempts : List ForwardAttempt) (s : Surroundings σ) :=
  (retryLoop env.adaptive.isSome inference promptBlocks decisions failures lastErr attempts).run
    env.surroundings s

end ForwardEnv

/-! ## The fate of a candidate -/

/-- What becomes of a candidate. -/
inductive Fate where
  | skipped
  | noConnector
  | failed (err : HierKvGatewayError)
  | answered (chunks : List InferenceChunk)
deriving DecidableEq, Repr

namespace Fate

/-- The candidate answers. -/
def answers : Fate → Bool
  | answered _ => true
  | _ => false

/-- The error the loop is left with. -/
def error (backend : BackendId) : Fate → Option HierKvGatewayError
  | noConnector => some (.connectorError ("no connector for backend " ++ backend.display))
  | failed err => some err
  | _ => none

/-- What `tryCandidate` results in. -/
def result (backend : BackendId) : Fate → Option (Except HierKvGatewayError (List InferenceChunk))
  | skipped => none
  | noConnector =>
    some (.error (.connectorError ("no connector for backend " ++ backend.display)))
  | failed err => some (.error err)
  | answered chunks => some (.ok chunks)

/-- The attempt that is noted down. -/
def attempt (backend : BackendId) (fate : Fate) : ForwardAttempt where
  backend := backend.display
  success := fate.answers
  skippedOpenCircuit := fate = skipped
  error := (fate.error backend).map HierKvGatewayError.display

theorem exists_of_answers {fate : Fate} (h : fate.answers = true) :
    ∃ chunks, fate = answered chunks := by
  cases fate with
  | skipped => exact absurd h Bool.false_ne_true
  | noConnector => exact absurd h Bool.false_ne_true
  | failed err => exact absurd h Bool.false_ne_true
  | answered chunks => exact ⟨chunks, rfl⟩

end Fate

/-- The calls that are about a candidate. -/
inductive CandidateCall where
  | allow
  | forward
  | onSuccess
  | onFailure
deriving DecidableEq, Repr

/-- A call that is about a candidate, with its backend. -/
def ForwardCall.toCandidate {F : Type} : ForwardCall F → Option (CandidateCall × BackendId)
  | allow backend => some (.allow, backend)
  | onSuccess backend => some (.onSuccess, backend)
  | onFailure backend => some (.onFailure, backend)
  | forward _ backend _ => some (.forward, backend)
  | connector _ => none
  | backoff _ => none
  | recordSuccess _ => none
  | recordFailure _ => none
  | recordKvOverlap _ _ => none

/-- The calls of a run that are about a candidate, in order. -/
def candidateCalls {F : Type} (events : List (Program.Event (forwardInterface F))) :
    List (CandidateCall × BackendId) :=
  events.filterMap fun e => e.1.toCandidate

/-- The calls a candidate gets. -/
def Fate.calls : Fate → List CandidateCall
  | skipped | noConnector => [.allow]
  | failed _ => [.allow, .forward, .onFailure]
  | answered _ => [.allow, .forward, .onSuccess]

namespace ForwardEnv

open ForwardProgram

variable {F σ : Type} (env : ForwardEnv F σ) (inference : InferenceRequest F)

/-- The fate of a backend as the `k`-th candidate. -/
def fate (breakers : CircuitBreakerRegistry) (k : Nat) (backend : BackendId) : Fate :=
  if (breakers.allow (env.consideredAt k) backend).1 then
    match env.connectors backend with
    | none => .noConnector
    | some forward =>
      match forward k backend inference with
      | .ok chunks => .answered chunks
      | .error err => .failed err
  else .skipped

@[simp] theorem candidateCalls_append (events events' : List (Program.Event (forwardInterface F))) :
    candidateCalls (events ++ events') = candidateCalls events ++ candidateCalls events' :=
  List.filterMap_append

variable {env} in
theorem control_some {ctl : AdaptiveController σ} (h : env.adaptive = some ctl)
    (f : AdaptiveController σ → σ → σ) (inner : σ) : env.control f inner = f ctl inner := by
  unfold control
  rw [h]

theorem run_backoffAfter (failures : BitVec 32) (s : Surroundings σ) :
    ∃ events, candidateCalls events = [] ∧
      (backoffAfter failures).run env.surroundings s = ⟨(), events, s⟩ := by
  unfold backoffAfter
  by_cases h : 0 < failures.toNat
  · rw [if_pos h]
    exact ⟨[⟨.backoff (failures - 1), ()⟩], rfl, rfl⟩
  · rw [if_neg h]
    exact ⟨[], rfl, rfl⟩

theorem run_feedSuccess (d : RouteDecision F) (promptBlocks : BitVec 32) (s : Surroundings σ) :
    ∃ events, candidateCalls events = [] ∧
      (ForwardProgram.feedSuccess env.adaptive.isSome d promptBlocks).run env.surroundings s =
        ⟨(), events, { s with
          inner := env.feedSuccess (s.considered - 1) d promptBlocks s.inner }⟩ := by
  unfold ForwardProgram.feedSuccess ForwardEnv.feedSuccess
  cases h : env.adaptive with
  | none => exact ⟨[], rfl, rfl⟩
  | some ctl =>
    refine ⟨[⟨.recordSuccess d.backend, ()⟩, ⟨.recordKvOverlap d.kvOverlap promptBlocks, ()⟩],
      rfl, ?_⟩
    show Program.Ended.mk () _ { s with
      inner := env.control (·.recordKvOverlap d.kvOverlap promptBlocks)
        (env.control (·.recordSuccess d.backend (env.elapsed (s.considered - 1))) s.inner) } = _
    rw [control_some h, control_some h]
    rfl

theorem run_feedFailure (d : RouteDecision F) (s : Surroundings σ) :
    ∃ events, candidateCalls events = [] ∧
      (ForwardProgram.feedFailure env.adaptive.isSome d.backend).run env.surroundings s =
        ⟨(), events, { s with inner := env.feedFailure d s.inner }⟩ := by
  unfold ForwardProgram.feedFailure ForwardEnv.feedFailure
  cases h : env.adaptive with
  | none => exact ⟨[], rfl, rfl⟩
  | some ctl =>
    refine ⟨[⟨.recordFailure d.backend, ()⟩], rfl, ?_⟩
    show Program.Ended.mk () _
      { s with inner := env.control (·.recordFailure d.backend) s.inner } = _
    rw [control_some h]
    rfl

/-- A forward is followed by the call that tells the breaker how it went. -/
theorem run_attemptForward (promptBlocks : BitVec 32) (c : Connector F) (d : RouteDecision F)
    (s : Surroundings σ) :
    ∃ events, match c (s.considered - 1) d.backend inference with
      | .ok chunks =>
        candidateCalls events = [(.forward, d.backend), (.onSuccess, d.backend)] ∧
        (attemptForward env.adaptive.isSome inference promptBlocks c d).run env.surroundings s =
          ⟨.ok chunks, events,
            ⟨s.breakers.onSuccess (env.answeredAt (s.considered - 1)) d.backend,
              env.feedSuccess (s.considered - 1) d promptBlocks s.inner, s.considered⟩⟩
      | .error err =>
        candidateCalls events = [(.forward, d.backend), (.onFailure, d.backend)] ∧
        (attemptForward env.adaptive.isSome inference promptBlocks c d).run env.surroundings s =
          ⟨.error err, events,
            ⟨s.breakers.onFailure (env.answeredAt (s.considered - 1)) d.backend,
              env.feedFailure d s.inner, s.considered⟩⟩ := by
  have hforward : (forward c d.backend inference).run env.surroundings s =
      ⟨c (s.considered - 1) d.backend inference,
        [⟨.forward c d.backend inference, c (s.considered - 1) d.backend inference⟩], s⟩ := rfl
  unfold attemptForward
  rw [Program.run_bind, hforward]
  dsimp only
  cases c (s.considered - 1) d.backend inference with
  | ok chunks =>
    -- the breaker hears of the success, then the weights do
    obtain ⟨events, hevents, hfeed⟩ := env.run_feedSuccess d promptBlocks
      { s with breakers := s.breakers.onSuccess (env.answeredAt (s.considered - 1)) d.backend }
    have hsuccess : (onSuccess d.backend : ForwardProgram F Unit).run env.surroundings s =
      ⟨(), [⟨.onSuccess d.backend, ()⟩], { s with
        breakers := s.breakers.onSuccess (env.answeredAt (s.considered - 1)) d.backend }⟩ := rfl
    refine ⟨⟨.forward c d.backend inference, .ok chunks⟩ :: ⟨.onSuccess d.backend, ()⟩ ::
      (events ++ []), ?_, ?_⟩
    · show _ :: _ :: candidateCalls (events ++ []) = _
      rw [List.append_nil, hevents]
    · dsimp only
      rw [Program.run_bind, hsuccess]
      dsimp only
      rw [Program.run_bind, hfeed]
      rfl
  | error err =>
    -- the breaker hears of the failure, then the weights do
    obtain ⟨events, hevents, hfeed⟩ := env.run_feedFailure d
      { s with breakers := s.breakers.onFailure (env.answeredAt (s.considered - 1)) d.backend }
    have hfailure : (onFailure d.backend : ForwardProgram F Unit).run env.surroundings s =
      ⟨(), [⟨.onFailure d.backend, ()⟩], { s with
        breakers := s.breakers.onFailure (env.answeredAt (s.considered - 1)) d.backend }⟩ := rfl
    refine ⟨⟨.forward c d.backend inference, .error err⟩ :: ⟨.onFailure d.backend, ()⟩ ::
      (events ++ []), ?_, ?_⟩
    · show _ :: _ :: candidateCalls (events ++ []) = _
      rw [List.append_nil, hevents]
    · dsimp only
      rw [Program.run_bind, hfailure]
      dsimp only
      rw [Program.run_bind, hfeed]
      rfl

/-- The calls about a candidate that is allowed. -/
theorem candidateCalls_considered {slept : List (Program.Event (forwardInterface F))}
    (h : candidateCalls slept = []) (backend : BackendId) (c : Option (Connector F))
    (events : List (Program.Event (forwardInterface F))) :
    candidateCalls (⟨.allow backend, true⟩ :: (slept ++ ⟨.connector backend, c⟩ ::
      (events ++ []))) = (.allow, backend) :: candidateCalls events := by
  show _ :: candidateCalls (slept ++ _) = _
  rw [candidateCalls_append, h]
  show _ :: candidateCalls (events ++ []) = _
  rw [List.append_nil]

/-- A candidate is considered as in `tryCandidate`, with the calls and the attempt of its fate. -/
theorem run_considerCandidate (promptBlocks failures : BitVec 32) (d : RouteDecision F)
    (s : Surroundings σ) (attempts : List ForwardAttempt) :
    ∃ events, candidateCalls events =
        (env.fate inference s.breakers s.considered d.backend).calls.map (·, d.backend) ∧
      (considerCandidate env.adaptive.isSome inference promptBlocks failures d).run
          env.surroundings s =
        let t := env.tryCandidate inference promptBlocks s.considered d
          ⟨s.breakers, s.inner, attempts⟩
        ⟨(t.1, (env.fate inference s.breakers s.considered d.backend).attempt d.backend), events,
          ⟨t.2.breakers, t.2.inner, s.considered + 1⟩⟩ := by
  have hallow : (allow d.backend).run env.surroundings s =
      let r := s.breakers.allow (env.consideredAt s.considered) d.backend
      ⟨r.1, [⟨.allow d.backend, r.1⟩], ⟨r.2, s.inner, s.considered + 1⟩⟩ := rfl
  unfold considerCandidate tryCandidate fate
  rw [Program.run_bind, hallow]
  dsimp only
  -- what the breaker answers, and the breakers after that
  generalize s.breakers.allow (env.consideredAt s.considered) d.backend = r
  obtain ⟨allowed, breakers⟩ := r
  cases allowed with
  -- skipped: no other call is made
  | false => exact ⟨[⟨.allow d.backend, false⟩], rfl, rfl⟩
  | true =>
    have hconnector : (connector d.backend).run env.surroundings
        ⟨breakers, s.inner, s.considered + 1⟩ =
        ⟨env.connectors d.backend, [⟨.connector d.backend, env.connectors d.backend⟩],
          ⟨breakers, s.inner, s.considered + 1⟩⟩ := rfl
    obtain ⟨slept, hslept, hbackoff⟩ := env.run_backoffAfter failures
      ⟨breakers, s.inner, s.considered + 1⟩
    dsimp only
    rw [Bool.not_true, if_neg Bool.false_ne_true, if_pos rfl, Program.run_bind, hbackoff]
    dsimp only
    rw [Program.run_bind, hconnector]
    dsimp only
    cases env.connectors d.backend with
    | none =>
      -- no connector: the weights hear of a failure, the breaker does not
      obtain ⟨events, hevents, hfeed⟩ := env.run_feedFailure d
        ⟨breakers, s.inner, s.considered + 1⟩
      refine ⟨_, (candidateCalls_considered hslept d.backend none events).trans ?_, ?_⟩
      · rw [hevents]
        rfl
      · dsimp only
        rw [Program.run_bind, hfeed]
        rfl
    | some c =>
      obtain ⟨events, hattempt⟩ := env.run_attemptForward inference promptBlocks c d
        ⟨breakers, s.inner, s.considered + 1⟩
      -- the attempt is the one of the candidate that has just been counted
      rw [Nat.add_sub_cancel] at hattempt
      dsimp only
      cases hanswer : c s.considered d.backend inference with
      | ok chunks =>
        rw [hanswer] at hattempt
        obtain ⟨hcalls, hrun⟩ := hattempt
        refine ⟨_, (candidateCalls_considered hslept d.backend (some c) events).trans ?_, ?_⟩
        · rw [hcalls]
          rfl
        · rw [Program.run_bind, hrun]
          rfl
      | error err =>
        rw [hanswer] at hattempt
        obtain ⟨hcalls, hrun⟩ := hattempt
        refine ⟨_, (candidateCalls_considered hslept d.backend (some c) events).trans ?_, ?_⟩
        · rw [hcalls]
          rfl
        · rw [Program.run_bind, hrun]
          rfl

/-- A candidate has its fate, and the breakers of the others stay as they are. -/
theorem tryCandidate_fate (promptBlocks : BitVec 32) (k : Nat) (d : RouteDecision F)
    (st : ForwardState σ) :
    let t := env.tryCandidate inference promptBlocks k d st
    t.1 = (env.fate inference st.breakers k d.backend).result d.backend ∧
      t.2.attempts =
        st.attempts ++ [(env.fate inference st.breakers k d.backend).attempt d.backend] ∧
      t.2.breakers.toBreakerLimits = st.breakers.toBreakerLimits ∧
      ∀ backend, backend ≠ d.backend →
        t.2.breakers.breaker backend = st.breakers.breaker backend := by
  have hother : ∀ backend, backend ≠ d.backend →
      (st.breakers.allow (env.consideredAt k) d.backend).2.breaker backend =
        st.breakers.breaker backend := fun _ => CircuitBreakerRegistry.breaker_call_of_ne
  have hlimits : (st.breakers.allow (env.consideredAt k) d.backend).2.toBreakerLimits =
      st.breakers.toBreakerLimits := rfl
  unfold tryCandidate fate
  generalize st.breakers.allow (env.consideredAt k) d.backend = r at hother hlimits ⊢
  obtain ⟨allowed, breakers⟩ := r
  cases allowed with
  | false => exact ⟨rfl, rfl, hlimits, hother⟩
  | true =>
    rw [if_pos rfl]
    cases env.connectors d.backend with
    | none => exact ⟨rfl, rfl, hlimits, hother⟩
    | some c =>
      dsimp only
      cases c k d.backend inference with
      | ok chunks =>
        refine ⟨rfl, rfl, hlimits, fun backend h => ?_⟩
        exact (CircuitBreakerRegistry.breaker_call_of_ne h).trans (hother backend h)
      | error err =>
        refine ⟨rfl, rfl, hlimits, fun backend h => ?_⟩
        exact (CircuitBreakerRegistry.breaker_call_of_ne h).trans (hother backend h)

/-- The fate of a backend depends on its own breaker only. -/
theorem fate_congr {r r' : CircuitBreakerRegistry} {backend : BackendId}
    (hlimits : r.toBreakerLimits = r'.toBreakerLimits)
    (hbreaker : r.breaker backend = r'.breaker backend) (k : Nat) :
    env.fate inference r k backend = env.fate inference r' k backend := by
  have hallow : (r.allow (env.consideredAt k) backend).1 =
      (r'.allow (env.consideredAt k) backend).1 := by
    show (r.toBreakerLimits.allow _ (r.breaker backend)).1 = _
    rw [hlimits, hbreaker]
    rfl
  unfold fate
  rw [hallow]

/-! ## The loop -/

section Loop

variable {env inference} (promptBlocks failures : BitVec 32) (lastErr : Option HierKvGatewayError)
variable {d : RouteDecision F} (decisions : List (RouteDecision F))
variable (attempts : List ForwardAttempt) {s : Surroundings σ}

/-- The loop goes on after a candidate that does not answer. -/
theorem runLoop_of_not_answers
    (h : (env.fate inference s.breakers s.considered d.backend).answers = false) :
    let fate := env.fate inference s.breakers s.considered d.backend
    let t := env.tryCandidate inference promptBlocks s.considered d
      ⟨s.breakers, s.inner, attempts⟩
    ∃ events failures', candidateCalls events = fate.calls.map (·, d.backend) ∧
      env.runLoop inference promptBlocks (d :: decisions) failures lastErr attempts s =
        let rest := env.runLoop inference promptBlocks decisions failures'
          ((fate.error d.backend).or lastErr) (attempts ++ [fate.attempt d.backend])
          ⟨t.2.breakers, t.2.inner, s.considered + 1⟩
        ⟨rest.result, events ++ rest.events, rest.state⟩ := by
  obtain ⟨events, hcalls, hrun⟩ := env.run_considerCandidate inference promptBlocks failures d s
    attempts
  have hresult := (env.tryCandidate_fate inference promptBlocks s.considered d
    ⟨s.breakers, s.inner, attempts⟩).1
  dsimp only at hrun hresult ⊢
  unfold runLoop
  rw [retryLoop, Program.run_bind, hrun, hresult]
  cases hfate : env.fate inference s.breakers s.considered d.backend with
  | skipped =>
    rw [hfate] at hcalls
    exact ⟨events, failures, hcalls, rfl⟩
  | noConnector =>
    rw [hfate] at hcalls
    exact ⟨events, failures + 1, hcalls, rfl⟩
  | failed err =>
    rw [hfate] at hcalls
    exact ⟨events, failures + 1, hcalls, rfl⟩
  | answered chunks =>
    rw [hfate] at h
    exact absurd h (by simp [Fate.answers])

/-- The loop ends at a candidate that answers. -/
theorem runLoop_of_answered {chunks : List InferenceChunk}
    (h : env.fate inference s.breakers s.considered d.backend = .answered chunks) :
    let t := env.tryCandidate inference promptBlocks s.considered d
      ⟨s.breakers, s.inner, attempts⟩
    ∃ events, candidateCalls events = (Fate.answered chunks).calls.map (·, d.backend) ∧
      env.runLoop inference promptBlocks (d :: decisions) failures lastErr attempts s =
        ⟨(.ok (chunks, .fromDecision d),
          attempts ++ [(Fate.answered chunks).attempt d.backend]), events,
          ⟨t.2.breakers, t.2.inner, s.considered + 1⟩⟩ := by
  obtain ⟨events, hcalls, hrun⟩ := env.run_considerCandidate inference promptBlocks failures d s
    attempts
  have hresult := (env.tryCandidate_fate inference promptBlocks s.considered d
    ⟨s.breakers, s.inner, attempts⟩).1
  rw [h] at hcalls hrun hresult
  dsimp only at hrun hresult ⊢
  refine ⟨events ++ [], ?_, ?_⟩
  · rw [List.append_nil, hcalls]
  · unfold runLoop
    rw [retryLoop, Program.run_bind, hrun, hresult]
    rfl

end Loop

/-! ## All candidates -/

/-- The fates of the candidates, the first of which is the `k`-th, in the breakers as they are. -/
def fates (breakers : CircuitBreakerRegistry) (k : Nat) (decisions : List (RouteDecision F)) :
    List (RouteDecision F × Fate) :=
  (decisions.zipIdx k).map fun p => (p.1, env.fate inference breakers p.2 p.1.backend)

end ForwardEnv

section Fates

variable {F : Type}

/-- The candidates up to the first that answers, with this one. -/
def considered (fates : List (RouteDecision F × Fate)) : List (RouteDecision F × Fate) :=
  fates.take (fates.findIdx (fun p => p.2.answers) + 1)

/-- The error of the last candidate that is not skipped. -/
def lastError (fates : List (RouteDecision F × Fate)) : Option HierKvGatewayError :=
  (fates.filterMap fun p => p.2.error p.1.backend).getLast?

/-- The calls about candidates with these fates. -/
def callsOfFates (fates : List (RouteDecision F × Fate)) : List (CandidateCall × BackendId) :=
  fates.flatMap fun p => p.2.calls.map (·, p.1.backend)

variable {p : RouteDecision F × Fate} {fates : List (RouteDecision F × Fate)}

theorem considered_cons_of_answers (h : p.2.answers = true) : considered (p :: fates) = [p] := by
  unfold considered
  rw [List.findIdx_cons, h, cond_true]
  rfl

theorem considered_cons_of_not (h : p.2.answers = false) :
    considered (p :: fates) = p :: considered fates := by
  unfold considered
  rw [List.findIdx_cons, h, cond_false, List.take_succ_cons]

/-- Only the last one that is considered may answer. -/
theorem not_answers_of_mem_dropLast (h : p ∈ (considered fates).dropLast) :
    p.2.answers = false := by
  induction fates with
  | nil => exact absurd h List.not_mem_nil
  | cons q fates ih =>
    cases hq : q.2.answers with
    | true =>
      rw [considered_cons_of_answers hq] at h
      exact absurd h List.not_mem_nil
    | false =>
      rw [considered_cons_of_not hq] at h
      cases hrest : considered fates with
      | nil =>
        rw [hrest] at h
        exact absurd h List.not_mem_nil
      | cons r rest =>
        rw [hrest, List.dropLast_cons_cons] at h
        rcases List.mem_cons.1 h with rfl | h
        · exact hq
        · exact ih (hrest ▸ h)

theorem lastError_cons (p : RouteDecision F × Fate) (fates : List (RouteDecision F × Fate)) :
    lastError (p :: fates) = (lastError fates).or (p.2.error p.1.backend) := by
  unfold lastError
  cases herr : p.2.error p.1.backend with
  | none =>
    rw [List.filterMap_cons, herr, Option.or_none]
  | some err =>
    rw [List.filterMap_cons, herr]
    dsimp only
    rw [List.getLast?_cons]
    cases (fates.filterMap fun p => p.2.error p.1.backend).getLast? with
    | none => rfl
    | some err' => rfl

theorem error_eq_none_iff {fate : Fate} (backend : BackendId) (h : fate.answers = false) :
    fate.error backend = none ↔ fate = .skipped := by
  cases fate with
  | skipped => exact iff_of_true rfl rfl
  | noConnector => simp [Fate.error]
  | failed err => simp [Fate.error]
  | answered chunks => simp [Fate.answers] at h

/-- There is no error to return exactly if all candidates are skipped. -/
theorem lastError_eq_none_iff (h : ∀ p ∈ fates, p.2.answers = false) :
    lastError fates = none ↔ ∀ p ∈ fates, p.2 = .skipped := by
  unfold lastError
  rw [List.getLast?_eq_none_iff, List.filterMap_eq_nil_iff]
  exact forall₂_congr fun p hp => error_eq_none_iff p.1.backend (h p hp)

/-- A backend is not forwarded to more often than it is a candidate. -/
theorem count_forward_le (backend : BackendId) (fates : List (RouteDecision F × Fate)) :
    (callsOfFates fates).count (.forward, backend) ≤
      (fates.map fun p => p.1.backend).count backend := by
  induction fates with
  | nil => exact le_rfl
  | cons p fates ih =>
    have hone : (p.2.calls.map (·, p.1.backend)).count (.forward, backend) ≤
        if p.1.backend = backend then 1 else 0 := by
      by_cases hb : p.1.backend = backend
      · rw [if_pos hb]
        cases p.2 <;> simp [Fate.calls, hb]
      · rw [if_neg hb]
        cases p.2 <;> simp [Fate.calls, hb]
    unfold callsOfFates at ih ⊢
    rw [List.flatMap_cons, List.count_append, List.map_cons, List.count_cons]
    simp only [beq_iff_eq]
    omega

end Fates

namespace ForwardEnv

variable {F σ : Type} {env : ForwardEnv F σ} {inference : InferenceRequest F}
variable {promptBlocks failures : BitVec 32} {lastErr : Option HierKvGatewayError}
variable {d : RouteDecision F} {decisions : List (RouteDecision F)}
variable {attempts : List ForwardAttempt} {breakers : CircuitBreakerRegistry}

theorem fates_cons (k : Nat) :
    env.fates inference breakers k (d :: decisions) =
      (d, env.fate inference breakers k d.backend) ::
        env.fates inference breakers (k + 1) decisions := by
  unfold fates
  rw [List.zipIdx_cons, List.map_cons]

theorem backends_fates (k : Nat) :
    (env.fates inference breakers k decisions).map (fun p => p.1.backend) =
      decisions.map (·.backend) := by
  induction decisions generalizing k with
  | nil => rfl
  | cons d decisions ih =>
    rw [fates_cons, List.map_cons, List.map_cons, ih]

/-- Calls for another backend do not change the fates. -/
theorem fates_congr {breakers' : CircuitBreakerRegistry}
    (hlimits : breakers'.toBreakerLimits = breakers.toBreakerLimits)
    (h : ∀ d ∈ decisions, breakers'.breaker d.backend = breakers.breaker d.backend) (k : Nat) :
    env.fates inference breakers' k decisions = env.fates inference breakers k decisions := by
  induction decisions generalizing k with
  | nil =>
    unfold fates
    rw [List.zipIdx_nil, List.map_nil, List.map_nil]
  | cons d decisions ih =>
    obtain ⟨hd, hdecisions⟩ := List.forall_mem_cons.1 h
    have hfate := env.fate_congr inference hlimits hd k
    have hrest := ih hdecisions (k + 1)
    rw [fates_cons, fates_cons, hrest, hfate]

/-- A run that does what the fates of the candidates say, after some attempts and an error. -/
structure Follows (fates : List (RouteDecision F × Fate)) (attempts : List ForwardAttempt)
    (lastErr : Option HierKvGatewayError)
    (run : Program.Ended (forwardInterface F)
      (Except HierKvGatewayError (List InferenceChunk × RoutingMeta) × List ForwardAttempt)
      (Surroundings σ)) : Prop where
  attempts : run.result.2 =
    attempts ++ (considered fates).map fun p => p.2.attempt p.1.backend
  calls : candidateCalls run.events = callsOfFates (considered fates)
  answered : ∀ d chunks, fates.find? (fun p => p.2.answers) = some (d, .answered chunks) →
    run.result.1 = .ok (chunks, .fromDecision d)
  failed : (∀ p ∈ fates, p.2.answers = false) →
    run.result.1 = .error (((lastError fates).or lastErr).getD .backendUnavailable)

/-- A candidate that does not answer, before a run that does what the fates of the others say. -/
theorem Follows.cons {p : RouteDecision F × Fate} {fates : List (RouteDecision F × Fate)}
    {run : Program.Ended (forwardInterface F)
      (Except HierKvGatewayError (List InferenceChunk × RoutingMeta) × List ForwardAttempt)
      (Surroundings σ)}
    (h : Follows fates (attempts ++ [p.2.attempt p.1.backend])
      ((p.2.error p.1.backend).or lastErr) run)
    (hanswers : p.2.answers = false) {events : List (Program.Event (forwardInterface F))}
    (hcalls : candidateCalls events = p.2.calls.map (·, p.1.backend)) :
    Follows (p :: fates) attempts lastErr ⟨run.result, events ++ run.events, run.state⟩ where
  attempts := by
    rw [considered_cons_of_not hanswers, List.map_cons]
    dsimp only
    rw [h.attempts, List.append_assoc, List.singleton_append]
  calls := by
    rw [considered_cons_of_not hanswers]
    dsimp only
    rw [candidateCalls_append, hcalls, h.calls]
    rfl
  answered d chunks hfind := by
    rw [List.find?_cons_of_neg (by simp [hanswers])] at hfind
    exact h.answered d chunks hfind
  failed hall := by
    have hresult := h.failed fun p hp => hall p (List.mem_cons_of_mem _ hp)
    dsimp only
    rw [hresult, lastError_cons, Option.or_assoc]

/-- A candidate that answers ends the run. -/
theorem follows_answered {chunks : List InferenceChunk} {fates : List (RouteDecision F × Fate)}
    {events : List (Program.Event (forwardInterface F))} {s : Surroundings σ}
    (hcalls : candidateCalls events = (Fate.answered chunks).calls.map (·, d.backend)) :
    Follows ((d, .answered chunks) :: fates) attempts lastErr
      ⟨(.ok (chunks, .fromDecision d), attempts ++ [(Fate.answered chunks).attempt d.backend]),
        events, s⟩ where
  attempts := by
    rw [considered_cons_of_answers rfl]
    rfl
  calls := by
    rw [considered_cons_of_answers rfl]
    show candidateCalls events = _ ++ []
    rw [List.append_nil, hcalls]
  answered d' chunks' hfind := by
    rw [List.find?_cons_of_pos rfl] at hfind
    simp only [Option.some.injEq, Prod.mk.injEq, Fate.answered.injEq] at hfind
    obtain ⟨rfl, rfl⟩ := hfind
    rfl
  failed hall := absurd (hall _ List.mem_cons_self) (by simp [Fate.answers])

/-- The loop does what the fates of the candidates say, if no backend is decided for twice. -/
theorem follows_runLoop (hdistinct : (decisions.map (·.backend)).Nodup) (s : Surroundings σ) :
    Follows (env.fates inference s.breakers s.considered decisions) attempts lastErr
      (env.runLoop inference promptBlocks decisions failures lastErr attempts s) := by
  induction decisions generalizing failures lastErr attempts s with
  | nil =>
    exact ⟨(List.append_nil attempts).symm, rfl, fun d chunks h => absurd h (by simp [fates]),
      fun _ => rfl⟩
  | cons d decisions ih =>
    obtain ⟨hnotMem, hdistinct⟩ := List.nodup_cons.1 hdistinct
    have hfate := env.tryCandidate_fate inference promptBlocks s.considered d
      ⟨s.breakers, s.inner, attempts⟩
    obtain ⟨-, -, hlimits, hother⟩ := hfate
    rw [fates_cons]
    cases hanswers : (env.fate inference s.breakers s.considered d.backend).answers with
    | false =>
      obtain ⟨events, failures', hcalls, hrun⟩ := runLoop_of_not_answers promptBlocks failures
        lastErr decisions attempts hanswers
      -- the other candidates meet the breakers of their backends as they were
      have hsame : env.fates inference (env.tryCandidate inference promptBlocks s.considered d
          ⟨s.breakers, s.inner, attempts⟩).2.breakers (s.considered + 1) decisions =
          env.fates inference s.breakers (s.considered + 1) decisions := by
        refine fates_congr hlimits (fun d' hd' => hother _ ?_) _
        intro heq
        exact hnotMem (List.mem_map.2 ⟨d', hd', heq⟩)
      rw [hrun, ← hsame]
      exact (ih hdistinct ⟨_, _, s.considered + 1⟩).cons hanswers hcalls
    | true =>
      obtain ⟨chunks, hchunks⟩ := Fate.exists_of_answers hanswers
      obtain ⟨events, hcalls, hrun⟩ := runLoop_of_answered promptBlocks failures lastErr
        decisions attempts hchunks
      rw [hrun, hchunks]
      exact follows_answered hcalls

/-- The program is `forward_with_retries` of `Api.Forward`. -/
theorem forwardLoop_eq_run (s : Surroundings σ) :
    let loop := env.forwardLoop inference promptBlocks s.considered lastErr decisions
      ⟨s.breakers, s.inner, attempts⟩
    let run := env.runLoop inference promptBlocks decisions failures lastErr attempts s
    (loop.1.map (fun (chunks, d) => (chunks, RoutingMeta.fromDecision d)), loop.2) =
      (run.result.1, ⟨run.state.breakers, run.state.inner, run.result.2⟩) := by
  induction decisions generalizing failures lastErr attempts s with
  | nil => rfl
  | cons d decisions ih =>
    obtain ⟨hresult, hattempts, -, -⟩ := env.tryCandidate_fate inference promptBlocks s.considered d
      ⟨s.breakers, s.inner, attempts⟩
    unfold forwardLoop
    cases hanswers : (env.fate inference s.breakers s.considered d.backend).answers with
    | false =>
      -- the loop goes on, with the error of this candidate in hand
      obtain ⟨events, failures', -, hrun⟩ := runLoop_of_not_answers promptBlocks failures lastErr
        decisions attempts hanswers
      rw [hrun]
      dsimp only at hresult hattempts ⊢
      generalize env.tryCandidate inference promptBlocks s.considered d
        ⟨s.breakers, s.inner, attempts⟩ = t at hresult hattempts ⊢
      obtain ⟨r, breakers', inner', attempts'⟩ := t
      dsimp only at hresult hattempts ⊢
      subst hattempts hresult
      have hrest := @ih failures' (((env.fate inference s.breakers s.considered d.backend).error
        d.backend).or lastErr) (attempts ++ [(env.fate inference s.breakers s.considered
          d.backend).attempt d.backend]) ⟨breakers', inner', s.considered + 1⟩
      -- `or` keeps the last error that there was
      cases hfate : env.fate inference s.breakers s.considered d.backend with
      | skipped =>
        rw [hfate] at hrest
        exact hrest
      | noConnector =>
        rw [hfate] at hrest
        exact hrest
      | failed err =>
        rw [hfate] at hrest
        exact hrest
      | answered chunks =>
        rw [hfate] at hanswers
        exact absurd hanswers (by simp [Fate.answers])
    | true =>
      -- an answer ends the loop
      obtain ⟨chunks, hchunks⟩ := Fate.exists_of_answers hanswers
      obtain ⟨events, -, hrun⟩ := runLoop_of_answered promptBlocks failures lastErr decisions
        attempts hchunks
      rw [hchunks] at hresult hattempts
      rw [hrun]
      dsimp only at hresult hattempts ⊢
      generalize env.tryCandidate inference promptBlocks s.considered d
        ⟨s.breakers, s.inner, attempts⟩ = t at hresult hattempts ⊢
      obtain ⟨r, breakers', inner', attempts'⟩ := t
      dsimp only at hresult hattempts ⊢
      subst hattempts hresult
      rfl

/-- What a request that is forwarded with retries does, for the fates of its candidates. -/
structure FailedOver (fates : List (RouteDecision F × Fate)) (attempts : List ForwardAttempt)
    (run : Program.Ended (forwardInterface F)
      (Except HierKvGatewayError (List InferenceChunk × RoutingMeta) × List ForwardAttempt)
      (Surroundings σ)) : Prop where
  /-- One attempt for each candidate, up to the first that answers. -/
  attempts : run.result.2 =
    attempts ++ (considered fates).map fun p => p.2.attempt p.1.backend
  /-- Only the last one answers. -/
  last : ∀ p ∈ (considered fates).dropLast, p.2.answers = false
  /-- The calls on the breakers and the connectors are those of the fates. -/
  calls : candidateCalls run.events = callsOfFates (considered fates)
  once : ∀ backend, (candidateCalls run.events).count (.forward, backend) ≤ 1
  answered : ∀ d chunks, fates.find? (fun p => p.2.answers) = some (d, .answered chunks) →
    run.result.1 = .ok (chunks, .fromDecision d)
  /-- Without an answer, the last error. -/
  failed : (∀ p ∈ fates, p.2.answers = false) →
    run.result.1 = .error ((lastError fates).getD .backendUnavailable)
  /-- There is none exactly if all candidates are skipped. -/
  unavailable : (∀ p ∈ fates, p.2.answers = false) →
    (lastError fates = none ↔ ∀ p ∈ fates, p.2 = .skipped)

/-- Whatever the breakers, the connectors and their answers are, a request with decisions for
pairwise different backends is forwarded as the fates of these say. -/
theorem failover (env : ForwardEnv F σ) (inference : InferenceRequest F) (promptBlocks : BitVec 32)
    (decisions : List (RouteDecision F)) (hdistinct : (decisions.map (·.backend)).Nodup)
    (attempts : List ForwardAttempt) (breakers : CircuitBreakerRegistry) (inner : σ) :
    FailedOver (env.fates inference breakers 0 decisions) attempts
      (env.runLoop inference promptBlocks decisions 0 none attempts ⟨breakers, inner, 0⟩) := by
  have h : Follows (env.fates inference breakers 0 decisions) attempts none
      (env.runLoop inference promptBlocks decisions 0 none attempts ⟨breakers, inner, 0⟩) :=
    follows_runLoop hdistinct ⟨breakers, inner, 0⟩
  refine ⟨h.attempts, fun p => not_answers_of_mem_dropLast, h.calls, ?_, h.answered, ?_, ?_⟩
  · intro backend
    rw [h.calls]
    have hsub : (considered (env.fates inference breakers 0 decisions)).map
        (fun p => p.1.backend) |>.Sublist (decisions.map (·.backend)) := by
      rw [← backends_fates 0]
      exact (List.take_sublist _ _).map _
    exact (count_forward_le backend _).trans
      (List.nodup_iff_count_le_one.1 (hdistinct.sublist hsub) backend)
  · intro hall
    rw [h.failed hall, Option.or_none]
  · intro hall
    exact lastError_eq_none_iff hall

/-- Backend `a` has no connector, `b` fails and the others answer. -/
def fromThird : ForwardEnv Nat Unit where
  connectors b :=
    if b.inst.str = "a" then none
    else some fun _ b _ =>
      if b.inst.str = "b" then .error (.connectorError "down") else .ok []
  adaptive := none
  consideredAt := id
  answeredAt := id
  elapsed := fun _ => .fromSecs 0

/-- A decision for a backend. -/
def decided (name : String) : RouteDecision Nat := ⟨⟨⟨"r1"⟩, ⟨name⟩⟩, "hybrid", 0, []⟩

theorem failover_third :
    let run := fromThird.runLoop ⟨⟨"r"⟩, "m", [], [], 0, 1, false, [], none⟩ 0
      [decided "a", decided "b", decided "c", decided "d"] 0 none []
      ⟨.new ⟨5, 30, 2⟩, (), 0⟩
    run.result.2.map (fun t => (t.success, t.error)) =
      [(false, some "Connector error: no connector for backend r1/a"),
        (false, some "Connector error: down"), (true, none)] ∧
      (candidateCalls run.events).map (·.1) =
        [.allow, .allow, .forward, .onFailure, .allow, .forward, .onSuccess] := by
  intro run
  have h := failover fromThird ⟨⟨"r"⟩, "m", [], [], 0, 1, false, [], none⟩ 0
    [decided "a", decided "b", decided "c", decided "d"] (by decide +kernel) []
    (.new ⟨5, 30, 2⟩) ()
  rw [h.attempts, h.calls]
  decide +kernel

end ForwardEnv

end HierKvGateway
