import HierKvGateway.Core.Error
import HierKvGateway.Core.Ids
import Mathlib.Logic.Function.Basic

/-!
# Connector.CircuitBreaker — circuit breakers

One circuit breaker for each backend (`resilience.rs`). Failures in a row open it; after a cooldown
it is half-open, and successes in a row close it. There are no timers: the cooldown is looked at
when a request asks whether it is allowed. Instants are nanoseconds.
-/

namespace HierKvGateway

/-- What a circuit breaker is configured with. -/
structure ResilienceConfig where
  circuitBreakerFailureThreshold : BitVec 32
  circuitBreakerCooldownSecs : BitVec 64
  halfOpenSuccessThreshold : BitVec 32
deriving DecidableEq, Repr

/-- The state of a breaker. -/
inductive BreakerState where
  | closed (consecutiveFailures : Nat)
  | opened (openedAt : Nat)
  | halfOpen (consecutiveSuccesses : Nat)
deriving DecidableEq, Repr

/-- The three states of a circuit. -/
inductive CircuitState where
  | closed
  | opened
  | halfOpen
deriving DecidableEq, Repr

/-- Which of the three states a breaker is in. -/
def BreakerState.circuit : BreakerState → CircuitState
  | .closed _ => .closed
  | .opened _ => .opened
  | .halfOpen _ => .halfOpen

/-- `Breaker::new`. -/
def BreakerState.new : BreakerState := .closed 0

/-- The part of the registry that does not change. -/
structure BreakerLimits where
  failureThreshold : Nat
  cooldown : Duration
  successThreshold : Nat

/-- A breaker for each backend. -/
structure CircuitBreakerRegistry extends BreakerLimits where
  breakers : BackendId → Option BreakerState

/-- The three calls on a breaker. -/
inductive BreakerCall where
  | allow
  | onSuccess
  | onFailure
deriving DecidableEq, Repr

namespace BreakerLimits

/-- The limits of a configuration. -/
def ofConfig (config : ResilienceConfig) : BreakerLimits where
  failureThreshold := config.circuitBreakerFailureThreshold.toNat
  cooldown := .fromSecs config.circuitBreakerCooldownSecs
  successThreshold := max config.halfOpenSuccessThreshold.toNat 1

variable (l : BreakerLimits) (now : Nat)

/-- The cooldown has elapsed since an instant. -/
def Elapsed (openedAt : Nat) : Prop := l.cooldown.asNanos ≤ now - openedAt

instance (openedAt : Nat) : Decidable (l.Elapsed now openedAt) :=
  inferInstanceAs (Decidable (_ ≤ _))

/-- `allow` on a breaker: whether the request is allowed, and the new state. -/
def allow : BreakerState → Bool × BreakerState
  | .closed n => (true, .closed n)
  | .opened openedAt =>
    if l.Elapsed now openedAt then (true, .halfOpen 0) else (false, .opened openedAt)
  | .halfOpen n => (true, .halfOpen n)

/-- `on_success` on a breaker. -/
def onSuccess : BreakerState → BreakerState
  | .closed _ => .closed 0
  | .halfOpen n =>
    let successes := n + 1
    if l.successThreshold ≤ successes then .closed 0 else .halfOpen successes
  -- a success while open closes the circuit
  | .opened _ => .closed 0

/-- `on_failure` on a breaker. -/
def onFailure : BreakerState → BreakerState
  | .closed n =>
    let failures := n + 1
    if l.failureThreshold ≤ failures then .opened now else .closed failures
  | .halfOpen _ | .opened _ => .opened now

/-- A call on a breaker. -/
def step : BreakerCall → BreakerState → BreakerState
  | .allow, st => (l.allow now st).2
  | .onSuccess, st => l.onSuccess st
  | .onFailure, st => l.onFailure now st

variable {l now}

theorem allow_opened_of_elapsed {openedAt : Nat} (h : l.Elapsed now openedAt) :
    l.allow now (.opened openedAt) = (true, .halfOpen 0) := if_pos h

theorem allow_opened_of_not_elapsed {openedAt : Nat} (h : ¬ l.Elapsed now openedAt) :
    l.allow now (.opened openedAt) = (false, .opened openedAt) := if_neg h

theorem step_allow (st : BreakerState) : l.step now .allow st = (l.allow now st).2 := rfl

/-- Success counts one more while half-open, up to the threshold. -/
theorem onSuccess_halfOpen (n : Nat) :
    l.onSuccess (.halfOpen n) =
      if l.successThreshold ≤ n + 1 then .closed 0 else .halfOpen (n + 1) :=
  rfl

/-- Failure counts one more while closed, up to the threshold. -/
theorem onFailure_closed (n : Nat) :
    l.onFailure now (.closed n) =
      if l.failureThreshold ≤ n + 1 then .opened now else .closed (n + 1) :=
  rfl

end BreakerLimits

namespace CircuitBreakerRegistry

/-- `CircuitBreakerRegistry::new`. -/
def new (config : ResilienceConfig) : CircuitBreakerRegistry where
  toBreakerLimits := .ofConfig config
  breakers _ := none

/-- The breaker of a backend; a new one if there is none yet. -/
def breaker (r : CircuitBreakerRegistry) (id : BackendId) : BreakerState :=
  (r.breakers id).getD .new

/-- A call for a backend, at an instant. -/
def call (now : Nat) (id : BackendId) (c : BreakerCall) (r : CircuitBreakerRegistry) :
    CircuitBreakerRegistry :=
  { r with breakers := Function.update r.breakers id (some (r.step now c (r.breaker id))) }

/-- Whether a forward attempt to a backend is allowed right now. -/
def allow (now : Nat) (id : BackendId) (r : CircuitBreakerRegistry) :
    Bool × CircuitBreakerRegistry :=
  ((r.toBreakerLimits.allow now (r.breaker id)).1, r.call now id .allow)

/-- Record a successful forward to a backend. -/
def onSuccess (now : Nat) (id : BackendId) (r : CircuitBreakerRegistry) : CircuitBreakerRegistry :=
  r.call now id .onSuccess

/-- Record a failed forward to a backend. -/
def onFailure (now : Nat) (id : BackendId) (r : CircuitBreakerRegistry) : CircuitBreakerRegistry :=
  r.call now id .onFailure

/-- The circuit of a backend. -/
def circuit (r : CircuitBreakerRegistry) (id : BackendId) : CircuitState := (r.breaker id).circuit

variable {r : CircuitBreakerRegistry} {now : Nat} {id id' : BackendId} {c : BreakerCall}

@[simp] theorem limits_call :
    (r.call now id c).toBreakerLimits = r.toBreakerLimits := rfl

@[simp] theorem breaker_call_self :
    (r.call now id c).breaker id = r.step now c (r.breaker id) := by
  show ((Function.update r.breakers id _) id).getD .new = _
  rw [Function.update_self]
  rfl

/-- A call for a backend leaves the others as they are. -/
theorem breaker_call_of_ne (h : id' ≠ id) : (r.call now id c).breaker id' = r.breaker id' := by
  show ((Function.update r.breakers id _) id').getD .new = _
  rw [Function.update_of_ne h]
  rfl

end CircuitBreakerRegistry

end HierKvGateway
