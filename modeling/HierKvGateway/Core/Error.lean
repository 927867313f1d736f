import Mathlib.Algebra.Group.Int.Defs
import Mathlib.Algebra.Group.Nat.Defs

/-!
# Core.Error — the error type and durations

The errors every component returns (`error.rs`) with their texts, and the spans of
time (`std::time::Duration`) that TTLs and timeouts are given in.
-/

namespace HierKvGateway

/-- All errors that may occur. -/
inductive HierKvGatewayError where
  | backendUnavailable
  | routingFailed (msg : String)
  | connectorError (msg : String)
  | metricsError (msg : String)
  | configError (msg : String)
  | clusterError (msg : String)
  | notFound (msg : String)
  | rateLimited
  | internal (msg : String)
deriving DecidableEq, Repr

/-- The text of an error. -/
def HierKvGatewayError.display : HierKvGatewayError → String
  | .backendUnavailable => "No available backend instance"
  | .routingFailed msg => "Routing failed: " ++ msg
  | .connectorError msg => "Connector error: " ++ msg
  | .metricsError msg => "Metrics error: " ++ msg
  | .configError msg => "Configuration error: " ++ msg
  | .clusterError msg => "Cluster error: " ++ msg
  | .notFound msg => "Not found: " ++ msg
  | .rateLimited => "Rate limited"
  | .internal msg => "Internal error: " ++ msg

/-- A span of time: whole seconds (a `u64`) and the nanoseconds beyond them. -/
structure Duration where
  secs : Nat
  subsecNanos : Nat
  secs_lt : secs < 2 ^ 64
  nanos_lt : subsecNanos < 10 ^ 9

namespace Duration

/-- `Duration::as_secs`. -/
def asSecs (d : Duration) : Nat := d.secs

/-- `Duration::as_nanos`. -/
def asNanos (d : Duration) : Nat := d.secs * 10 ^ 9 + d.subsecNanos

/-- `Duration::as_millis`. -/
def asMillis (d : Duration) : Nat := d.secs * 1000 + d.subsecNanos / 10 ^ 6

/-- `Duration::from_millis` of a `u64`. -/
def fromMillis (ms : BitVec 64) : Duration where
  secs := ms.toNat / 1000
  subsecNanos := ms.toNat % 1000 * 10 ^ 6
  secs_lt := by have := ms.isLt; omega
  nanos_lt := by omega

/-- `Duration::from_secs` of a `u64`. -/
def fromSecs (s : BitVec 64) : Duration where
  secs := s.toNat
  subsecNanos := 0
  secs_lt := s.isLt
  nanos_lt := by omega

end Duration

/-- `u64::saturating_add`. -/
def saturatingAdd (a b : Nat) : Nat := min (a + b) (2 ^ 64 - 1)

theorem saturatingAdd_of_lt {a b : Nat} (h : a + b < 2 ^ 64) : saturatingAdd a b = a + b :=
  Nat.min_eq_left (by omega)

end HierKvGateway
