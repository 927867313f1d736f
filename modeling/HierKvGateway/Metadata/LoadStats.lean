import HierKvGateway.Core.Error
import HierKvGateway.Core.Metrics
import HierKvGateway.Lib.LastWrite

/-!
# Metadata.LoadStats — the latest metrics of each backend

The load statistics (`load_stats.rs`): for each backend its latest metrics and a
ring buffer of the most recent ones.
-/

namespace HierKvGateway

/-- A buffer of bounded size; the oldest item is overwritten when it is full. -/
structure RingBuffer (T : Type) where
  buf : List T
  head : Nat
  len : Nat
  capacity : Nat
deriving Repr

namespace RingBuffer

variable {T : Type}

def new (capacity : Nat) : RingBuffer T := ⟨[], 0, 0, capacity⟩

def push (r : RingBuffer T) (item : T) : RingBuffer T :=
  if r.buf.length < r.capacity then
    { r with buf := r.buf ++ [item], len := (r.buf ++ [item]).length }
  else
    { r with
      buf := r.buf.set r.head item
      head := (r.head + 1) % r.capacity
      len := r.capacity }

/-- `push`, with the index it writes at checked. -/
def pushChecked (r : RingBuffer T) (item : T) : Option (RingBuffer T) :=
  if r.buf.length < r.capacity ∨ r.head < r.buf.length then some (r.push item) else none

/-- The items in write order, the oldest first; nothing if an index is out of bounds. -/
def snapshot (r : RingBuffer T) : Option (List T) :=
  if r.buf.length < r.capacity then some r.buf
  else (List.range r.capacity).mapM fun i => r.buf[(r.head + i) % r.capacity]?

def isEmpty (r : RingBuffer T) : Bool := r.len == 0

end RingBuffer

/-- Number of samples kept for a backend. -/
def ringCapacity : Nat := 60

/-- The load statistics. -/
structure LoadStats where
  latest : BackendId → Option BackendMetrics
  history : BackendId → Option (RingBuffer BackendMetrics)

namespace LoadStats

/-- `LoadStats::new`. -/
def new : LoadStats := ⟨fun _ => none, fun _ => none⟩

/-- The latest metrics of a backend. -/
def get (s : LoadStats) (backend : BackendId) : Option BackendMetrics := s.latest backend

/-- Replace the latest metrics of a backend. -/
def update (backend : BackendId) (metrics : BackendMetrics) (s : LoadStats) : LoadStats where
  latest := Function.update s.latest backend (some metrics)
  history := Function.update s.history backend
    (some (((s.history backend).getD (.new ringCapacity)).push metrics))

/-- Forget a backend. -/
def remove (backend : BackendId) (s : LoadStats) : LoadStats where
  latest := Function.update s.latest backend none
  history := Function.update s.history backend none

/-- The time stamp of some metrics, in seconds; one before 1970 counts as 1970. -/
def metricsTimestamp (m : BackendMetrics) : Nat := m.timestamp.toNat

/-- How old the latest metrics of a backend are, at a time since 1970. -/
def freshness (now : Duration) (backend : BackendId) (s : LoadStats) : Option Duration :=
  (s.get backend).map fun metrics =>
    .fromSecs (BitVec.ofNat 64 (now.asSecs - metricsTimestamp metrics))

/-- The most recent samples of a backend (`history`); nothing if an index is out of bounds. -/
def historyOf (backend : BackendId) (s : LoadStats) : Option (List BackendMetrics) :=
  match s.history backend with
  | none => some []
  | some hist => hist.snapshot

/-- The updates of a loop over some metrics. -/
def updateAll (s : LoadStats) (ms : List (BackendId × BackendMetrics)) : LoadStats :=
  ms.foldl (fun s (backend, metrics) => s.update backend metrics) s

/-- The latest metrics are those written last. -/
theorem latest_updateAll (s : LoadStats) (ms : List (BackendId × BackendMetrics)) :
    (s.updateAll ms).latest = LastWrite.apply s.latest ms := by
  induction ms generalizing s with
  | nil => rfl
  | cons m ms ih =>
    rw [LastWrite.apply_cons]
    exact ih (s.update m.1 m.2)

end LoadStats

end HierKvGateway
