import HierKvGateway.Lib.Rotation
import HierKvGateway.Lib.Run
import HierKvGateway.Metadata.LoadStats

/-!
# Metadata.LoadHistory — the ring buffer as a sliding window

`RingBuffer` appends until it is full and overwrites its oldest item from then on. `Window` says
what it stands for: the last `capacity` items that were pushed. Not yet full it holds all of them
from index 0 on; full, it holds them around from `head` on, and the next push overwrites the item
at `head` and moves `head` on.

`history_recent`: after any pushes a snapshot has the last items in order, no index is out of
bounds, and the history of a backend is its latest samples.
-/

namespace HierKvGateway

/-! ## The ring buffer -/

namespace RingBuffer

variable {T : Type} {r : RingBuffer T} {capacity : Nat} {items : List T}

/-- The ring holds the last `capacity` of the items that were pushed. -/
structure Window (capacity : Nat) (items : List T) (r : RingBuffer T) : Prop where
  capacity_eq : r.capacity = capacity
  len : r.len = min items.length capacity
  length : r.buf.length = min items.length capacity
  head_lt : r.head < capacity
  head_eq : items.length < capacity → r.head = 0
  recent : r.buf.rotate r.head = items.rtake capacity

theorem window_new (hcap : 0 < capacity) : Window capacity [] (new capacity : RingBuffer T) where
  capacity_eq := rfl
  len := (Nat.zero_min capacity).symm
  length := (Nat.zero_min capacity).symm
  head_lt := hcap
  head_eq _ := rfl
  recent := by
    rw [List.rtake_nil]
    rfl

/-- Not yet full: the item is appended. -/
theorem push_of_lt (h : r.buf.length < r.capacity) (item : T) :
    r.push item = { r with buf := r.buf ++ [item], len := (r.buf ++ [item]).length } := if_pos h

/-- Full: the item takes the place of the oldest. -/
theorem push_of_full (h : ¬ r.buf.length < r.capacity) (item : T) :
    r.push item = { r with
      buf := r.buf.set r.head item
      head := (r.head + 1) % r.capacity
      len := r.capacity } := if_neg h

/-- While the ring is filled, all items are there from index 0 on. -/
theorem Window.buf_eq (hr : Window capacity items r) (hlt : items.length < capacity) :
    r.buf = items := by
  have hrecent := hr.recent
  rwa [hr.head_eq hlt, List.rotate_zero, Rotation.rtake_of_length_le hlt.le] at hrecent

theorem Window.length_lt_iff (hr : Window capacity items r) :
    r.buf.length < r.capacity ↔ items.length < capacity := by
  rw [hr.length, hr.capacity_eq]
  omega

theorem Window.append (hr : Window capacity items r) (hlt : items.length < capacity) (item : T) :
    Window capacity (items ++ [item])
      { r with buf := r.buf ++ [item], len := (r.buf ++ [item]).length } := by
  have hbuf := hr.buf_eq hlt
  have hlen : (r.buf ++ [item]).length = min (items ++ [item]).length capacity := by
    rw [hbuf, List.length_append, List.length_singleton]
    omega
  constructor
  case capacity_eq => exact hr.capacity_eq
  case len => exact hlen
  case length => exact hlen
  case head_lt => exact hr.head_lt
  case head_eq =>
    intro _
    exact hr.head_eq hlt
  case recent =>
    dsimp only
    rw [hr.head_eq hlt, List.rotate_zero, hbuf, Rotation.rtake_of_length_le]
    rw [List.length_append, List.length_singleton]
    omega

theorem Window.overwrite (hr : Window capacity items r) (hle : capacity ≤ items.length) (item : T) :
    Window capacity (items ++ [item])
      { r with
        buf := r.buf.set r.head item
        head := (r.head + 1) % r.capacity
        len := r.capacity } := by
  have hcap := hr.capacity_eq
  have hhead := hr.head_lt
  have hlen : r.buf.length = capacity := by
    rw [hr.length]
    omega
  have hmin : capacity = min (items ++ [item]).length capacity := by
    rw [List.length_append]
    omega
  constructor
  case capacity_eq => exact hcap
  case len => exact hcap.trans hmin
  case length =>
    rw [List.length_set, hlen]
    exact hmin
  case head_lt =>
    rw [hcap]
    exact Nat.mod_lt _ (by omega)
  case head_eq =>
    intro hlt
    rw [List.length_append] at hlt
    omega
  case recent =>
    -- the remainder is taken by the number of items, so it does not matter to the rotation
    have hmod : r.capacity = (r.buf.set r.head item).length := by
      rw [List.length_set, hlen, hcap]
    dsimp only
    rw [hmod, List.rotate_mod, Rotation.rotate_set_succ (by omega), hr.recent,
      Rotation.rtake_concat_of_le (by omega) hle]

/-- A push takes the window on by one item. -/
theorem Window.push (hr : Window capacity items r) (item : T) :
    Window capacity (items ++ [item]) (r.push item) := by
  by_cases hlt : items.length < capacity
  · rw [push_of_lt (hr.length_lt_iff.2 hlt)]
    exact hr.append hlt item
  · rw [push_of_full (mt hr.length_lt_iff.1 hlt)]
    exact hr.overwrite (Nat.le_of_not_lt hlt) item

/-- The index a push writes at is in bounds. -/
theorem Window.pushChecked (hr : Window capacity items r) (item : T) :
    r.pushChecked item = some (r.push item) := by
  have hlen := hr.length
  have hhead := hr.head_lt
  have hcap := hr.capacity_eq
  apply if_pos
  omega

/-- A snapshot reads in bounds, and in order. -/
theorem Window.snapshot (hr : Window capacity items r) :
    r.snapshot = some (items.rtake capacity) := by
  unfold RingBuffer.snapshot
  split
  · rename_i hfill
    have hlt := hr.length_lt_iff.1 hfill
    rw [hr.buf_eq hlt, Rotation.rtake_of_length_le hlt.le]
  · rename_i hfull
    have hlt := mt hr.length_lt_iff.2 hfull
    have hlen := hr.length
    have hcap : r.capacity = r.buf.length := by
      rw [hr.capacity_eq]
      omega
    rw [hcap, Rotation.mapM_getElem?, hr.recent]

theorem window_foldl (hr : Window capacity [] r) (items : List T) :
    Window capacity items (items.foldl push r) := by
  induction items using List.reverseRecOn with
  | nil => exact hr
  | append_singleton items item ih =>
    rw [List.foldl_append]
    exact ih.push item

end RingBuffer

/-! ## The history of a backend -/

/-- A call that changes the statistics. -/
inductive LoadOp where
  | update (backend : BackendId) (metrics : BackendMetrics)
  | remove (backend : BackendId)

namespace LoadStats

def apply (s : LoadStats) : LoadOp → LoadStats
  | .update backend metrics => s.update backend metrics
  | .remove backend => s.remove backend

/-- `apply`, with the index that is written at checked. -/
def applyChecked (s : LoadStats) : LoadOp → Option LoadStats
  | .update backend metrics =>
    (((s.history backend).getD (.new ringCapacity)).pushChecked metrics).map fun hist =>
      { latest := Function.update s.latest backend (some metrics)
        history := Function.update s.history backend (some hist) }
  | .remove backend => some (s.remove backend)

/-- The samples of a backend, from its last removal on. -/
def samples (backend : BackendId) (written : List BackendMetrics) : LoadOp → List BackendMetrics
  | .update b metrics => if b = backend then written ++ [metrics] else written
  | .remove b => if b = backend then [] else written

/-- The ring of a backend. -/
def ringOf (s : LoadStats) (backend : BackendId) : RingBuffer BackendMetrics :=
  (s.history backend).getD (.new ringCapacity)

/-- Every ring holds the last samples of its backend. -/
def Records (written : BackendId → List BackendMetrics) (s : LoadStats) : Prop :=
  ∀ backend, (s.ringOf backend).Window ringCapacity (written backend)

variable {s : LoadStats} {written : BackendId → List BackendMetrics}

theorem ringCapacity_pos : 0 < ringCapacity := by decide

theorem records_new : Records (fun _ => []) .new :=
  fun _ => RingBuffer.window_new ringCapacity_pos

/-- The rings after the history of one backend has been written. -/
theorem ringOf_of_update {s' : LoadStats} {b : BackendId}
    {hist : Option (RingBuffer BackendMetrics)} (h : s'.history = Function.update s.history b hist)
    (backend : BackendId) :
    s'.ringOf backend =
      if b = backend then hist.getD (.new ringCapacity) else s.ringOf backend := by
  unfold ringOf
  rw [h]
  split
  · rename_i hb
    rw [hb, Function.update_self]
  · rename_i hb
    rw [Function.update_of_ne (Ne.symm hb)]

theorem Records.apply (hs : Records written s) (op : LoadOp) :
    Records (fun backend => samples backend (written backend) op) (s.apply op) := by
  intro backend
  cases op with
  | update b metrics =>
    dsimp only [LoadStats.apply, samples]
    rw [ringOf_of_update rfl backend]
    split
    · rename_i hb
      subst hb
      exact (hs b).push metrics
    · exact hs backend
  | remove b =>
    dsimp only [LoadStats.apply, samples]
    rw [ringOf_of_update rfl backend]
    split
    · exact RingBuffer.window_new ringCapacity_pos
    · exact hs backend

theorem records_run (ops : List LoadOp) :
    Records (fun backend => ops.foldl (samples backend) []) (ops.foldl apply .new) := by
  induction ops using List.reverseRecOn with
  | nil => exact records_new
  | append_singleton ops op ih =>
    simp only [List.foldl_append]
    exact ih.apply op

/-- No update writes out of bounds. -/
theorem Records.applyChecked (hs : Records written s) (op : LoadOp) :
    s.applyChecked op = some (s.apply op) := by
  cases op with
  | update b metrics =>
    have hpush := (hs b).pushChecked metrics
    unfold LoadStats.applyChecked
    dsimp only
    rw [show (s.history b).getD (.new ringCapacity) = s.ringOf b from rfl, hpush]
    rfl
  | remove b => rfl

theorem historyOf_eq (s : LoadStats) (backend : BackendId) :
    s.historyOf backend = (s.ringOf backend).snapshot := by
  unfold historyOf ringOf
  cases s.history backend with
  | none => rfl
  | some hist => rfl

end LoadStats

open RingBuffer LoadStats in
/-- For every sequence of pushes, and for every sequence of calls. -/
theorem history_recent {T : Type} {capacity : Nat} (hcap : 0 < capacity) (items : List T)
    (ops : List LoadOp) (backend : BackendId) :
    (∃ r, items.foldlM pushChecked (new capacity) = some r ∧
      r.snapshot = some (items.rtake capacity) ∧ r.len = min items.length capacity ∧
      (r.isEmpty = true ↔ items = [])) ∧
    (∃ s, ops.foldlM applyChecked .new = some s ∧ s = ops.foldl apply .new ∧
      s.historyOf backend = some ((ops.foldl (samples backend) []).rtake ringCapacity)) := by
  constructor
  · have hwindow := window_foldl (window_new hcap) items
    refine ⟨items.foldl push (new capacity), ?_, hwindow.snapshot, hwindow.len, ?_⟩
    · exact Run.foldlM_eq_some (P := fun r => ∃ pushed, Window capacity pushed r)
        (fun r item ⟨_, hr⟩ => hr.pushChecked item) (fun r item ⟨_, hr⟩ => ⟨_, hr.push item⟩)
        ⟨[], window_new hcap⟩ items
    · unfold isEmpty
      rw [hwindow.len, beq_iff_eq, ← List.length_eq_zero_iff]
      omega
  · have hrecords := records_run ops
    refine ⟨ops.foldl LoadStats.apply .new, ?_, rfl, ?_⟩
    · exact Run.foldlM_eq_some (P := fun s => ∃ written, Records written s)
        (fun s op ⟨_, hs⟩ => hs.applyChecked op) (fun s op ⟨_, hs⟩ => ⟨_, hs.apply op⟩)
        ⟨_, records_new⟩ ops
    · rw [historyOf_eq]
      exact (hrecords backend).snapshot

open RingBuffer in
/-- The third item overwrites the first. -/
theorem history_recent_three :
    ∃ r, [1, 2, 3].foldlM pushChecked (new 2) = some r ∧ r.snapshot = some [2, 3] ∧ r.len = 2 := by
  rcases history_recent (show 0 < 2 by decide) [1, 2, 3] [] ⟨⟨"eu"⟩, ⟨"a"⟩⟩ with
    ⟨⟨r, hrun, hsnapshot, hlen, -⟩, -⟩
  exact ⟨r, hrun, hsnapshot, hlen⟩

end HierKvGateway
