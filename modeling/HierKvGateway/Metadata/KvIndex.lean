import HierKvGateway.Lib.Run
import HierKvGateway.Metadata.LocalCkf
import HierKvGateway.Metadata.RadixTree
import HierKvGateway.Metadata.Xxh3

/-!
# Metadata.KvIndex — the exact tree and its cuckoo projection

A KV event is applied to the tree first and then, hash by hash, to the lane of
its backend; a query reads the lane alone (`kv_index.rs`). Here operations run
one at a time, so the pair of structures is a sequential program.

The second half describes the writes of an event: on the buckets of one lane,
and on the projection, where they leave everything but that lane alone.
-/

namespace HierKvGateway

/-- One write of an event to the lane of its backend. -/
inductive LaneWrite where
  | insert (hash : BlockHash)
  | delete (hash : BlockHash)
  | clear
deriving DecidableEq, Repr

/-- The writes an event is projected to, in order. -/
def KvCacheEvent.laneWrites : KvCacheEvent → List LaneWrite
  | .stored _ blockHashes _ _ => blockHashes.map .insert
  | .removed _ blockHashes => blockHashes.map .delete
  | .clear _ => [.clear]
  | .reset _ _ => [.clear]

/-- The hashes an event lists. -/
def KvCacheEvent.hashes : KvCacheEvent → List BlockHash
  | .stored _ blockHashes _ _ => blockHashes
  | .removed _ blockHashes => blockHashes
  | .clear _ => []
  | .reset _ _ => []

/-- Perform one write on a lane. -/
def LocalCkf.write (H : Xxh3) (l : LocalLane) (c : LocalCkf) : LaneWrite → LocalCkf
  | .insert hash => (insert H hash l c).1
  | .delete hash => (delete H hash l c).1
  | .clear => clearLane l c

/-- Unified KV index: the tree is the source of truth, the projection serves
the queries. -/
structure KvIndex where
  radix : TreeState
  localCkf : LocalCkf

namespace KvIndex

def new : KvIndex := ⟨.new, .new⟩

/-- Apply an event: assign the backend a lane, write to the tree, project. A
backend without a lane is not projected. -/
def kvApplyEvent (H : Xxh3) (event : KvCacheEvent) (backend : BackendId) (k : KvIndex) : KvIndex :=
  let (ckf, lane) := k.localCkf.assignLane backend
  let radix := k.radix.applyEvent backend event
  match lane with
  | some l => ⟨radix, event.laneWrites.foldl (LocalCkf.write H l) ckf⟩
  | none => ⟨radix, ckf⟩

/-- Remove a backend from both structures. -/
def kvRemoveBackend (backend : BackendId) (k : KvIndex) : KvIndex :=
  ⟨k.radix.removeBackend backend, k.localCkf.unassignLane backend⟩

/-- Overlap of one backend: from its lane, or from the tree if it has none. -/
def kvFindLocalOverlap (H : Xxh3) (hashes : List BlockHash) (backend : BackendId) (k : KvIndex) : Nat :=
  match k.localCkf.laneOf backend with
  | some l => k.localCkf.estimateOverlap H hashes l
  | none => k.radix.findMatches hashes backend

end KvIndex

/-- An operation of the index. -/
inductive KvOp where
  | applyEvent (event : KvCacheEvent) (backend : BackendId)
  | removeBackend (backend : BackendId)
deriving DecidableEq, Repr

namespace KvOp

def backend : KvOp → BackendId
  | applyEvent _ b => b
  | removeBackend b => b

/-- The hashes an operation lists. -/
def hashes : KvOp → List BlockHash
  | applyEvent e _ => e.hashes
  | removeBackend _ => []

/-- The operation on the index. -/
def apply (H : Xxh3) (k : KvIndex) : KvOp → KvIndex
  | .applyEvent e b => k.kvApplyEvent H e b
  | .removeBackend b => k.kvRemoveBackend b

end KvOp

namespace KvIndex

/-- The index after a sequence of operations. -/
def run (H : Xxh3) (ops : List KvOp) : KvIndex := ops.foldl (KvOp.apply H) new

end KvIndex

/-! ## Writes on one lane -/

/-- What a write does to the buckets of an active lane. -/
def laneWrite (H : Xxh3) (lane : Lane) : LaneWrite → Lane
  | .insert hash => (laneInsert H hash lane).1
  | .delete hash => (laneDelete H hash lane).1
  | .clear => fun _ => 0

/-- How a write changes the number of copies of one block, if it succeeds. -/
def countOf (x : BlockHash) (n : Nat) : LaneWrite → Nat
  | .insert hash => n + if x = hash then 1 else 0
  | .delete hash => n - if x = hash then 1 else 0
  | .clear => 0

/-- The same for every block. -/
def countWrite (n : BlockHash → Nat) (w : LaneWrite) : BlockHash → Nat :=
  fun x => countOf x (n x) w

/-- The block of a write is among those that do not collide. -/
def LaneWrite.In (S : Set BlockHash) : LaneWrite → Prop
  | .insert hash => hash ∈ S
  | .delete hash => hash ∈ S
  | .clear => True

/-- An insertion succeeds. -/
def InsertOk (H : Xxh3) (lane : Lane) : LaneWrite → Prop
  | .insert hash => (laneInsert H hash lane).2 = true
  | .delete _ => True
  | .clear => True

/-- An insertion finds a free slot in its primary bucket, or its fingerprint. -/
def InsertRoom (H : Xxh3) (lane : Lane) : LaneWrite → Prop
  | .insert hash => ¬ Full (lane (bucketA H hash)) ∨ laneContains H lane hash = true
  | .delete _ => True
  | .clear => True

instance (H : Xxh3) (lane : Lane) (w : LaneWrite) : Decidable (InsertRoom H lane w) := by
  cases w <;> unfold InsertRoom <;> infer_instance

section LaneWrite

variable {H : Xxh3} {S : Set BlockHash} {lane : Lane} {n : BlockHash → Nat} {x : BlockHash}

/-- The lane has as many copies of each block as counted. -/
def Counts (H : Xxh3) (S : Set BlockHash) (lane : Lane) (n : BlockHash → Nat) : Prop :=
  ∀ x ∈ S, laneCopies H lane x = n x

theorem laneCopies_write (hS : NoCollision H S) {w : LaneWrite} (hw : w.In S) (hx : x ∈ S)
    (hok : InsertOk H lane w) :
    laneCopies H (laneWrite H lane w) x = countOf x (laneCopies H lane x) w := by
  cases w with
  | insert hash => exact laneCopies_insert hS hw hx hok
  | delete hash => exact laneCopies_delete hS hw hx
  | clear => exact laneCopies_empty

theorem Counts.write (hS : NoCollision H S) (h : Counts H S lane n) {w : LaneWrite} (hw : w.In S)
    (hok : InsertOk H lane w) : Counts H S (laneWrite H lane w) (countWrite n w) := by
  intro x hx
  rw [laneCopies_write hS hw hx hok, h x hx, countWrite]

/-- A block that is found, and neither deleted nor cleared, is found afterwards. -/
theorem laneContains_write (hS : NoCollision H S) {w : LaneWrite} (hw : w.In S) (hx : x ∈ S)
    (hroom : InsertRoom H lane w) (hdel : w ≠ .delete x) (hclear : w ≠ .clear)
    (h : laneContains H lane x = true ∨ w = .insert x) :
    laneContains H (laneWrite H lane w) x = true := by
  cases w with
  | insert hash =>
    by_cases hhash : hash = x
    · subst hhash
      exact laneInsert_found_iff.2 hroom
    · rcases h with h | h
      · rw [laneContains_iff] at h ⊢
        exact laneInsert_mono h
      · cases h
        exact absurd rfl hhash
  | delete hash =>
    rcases h with h | h
    · refine laneDelete_mono (fun hclass => hdel ?_) h
      rw [(hS.sameClass hw hx).1 hclass]
    · cases h
  | clear => exact absurd rfl hclear

theorem Counts.writes (hS : NoCollision H S) {ws : List LaneWrite} (h : Counts H S lane n)
    (hws : ∀ w ∈ ws, w.In S) (hok : Run.Each (laneWrite H) (InsertOk H) lane ws) :
    Counts H S (ws.foldl (laneWrite H) lane) (ws.foldl countWrite n) := by
  induction ws generalizing lane n with
  | nil => exact h
  | cons w ws ih =>
    obtain ⟨hw, hws⟩ := List.forall_mem_cons.1 hws
    exact ih (h.write hS hw hok.1) hws hok.2

theorem laneContains_writes (hS : NoCollision H S) {ws : List LaneWrite}
    (hws : ∀ w ∈ ws, w.In S) (hx : x ∈ S) (hroom : Run.Each (laneWrite H) (InsertRoom H) lane ws)
    (hkeep : ∀ w ∈ ws, w ≠ .delete x ∧ w ≠ .clear)
    (h : laneContains H lane x = true ∨ .insert x ∈ ws) :
    laneContains H (ws.foldl (laneWrite H) lane) x = true := by
  induction ws generalizing lane with
  | nil => exact h.resolve_right (List.not_mem_nil)
  | cons w ws ih =>
    obtain ⟨hw, hws⟩ := List.forall_mem_cons.1 hws
    obtain ⟨hkw, hkeep⟩ := List.forall_mem_cons.1 hkeep
    rw [List.mem_cons] at h
    by_cases hnow : laneContains H lane x = true ∨ w = .insert x
    · exact ih hws hroom.2 hkeep
        (Or.inl (laneContains_write hS hw hx hroom.1 hkw.1 hkw.2 hnow))
    · -- the insertion is still to come
      refine ih hws hroom.2 hkeep (Or.inr ?_)
      rcases h with h | h | h
      · exact absurd (Or.inl h) hnow
      · exact absurd (Or.inr h.symm) hnow
      · exact h

end LaneWrite

/-! ## Writes on the projection -/

namespace LocalCkf

variable {H : Xxh3} {l : LocalLane} {c : LocalCkf}

theorem write_sameBindings (h : c.laneStatus l = .active) (w : LaneWrite) :
    SameBindings l c (write H l c w) := by
  cases w with
  | insert hash => exact insert_sameBindings
  | delete hash => exact delete_sameBindings
  | clear =>
    refine ⟨rfl, rfl, ?_, fun m hm => clearLane_lane_of_ne hm⟩
    rw [write, clearLane_laneStatus, ← h, Function.update_eq_self]

theorem write_lane (h : c.laneStatus l = .active) (w : LaneWrite) :
    (write H l c w).lane l = laneWrite H (c.lane l) w := by
  cases w with
  | insert hash =>
    rw [write, insert_active h]
    exact lane_setLane_self ..
  | delete hash =>
    rw [write, delete_active h]
    exact lane_setLane_self ..
  | clear => exact clearLane_lane_self

theorem SameBindings.refl : SameBindings l c c := ⟨rfl, rfl, rfl, fun _ _ => rfl⟩

theorem SameBindings.trans {c' c'' : LocalCkf} (h : SameBindings l c c')
    (h' : SameBindings l c' c'') : SameBindings l c c'' where
  laneBackends := h'.laneBackends.trans h.laneBackends
  backendLanes := h'.backendLanes.trans h.backendLanes
  laneStatus := h'.laneStatus.trans h.laneStatus
  lane m hm := (h'.lane m hm).trans (h.lane m hm)

/-- A projection touches one lane only, and performs the writes there. -/
theorem writes_spec (h : c.laneStatus l = .active) (ws : List LaneWrite) :
    SameBindings l c (ws.foldl (write H l) c) ∧
      (ws.foldl (write H l) c).lane l = ws.foldl (laneWrite H) (c.lane l) := by
  induction ws generalizing c with
  | nil => exact ⟨.refl, rfl⟩
  | cons w ws ih =>
    have hw := write_sameBindings (H := H) h w
    have h' : (write H l c w).laneStatus l = .active := by rw [hw.laneStatus, h]
    obtain ⟨hsame, hlane⟩ := ih h'
    rw [write_lane h w] at hlane
    exact ⟨hw.trans hsame, hlane⟩

/-- An insertion into lane `l` returns `true`. -/
def InsertOk (H : Xxh3) (l : LocalLane) (c : LocalCkf) : LaneWrite → Prop
  | .insert hash => (c.insert H hash l).2 = true
  | .delete _ => True
  | .clear => True

/-- An insertion into lane `l` finds room in its primary bucket. -/
def InsertRoom (H : Xxh3) (l : LocalLane) (c : LocalCkf) (w : LaneWrite) : Prop :=
  HierKvGateway.InsertRoom H (c.lane l) w

instance (H : Xxh3) (l : LocalLane) (c : LocalCkf) (w : LaneWrite) :
    Decidable (InsertOk H l c w) := by
  cases w <;> unfold InsertOk <;> infer_instance

instance (H : Xxh3) (l : LocalLane) (c : LocalCkf) (w : LaneWrite) :
    Decidable (InsertRoom H l c w) := inferInstanceAs (Decidable (HierKvGateway.InsertRoom ..))

theorem insertOk_lane (h : c.laneStatus l = .active) {w : LaneWrite} (hw : InsertOk H l c w) :
    HierKvGateway.InsertOk H (c.lane l) w := by
  cases w with
  | insert hash =>
    rw [InsertOk, insert_active h] at hw
    exact hw
  | delete hash => trivial
  | clear => trivial

/-- A condition on the writes of a projection, seen on its lane. -/
theorem each_lane {P : LocalCkf → LaneWrite → Prop} {Q : Lane → LaneWrite → Prop}
    (hPQ : ∀ c w, c.laneStatus l = .active → P c w → Q (c.lane l) w)
    (h : c.laneStatus l = .active) {ws : List LaneWrite} (hP : Run.Each (write H l) P c ws) :
    Run.Each (laneWrite H) Q (c.lane l) ws := by
  induction ws generalizing c with
  | nil => trivial
  | cons w ws ih =>
    have h' : (write H l c w).laneStatus l = .active := by
      rw [(write_sameBindings h w).laneStatus, h]
    refine ⟨hPQ c w h hP.1, ?_⟩
    rw [← write_lane h w]
    exact ih h' hP.2

end LocalCkf

end HierKvGateway
