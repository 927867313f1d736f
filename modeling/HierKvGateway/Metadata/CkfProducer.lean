import Mathlib.Data.Finset.Sort
import HierKvGateway.Metadata.CuckooLane
import HierKvGateway.Lib.Run

/-!
# Metadata.CkfProducer — one cuckoo lane with exact ownership

The producer of one pool (`ckf_producer.rs`): a table of owners per block hash,
the reverse table per backend, the packed lane, and the set of buckets changed
since the last publication. This file translates the producer and proves, for
each operation on the lane, what it does to the lane read as a cuckoo table:

* `insertFingerprint` either adds one fingerprint, wherever the eviction chain
  moves the others, or leaves the lane alone (`insertFingerprint_inserted`,
  `insertFingerprint_failed`);
* `deleteFingerprint` takes out one copy, or nothing if the pair holds none
  (`deleteFingerprint_deleted`, `deleteFingerprint_none`);
* every bucket either of them changes is recorded as dirty.

`HashMap` and `HashSet` are functions to `Option` and `Finset`; where the
source iterates over a `HashSet`, the unspecified order is an argument.
-/

namespace HierKvGateway

/-- Reference count and owners of one tracked hash. -/
structure HashEntry where
  refcount : Nat
  owners : Finset BackendId

/-- The default entry, as `or_default` creates it. -/
def HashEntry.default : HashEntry := ⟨0, ∅⟩

/-- CKF producer state. -/
structure CkfProducer where
  /-- Current values of all buckets in the lane. -/
  buckets : Lane
  /-- Number of fingerprints inserted. -/
  numItems : Nat
  /-- Buckets changed since the last snapshot/delta. -/
  dirtyBuckets : Finset BucketIdx
  /-- Largest sequence number published. -/
  pubSeq : BitVec 64
  /-- hash → (refcount, owners). -/
  hashRefcount : BlockHash → Option HashEntry
  /-- backend → hashes held by that backend. -/
  workerHashes : BackendId → Option (Finset BlockHash)
  /-- splitmix64 state. -/
  rngState : BitVec 64

/-- An order in which a hash set may be iterated; nothing is known about it
except that it visits every element once. -/
structure IterOrder where
  list : Finset BlockHash → List BlockHash
  nodup : ∀ s, (list s).Nodup
  mem : ∀ s x, x ∈ list s ↔ x ∈ s

instance : IsTrans BlockHash (· ≤ ·) := ⟨fun _ _ _ => BitVec.le_trans⟩

instance : Std.Antisymm (α := BlockHash) (· ≤ ·) := ⟨fun _ _ => BitVec.le_antisymm⟩

instance : Std.Total (α := BlockHash) (· ≤ ·) := ⟨BitVec.le_total⟩

/-- One such order: ascending hashes. -/
def IterOrder.ascending : IterOrder where
  list s := s.sort (· ≤ ·)
  nodup _ := Finset.sort_nodup _ _
  mem _ _ := Finset.mem_sort _

namespace CkfProducer

/-- Default RNG seed. -/
def defaultSeed : BitVec 64 := 0xA7C54B7E38A12F5D#64

/-- A producer with a custom RNG seed. -/
def withSeed (seed : BitVec 64) : CkfProducer where
  buckets := fun _ => 0
  numItems := 0
  dirtyBuckets := ∅
  pubSeq := 0
  hashRefcount := fun _ => none
  workerHashes := fun _ => none
  rngState := seed

/-- An empty producer. -/
def new : CkfProducer := withSeed defaultSeed

/-- splitmix64: the next state and the value drawn. -/
def nextRandom (rngState : BitVec 64) : BitVec 64 × BitVec 64 :=
  let state := rngState + 0x9E3779B97F4A7C15#64
  let z := (state ^^^ (state >>> 30)) * 0xBF58476D1CE4E5B9#64
  let z := (z ^^^ (z >>> 27)) * 0x94D049BB133111EB#64
  (state, z ^^^ (z >>> 31))

/-- State of the eviction loop; `touched` lists the overwritten bucket values,
most recent first. -/
structure Kick where
  buckets : Lane
  rngState : BitVec 64
  touched : List (BucketIdx × PackedBucket)
  currentBucket : BucketIdx
  currentFp : Fp

/-- The slot a random number picks. -/
def pickSlot (r : BitVec 64) : Slot :=
  ⟨r.toNat &&& 3, Nat.lt_of_le_of_lt Nat.and_le_right (by decide)⟩

/-- One iteration up to the retry: swap the fingerprint in hand with a random
slot of the current bucket and move on to the evicted one's other bucket. -/
def kickOnce (H : Xxh3) (k : Kick) : Kick :=
  let before := k.buckets k.currentBucket
  let slotIdx := pickSlot (nextRandom k.rngState).2
  let evicted := slot before slotIdx
  let after := withSlot before slotIdx k.currentFp
  { buckets := Function.update k.buckets k.currentBucket after
    rngState := (nextRandom k.rngState).1
    touched := (k.currentBucket, before) :: k.touched
    currentBucket := altIndex H k.currentBucket evicted
    currentFp := evicted }

/-- The eviction loop, with the number of kicks left. `true` when the
fingerprint in hand found an empty slot. -/
def kickLoop (H : Xxh3) : Nat → Kick → Kick × Bool
  | 0, k => (k, false)
  | n + 1, k =>
    let k := kickOnce H k
    let (b, ok) := tryInsert (k.buckets k.currentBucket) k.currentFp
    if ok then ({ k with buckets := Function.update k.buckets k.currentBucket b }, true)
    else kickLoop H n k

/-- Undo the evictions, most recent first. -/
def rollback (touched : List (BucketIdx × PackedBucket)) (buckets : Lane) : Lane :=
  touched.foldl (fun bs t => Function.update bs t.1 t.2) buckets

/-- The loop state of an insertion whose candidate buckets are both full: a
random one of them, with the new fingerprint in hand. -/
def evictionStart (H : Xxh3) (hash : BlockHash) (p : CkfProducer) : Kick :=
  let (fp, bucketA) := probe H hash
  let bucketB := altIndex H bucketA fp
  let (rng, r) := nextRandom p.rngState
  { buckets := p.buckets
    rngState := rng
    touched := []
    currentBucket := if r &&& 1 = 0 then bucketA else bucketB
    currentFp := fp }

/-- What the eviction loop leaves behind: every touched bucket dirty after a
success, every eviction undone after a failure. -/
def finishEviction (p : CkfProducer) : Kick × Bool → CkfProducer × Bool
  | (k, true) =>
    ({ p with
        buckets := k.buckets
        dirtyBuckets := insert k.currentBucket p.dirtyBuckets ∪ (k.touched.map (·.1)).toFinset
        numItems := p.numItems + 1
        rngState := k.rngState }, true)
  | (k, false) =>
    ({ p with buckets := rollback k.touched k.buckets, rngState := k.rngState }, false)

/-- Cuckoo insertion with eviction; `false` after `maxKicks` evictions. -/
def insertFingerprint (H : Xxh3) (hash : BlockHash) (p : CkfProducer) : CkfProducer × Bool :=
  let (fp, bucketA) := probe H hash
  let bucketB := altIndex H bucketA fp
  let (a, okA) := tryInsert (p.buckets bucketA) fp
  let (b, okB) := tryInsert (p.buckets bucketB) fp
  if okA then
    ({ p with
        buckets := Function.update p.buckets bucketA a
        dirtyBuckets := insert bucketA p.dirtyBuckets
        numItems := p.numItems + 1 }, true)
  else if okB then
    ({ p with
        buckets := Function.update p.buckets bucketB b
        dirtyBuckets := insert bucketB p.dirtyBuckets
        numItems := p.numItems + 1 }, true)
  else finishEviction p (kickLoop H maxKicks (evictionStart H hash p))

/-- Delete one copy of the hash's fingerprint, primary bucket first. -/
def deleteFingerprint (H : Xxh3) (hash : BlockHash) (p : CkfProducer) : CkfProducer :=
  let (fp, bucketA) := probe H hash
  let bucketB := altIndex H bucketA fp
  let (a, okA) := tryDelete (p.buckets bucketA) fp
  let (b, okB) := tryDelete (p.buckets bucketB) fp
  if okA then
    { p with
      buckets := Function.update p.buckets bucketA a
      dirtyBuckets := insert bucketA p.dirtyBuckets
      numItems := p.numItems - 1 }
  else if okB then
    { p with
      buckets := Function.update p.buckets bucketB b
      dirtyBuckets := insert bucketB p.dirtyBuckets
      numItems := p.numItems - 1 }
  else p

/-! ## Ownership -/

/-- The entry `entry(hash).or_default()` yields. -/
def entryOrDefault (p : CkfProducer) (hash : BlockHash) : HashEntry :=
  (p.hashRefcount hash).getD HashEntry.default

/-- Record `worker` as a new owner of `hash`. -/
def addOwner (hash : BlockHash) (worker : BackendId) (p : CkfProducer) : CkfProducer :=
  let entry := p.entryOrDefault hash
  { p with
    hashRefcount := Function.update p.hashRefcount hash
      (some ⟨entry.refcount + 1, insert worker entry.owners⟩)
    workerHashes := Function.update p.workerHashes worker
      (some (insert hash ((p.workerHashes worker).getD ∅))) }

/-- `worker` stored `hash`; the fingerprint is inserted for the first owner. -/
def applyStored (H : Xxh3) (hash : BlockHash) (worker : BackendId) (p : CkfProducer) :
    CkfProducer :=
  let entry := p.entryOrDefault hash
  if worker ∈ entry.owners then p
  else if entry.owners = ∅ then (insertFingerprint H hash (addOwner hash worker p)).1
  else addOwner hash worker p

/-- The common end of `apply_removed` and `apply_clear`: take `worker` out of
the entry, and release the hash when nobody owns it any more. -/
def dropOwner (H : Xxh3) (hash : BlockHash) (worker : BackendId) (entry : HashEntry)
    (p : CkfProducer) : CkfProducer :=
  let entry : HashEntry := ⟨entry.refcount - 1, entry.owners.erase worker⟩
  if entry.refcount = 0 then
    let p := deleteFingerprint H hash p
    { p with hashRefcount := Function.update p.hashRefcount hash none }
  else { p with hashRefcount := Function.update p.hashRefcount hash (some entry) }

/-- Strike `hash` from the set of `worker`, if it has one. -/
def unlist (hash : BlockHash) (worker : BackendId) (p : CkfProducer) : CkfProducer :=
  { p with
    workerHashes := match p.workerHashes worker with
      | some s => Function.update p.workerHashes worker (some (s.erase hash))
      | none => p.workerHashes }

/-- `worker` removed `hash`. -/
def applyRemoved (H : Xxh3) (hash : BlockHash) (worker : BackendId) (p : CkfProducer) :
    CkfProducer :=
  match p.hashRefcount hash with
  | none => p
  | some entry =>
    if worker ∈ entry.owners then dropOwner H hash worker entry (unlist hash worker p)
    else p

/-- One iteration of `apply_clear`. -/
def clearHash (H : Xxh3) (worker : BackendId) (p : CkfProducer) (hash : BlockHash) :
    CkfProducer :=
  match p.hashRefcount hash with
  | none => p
  | some entry => dropOwner H hash worker entry p

/-- `worker` dropped everything it holds. -/
def applyClear (H : Xxh3) (order : IterOrder) (worker : BackendId) (p : CkfProducer) :
    CkfProducer :=
  let hashes := (p.workerHashes worker).getD ∅
  (order.list hashes).foldl (clearHash H worker)
    { p with workerHashes := Function.update p.workerHashes worker none }

/-- Clear the entire producer state. -/
def resetInternal (p : CkfProducer) : CkfProducer :=
  { p with
    buckets := fun _ => 0
    numItems := 0
    dirtyBuckets := ∅
    hashRefcount := fun _ => none
    workerHashes := fun _ => none }

/-- Apply a KV cache event of `backend`. -/
def applyEvent (H : Xxh3) (order : IterOrder) (event : KvCacheEvent) (backend : BackendId)
    (p : CkfProducer) : CkfProducer :=
  match event with
  | .stored _ blockHashes _ _ =>
    blockHashes.foldl (fun p hash => applyStored H hash backend p) p
  | .removed _ blockHashes =>
    blockHashes.foldl (fun p hash => applyRemoved H hash backend p) p
  | .clear _ => applyClear H order backend p
  | .reset _ _ => resetInternal p

/-! ## Publication -/

/-- A full snapshot; clears the dirty set. -/
def snapshot (p : CkfProducer) : CkfProducer × CkfSnapshot :=
  let pubSeq := p.pubSeq + 1
  ({ p with pubSeq := pubSeq, dirtyBuckets := ∅ },
    { sequence := pubSeq, buckets := List.ofFn p.buckets })

/-- The dirty buckets in index order, or nothing if there are none. -/
def delta (p : CkfProducer) : CkfProducer × Option CkfDelta :=
  if p.dirtyBuckets = ∅ then (p, none)
  else
    let pubSeq := p.pubSeq + 1
    ({ p with pubSeq := pubSeq, dirtyBuckets := ∅ },
      some
        { sequence := pubSeq
          prevSequence := p.pubSeq
          buckets := p.dirtyBuckets.sort.map fun i => (i.val, p.buckets i) })

theorem snapshot_buckets (p : CkfProducer) : p.snapshot.2.buckets = List.ofFn p.buckets := by
  rw [snapshot]

/-! ## Eviction chains -/

section Lane

variable {H : Xxh3} {hash : BlockHash} {p : CkfProducer}

/-- The invariant of the eviction loop that places `fp` in the pair of `i`,
starting from `lane`. -/
structure KickInv (H : Xxh3) (lane : Lane) (i : BucketIdx) (fp : Fp) (k : Kick) : Prop where
  inHand : Cuckoo.InHand (addressing H) (table lane) i fp (table k.buckets) k.currentBucket
    k.currentFp
  fp_ne : k.currentFp ≠ 0#16
  undo : rollback k.touched k.buckets = lane
  touched : ∀ j, k.buckets j ≠ lane j → j ∈ k.touched.map (·.1)

theorem kickOnce_buckets (k : Kick) : (kickOnce H k).buckets =
    Function.update k.buckets k.currentBucket (withSlot (k.buckets k.currentBucket)
      (pickSlot (nextRandom k.rngState).2) k.currentFp) := rfl

/-- One kick keeps the invariant: the current bucket is full, so the evicted
fingerprint is not the empty sentinel. -/
theorem kickOnce_inv {lane : Lane} {i : BucketIdx} {fp : Fp} {k : Kick}
    (hk : KickInv H lane i fp k) (hfull : Full (k.buckets k.currentBucket)) :
    KickInv H lane i fp (kickOnce H k) where
  inHand := hk.inHand.kick (replaced_withSlot (full_iff.1 hfull _) hk.fp_ne)
  fp_ne := full_iff.1 hfull _
  undo := by
    simp only [kickOnce, rollback, List.foldl_cons, Function.update_idem, Function.update_eq_self]
    exact hk.undo
  touched j hj := by
    by_cases hjc : j = k.currentBucket
    · subst hjc
      exact List.mem_cons_self
    · refine List.mem_cons_of_mem _ (hk.touched j ?_)
      simpa [kickOnce, hjc] using hj

/-- A successful chain adds exactly the fingerprint it was started for, and
every bucket it changed is the final one or a touched one. -/
theorem kickLoop_true {lane : Lane} {i : BucketIdx} {fp : Fp} {k' : Kick} :
    ∀ (n : Nat) (k : Kick), KickInv H lane i fp k → Full (k.buckets k.currentBucket) →
      kickLoop H n k = (k', true) →
      Cuckoo.Inserted (addressing H) (table lane) (table k'.buckets) i fp ∧
        ∀ j, k'.buckets j ≠ lane j → j = k'.currentBucket ∨ j ∈ k'.touched.map (·.1) := by
  intro n
  induction n with
  | zero =>
    intro k _ _ h
    simp [kickLoop] at h
  | succ n ih =>
    intro k hk hfull h
    have hinv := kickOnce_inv hk hfull
    by_cases hroom : Full ((kickOnce H k).buckets (kickOnce H k).currentBucket)
    · -- the next bucket is full as well: keep kicking
      rw [kickLoop, tryInsert_of_full hroom] at h
      exact ih _ hinv hroom h
    · -- room at last: the chain ends here
      have hok := (tryInsert_snd _ (kickOnce H k).currentFp).2 hroom
      simp only [kickLoop, hok, if_true, Prod.mk.injEq, and_true] at h
      subst h
      refine ⟨hinv.inHand.place (replaced_tryInsert hroom hinv.fp_ne), fun j hj => ?_⟩
      by_cases hjc : j = (kickOnce H k).currentBucket
      · exact Or.inl hjc
      · exact Or.inr (hinv.touched j (by simpa [hjc] using hj))

/-- A failed chain is undone completely, also when it came back to a bucket. -/
theorem kickLoop_false {lane : Lane} {i : BucketIdx} {fp : Fp} {k' : Kick} :
    ∀ (n : Nat) (k : Kick), KickInv H lane i fp k → Full (k.buckets k.currentBucket) →
      kickLoop H n k = (k', false) → rollback k'.touched k'.buckets = lane := by
  intro n
  induction n with
  | zero =>
    intro k hk _ h
    -- out of kicks: the record of touched buckets undoes the chain
    simp only [kickLoop, Prod.mk.injEq, and_true] at h
    subst h
    exact hk.undo
  | succ n ih =>
    intro k hk hfull h
    have hinv := kickOnce_inv hk hfull
    by_cases hroom : Full ((kickOnce H k).buckets (kickOnce H k).currentBucket)
    · rw [kickLoop, tryInsert_of_full hroom] at h
      exact ih _ hinv hroom h
    · have hok := (tryInsert_snd _ (kickOnce H k).currentFp).2 hroom
      simp [kickLoop, hok] at h

/-! ## Insertion -/

theorem evictionStart_inv : KickInv H p.buckets (probe H hash).2 (probe H hash).1
    (evictionStart H hash p) where
  inHand := by
    unfold evictionStart
    dsimp only
    split
    · exact Cuckoo.InHand.start
    · exact Cuckoo.InHand.start_alt
  fp_ne := probe_fp_ne_zero H hash
  undo := rfl
  touched _ hj := absurd rfl hj

theorem evictionStart_full (h : PairFull H hash p.buckets) :
    Full ((evictionStart H hash p).buckets (evictionStart H hash p).currentBucket) := by
  unfold evictionStart
  dsimp only
  split
  · exact h.1
  · exact h.2

theorem insertFingerprint_evict (h : PairFull H hash p.buckets) :
    insertFingerprint H hash p =
      finishEviction p (kickLoop H maxKicks (evictionStart H hash p)) := by
  have hokA := tryInsert_of_full h.1 (probe H hash).1
  have hokB := tryInsert_of_full h.2 (probe H hash).1
  simp only [insertFingerprint, hokA, hokB, Bool.false_eq_true, if_false]

/-- Every bucket that differs between `p` and `p'` is recorded as dirty in `p'`,
and nothing was published in between. -/
structure Tracked (p p' : CkfProducer) : Prop where
  dirty : p.dirtyBuckets ⊆ p'.dirtyBuckets
  changed : ∀ j, p'.buckets j ≠ p.buckets j → j ∈ p'.dirtyBuckets
  pubSeq : p'.pubSeq = p.pubSeq

/-- What a lane operation does besides its change of the table: it is tracked,
and the ownership tables are left alone. -/
structure LaneStep (p p' : CkfProducer) : Prop extends Tracked p p' where
  hashRefcount : p'.hashRefcount = p.hashRefcount
  workerHashes : p'.workerHashes = p.workerHashes

theorem Tracked.refl (p : CkfProducer) : Tracked p p :=
  ⟨fun _ h => h, fun _ hj => absurd rfl hj, rfl⟩

theorem Tracked.trans {p₁ p₂ p₃ : CkfProducer} (h : Tracked p₁ p₂) (h' : Tracked p₂ p₃) :
    Tracked p₁ p₃ where
  dirty := h.dirty.trans h'.dirty
  changed j hj := by
    by_cases hlast : p₃.buckets j = p₂.buckets j
    · exact h'.dirty (h.changed j (hlast ▸ hj))
    · exact h'.changed j hlast
  pubSeq := h'.pubSeq.trans h.pubSeq

theorem LaneStep.refl (p : CkfProducer) : LaneStep p p := ⟨.refl p, rfl, rfl⟩

/-- Storing one bucket and marking it dirty. -/
private theorem laneStep_update (p : CkfProducer) (i : BucketIdx) (b : PackedBucket) (n : Nat) :
    LaneStep p { p with
      buckets := Function.update p.buckets i b
      dirtyBuckets := insert i p.dirtyBuckets
      numItems := n } where
  dirty := Finset.subset_insert _ _
  changed j hj := by
    by_cases hji : j = i
    · subst hji
      exact Finset.mem_insert_self _ _
    · exact absurd (Function.update_of_ne hji _ _) hj
  pubSeq := rfl
  hashRefcount := rfl
  workerHashes := rfl

/-- Unless both buckets are full, `insertFingerprint` is an insertion in the lane;
the bucket it changes becomes dirty and the counter goes up. -/
theorem insertFingerprint_direct (h : ¬ PairFull H hash p.buckets) :
    (insertFingerprint H hash p).2 = true ∧
      (insertFingerprint H hash p).1.buckets = (laneInsert H hash p.buckets).1 ∧
      (insertFingerprint H hash p).1.numItems = p.numItems + 1 ∧
      LaneStep p (insertFingerprint H hash p).1 := by
  by_cases hA : Full (p.buckets (bucketA H hash))
  · have hB : ¬ Full (p.buckets (bucketB H hash)) := fun hB => h ⟨hA, hB⟩
    have hokA := tryInsert_of_full hA (fpOf H hash)
    have hokB := (tryInsert_snd _ (fpOf H hash)).2 hB
    rw [laneInsert_alternate hA hB]
    simp only [insertFingerprint, hokA, hokB, Bool.false_eq_true, if_false, if_true]
    exact ⟨trivial, trivial, trivial, laneStep_update _ _ _ _⟩
  · have hok := (tryInsert_snd _ (fpOf H hash)).2 hA
    rw [laneInsert_primary hA]
    simp only [insertFingerprint, hok, if_true]
    exact ⟨trivial, trivial, trivial, laneStep_update _ _ _ _⟩

/-- A successful insertion adds one copy of the fingerprint to its candidate
pair, and no other pair gains or loses a copy, however many fingerprints the
chain moved. -/
theorem insertFingerprint_inserted (h : (insertFingerprint H hash p).2 = true) :
    Cuckoo.Inserted (addressing H) (table p.buckets) (table (insertFingerprint H hash p).1.buckets)
        (probe H hash).2 (probe H hash).1 ∧
      (insertFingerprint H hash p).1.numItems = p.numItems + 1 := by
  by_cases hpair : PairFull H hash p.buckets
  · -- both full: the eviction chain
    rw [insertFingerprint_evict hpair] at h ⊢
    rcases hres : kickLoop H maxKicks (evictionStart H hash p) with ⟨k, ok⟩
    rw [hres] at h
    cases ok with
    | false => exact absurd h (by simp [finishEviction])
    | true =>
      have hchain := kickLoop_true _ _ evictionStart_inv (evictionStart_full hpair) hres
      exact ⟨hchain.1, rfl⟩
  · obtain ⟨_, hbuckets, hnum, _⟩ := insertFingerprint_direct hpair
    rw [hbuckets]
    exact ⟨laneInsert_inserted hpair, hnum⟩

/-- A failed insertion leaves the lane, its counter and its dirty set alone. -/
theorem insertFingerprint_failed (h : (insertFingerprint H hash p).2 = false) :
    (insertFingerprint H hash p).1.buckets = p.buckets ∧
      (insertFingerprint H hash p).1.numItems = p.numItems ∧
      (insertFingerprint H hash p).1.dirtyBuckets = p.dirtyBuckets := by
  by_cases hpair : PairFull H hash p.buckets
  · rw [insertFingerprint_evict hpair] at h ⊢
    rcases hres : kickLoop H maxKicks (evictionStart H hash p) with ⟨k, ok⟩
    rw [hres] at h
    cases ok with
    | true => exact absurd h (by simp [finishEviction])
    | false =>
      have hchain := kickLoop_false _ _ evictionStart_inv (evictionStart_full hpair) hres
      exact ⟨hchain, rfl, rfl⟩
  · rw [(insertFingerprint_direct hpair).1] at h
    exact absurd h (by simp)

/-- Both candidate buckets hold the fingerprint in every slot. -/
def Saturated (H : Xxh3) (hash : BlockHash) (lane : Lane) : Prop :=
  ∀ k, slot (lane (probe H hash).2) k = (probe H hash).1 ∧
    slot (lane (altIndex H (probe H hash).2 (probe H hash).1)) k = (probe H hash).1

instance (lane : Lane) : Decidable (Saturated H hash lane) := Nat.decidableForallFin _

/-- In a saturated pair a chain only exchanges copies of its own fingerprint, so
it never finds room. -/
theorem kickLoop_saturated {fp : Fp} (hfp : fp ≠ 0#16) :
    ∀ (n : Nat) (k : Kick), k.currentFp = fp →
      (∀ s, slot (k.buckets k.currentBucket) s = fp) →
      (∀ s, slot (k.buckets (altIndex H k.currentBucket fp)) s = fp) →
      (kickLoop H n k).2 = false := by
  intro n
  induction n with
  | zero =>
    intro k _ _ _
    rfl
  | succ n ih =>
    intro k hcur hhere hthere
    -- whatever slot is kicked, its fingerprint goes to the other bucket of the pair
    have hmoved : (kickOnce H k).currentBucket = altIndex H k.currentBucket fp := by
      simp only [kickOnce, hhere]
    have hfull : Full ((kickOnce H k).buckets (kickOnce H k).currentBucket) := by
      rw [hmoved, full_iff]
      intro s
      rw [kickOnce_buckets, Function.update_of_ne (altIndex_ne H _ _), hthere]
      exact hfp
    rw [kickLoop, tryInsert_of_full hfull]
    refine ih _ (hhere _) ?_ ?_
    · -- the chain is now at the other bucket of the pair
      intro s
      rw [hmoved, kickOnce_buckets, Function.update_of_ne (altIndex_ne H _ _)]
      exact hthere s
    · intro s
      rw [hmoved, altIndex_altIndex, kickOnce_buckets, Function.update_self, slot_withSlot]
      split
      · exact hcur
      · exact hhere s

/-- Nothing more fits into a saturated pair. -/
theorem insertFingerprint_saturated (h : Saturated H hash p.buckets) :
    (insertFingerprint H hash p).2 = false := by
  have hfp := probe_fp_ne_zero H hash
  have hpair : PairFull H hash p.buckets :=
    ⟨full_iff.2 fun k => by rw [(h k).1]; exact hfp,
      full_iff.2 fun k => by rw [(h k).2]; exact hfp⟩
  have hfail : (kickLoop H maxKicks (evictionStart H hash p)).2 = false := by
    refine kickLoop_saturated hfp _ _ rfl ?_ ?_
    · unfold evictionStart
      dsimp only
      split
      · intro s
        exact (h s).1
      · intro s
        exact (h s).2
    · unfold evictionStart
      dsimp only
      split
      · intro s
        exact (h s).2
      · rw [altIndex_altIndex]
        intro s
        exact (h s).1
  rw [insertFingerprint_evict hpair]
  rcases hres : kickLoop H maxKicks (evictionStart H hash p) with ⟨k, ok⟩
  rw [hres] at hfail
  dsimp only at hfail
  rw [hfail]
  rfl

theorem insertFingerprint_laneStep (H : Xxh3) (hash : BlockHash) (p : CkfProducer) :
    LaneStep p (insertFingerprint H hash p).1 := by
  by_cases hpair : PairFull H hash p.buckets
  · rw [insertFingerprint_evict hpair]
    have hinv : KickInv H p.buckets _ _ (evictionStart H hash p) := evictionStart_inv
    have hfull := evictionStart_full hpair
    rcases hres : kickLoop H maxKicks (evictionStart H hash p) with ⟨k, ok⟩
    cases ok with
    | true =>
      -- the changed buckets are the final one and the touched ones
      have hchain := (kickLoop_true _ _ hinv hfull hres).2
      refine ⟨⟨?_, fun j hj => ?_, rfl⟩, rfl, rfl⟩
      · exact (Finset.subset_insert _ _).trans Finset.subset_union_left
      · rcases hchain j hj with rfl | hmem
        · exact Finset.mem_union_left _ (Finset.mem_insert_self _ _)
        · exact Finset.mem_union_right _ (List.mem_toFinset.2 hmem)
    | false =>
      -- the lane is as it was, so nothing has changed
      have hchain := kickLoop_false _ _ hinv hfull hres
      exact ⟨⟨fun _ h => h, fun j hj => absurd (congrFun hchain j) hj, rfl⟩, rfl, rfl⟩
  · exact (insertFingerprint_direct hpair).2.2.2

/-! ## Deletion -/

/-- `deleteFingerprint` is a deletion in the lane; the bucket it changes becomes
dirty and the counter goes down. -/
theorem deleteFingerprint_spec (H : Xxh3) (hash : BlockHash) (p : CkfProducer) :
    (deleteFingerprint H hash p).buckets = (laneDelete H hash p.buckets).1 ∧
      (PairHolds H hash p.buckets → (deleteFingerprint H hash p).numItems = p.numItems - 1) ∧
      LaneStep p (deleteFingerprint H hash p) := by
  have hfp := probe_fp_ne_zero H hash
  by_cases hA : fpOf H hash ∈ fps (p.buckets (bucketA H hash))
  · have hok := (tryDelete_snd _ hfp).2 hA
    rw [laneDelete_primary hA]
    simp only [deleteFingerprint, hok, if_true]
    exact ⟨trivial, fun _ => trivial, laneStep_update _ _ _ _⟩
  · have hokA := tryDelete_of_not_mem hfp hA
    by_cases hB : fpOf H hash ∈ fps (p.buckets (bucketB H hash))
    · have hokB := (tryDelete_snd _ hfp).2 hB
      rw [laneDelete_alternate hA hB]
      simp only [deleteFingerprint, hokA, hokB, Bool.false_eq_true, if_false, if_true]
      exact ⟨trivial, fun _ => trivial, laneStep_update _ _ _ _⟩
    · -- neither bucket has it: nothing is written
      have hokB := tryDelete_of_not_mem hfp hB
      have hnone : ¬ PairHolds H hash p.buckets := not_or.2 ⟨hA, hB⟩
      rw [laneDelete_none hnone]
      simp only [deleteFingerprint, hokA, hokB, Bool.false_eq_true, if_false]
      exact ⟨trivial, fun h => absurd h hnone, .refl p⟩

/-- A deletion takes one copy of the fingerprint out of its candidate pair. -/
theorem deleteFingerprint_deleted (h : PairHolds H hash p.buckets) :
    Cuckoo.Deleted (addressing H) (table p.buckets) (table (deleteFingerprint H hash p).buckets)
        (probe H hash).2 (probe H hash).1 ∧
      (deleteFingerprint H hash p).numItems = p.numItems - 1 := by
  obtain ⟨hbuckets, hnum, _⟩ := deleteFingerprint_spec H hash p
  rw [hbuckets]
  exact ⟨laneDelete_deleted h, hnum h⟩

/-- Without a copy in the pair a deletion does nothing. -/
theorem deleteFingerprint_none (h : ¬ PairHolds H hash p.buckets) :
    deleteFingerprint H hash p = p := by
  have hfp := probe_fp_ne_zero H hash
  have hokA := tryDelete_of_not_mem hfp fun hA => h (Or.inl hA)
  have hokB := tryDelete_of_not_mem hfp fun hB => h (Or.inr hB)
  simp only [deleteFingerprint, hokA, hokB, Bool.false_eq_true, if_false]

theorem deleteFingerprint_laneStep (H : Xxh3) (hash : BlockHash) (p : CkfProducer) :
    LaneStep p (deleteFingerprint H hash p) := (deleteFingerprint_spec H hash p).2.2

end Lane

end CkfProducer

end HierKvGateway
