import HierKvGateway.Metadata.CkfProducer

/-!
# Metadata.CkfInsertion — an insertion happens as a whole or not at all

`insert_fingerprint` moves up to 500 fingerprints before it knows whether there is room, and may
come to the same bucket again and again. `CkfProducer.insert_atomic`: if it returns `true`, the
lane stores the new fingerprint and what it stored before, each in a candidate bucket of its own;
if it returns `false`, nothing has changed.

`CkfProducer.addressing_sound`: on the way every fingerprint that is displaced moves from one of its
own two candidate buckets to the other.
-/

namespace HierKvGateway

/-- The fingerprints of a lane, each with its two candidate buckets. -/
def storedIn (H : Xxh3) (lane : Lane) : Multiset (Fp × Sym2 BucketIdx) :=
  Cuckoo.stored (addressing H) (table lane)

/-- The fingerprint of a hash with its two candidate buckets. -/
def entryOf (H : Xxh3) (hash : BlockHash) : Fp × Sym2 BucketIdx :=
  (fpOf H hash, s(bucketA H hash, bucketB H hash))

namespace CkfProducer

/-- `p'` is `p` with the fingerprint of `hash` inserted. -/
structure Grown (H : Xxh3) (hash : BlockHash) (p p' : CkfProducer) : Prop where
  stored : storedIn H p'.buckets = entryOf H hash ::ₘ storedIn H p.buckets
  stays : ∀ i fp, fp ∈ fps (p.buckets i) →
    fp ∈ fps (p'.buckets i) ∨ fp ∈ fps (p'.buckets (altIndex H i fp))
  numItems : p'.numItems = p.numItems + 1
  dirty : p.dirtyBuckets ⊆ p'.dirtyBuckets
  changed : ∀ i, p'.buckets i ≠ p.buckets i → i ∈ p'.dirtyBuckets

/-- `p'` has the lane of `p`, its counter and its dirty buckets. -/
structure Unchanged (p p' : CkfProducer) : Prop where
  buckets : p'.buckets = p.buckets
  numItems : p'.numItems = p.numItems
  dirtyBuckets : p'.dirtyBuckets = p.dirtyBuckets

variable {H : Xxh3} {hash : BlockHash} {p : CkfProducer}

theorem grown_of_inserted (h : (insertFingerprint H hash p).2 = true) :
    Grown H hash p (insertFingerprint H hash p).1 := by
  rcases insertFingerprint_inserted h with ⟨hinserted, hnum⟩
  have htracked := (insertFingerprint_laneStep H hash p).toTracked
  constructor
  case stored => exact hinserted.stored
  case stays =>
    intro i fp hfp
    exact hinserted.stays hfp
  case numItems => exact hnum
  case dirty => exact htracked.dirty
  case changed => exact htracked.changed

theorem unchanged_of_failed (h : (insertFingerprint H hash p).2 = false) :
    Unchanged p (insertFingerprint H hash p).1 := by
  rcases insertFingerprint_failed h with ⟨hbuckets, hnum, hdirty⟩
  constructor
  · exact hbuckets
  · exact hnum
  · exact hdirty

/-- For any contents of the buckets and any state of the generator. -/
theorem insert_atomic (H : Xxh3) (hash : BlockHash) (p : CkfProducer) :
    if (insertFingerprint H hash p).2 then Grown H hash p (insertFingerprint H hash p).1
    else Unchanged p (insertFingerprint H hash p).1 := by
  split
  · rename_i h
    exact grown_of_inserted h
  · rename_i h
    exact unchanged_of_failed (Bool.eq_false_iff.2 h)

/-! ## The kick chain -/

/-- The states the eviction loop goes through, the first included. -/
def kickStates (H : Xxh3) : Nat → Kick → List Kick
  | 0, k => [k]
  | n + 1, k =>
    let next := kickOnce H k
    if (tryInsert (next.buckets next.currentBucket) next.currentFp).2 then [k, next]
    else k :: kickStates H n next

/-- The last attempt of the loop succeeded. -/
def placed (k : Kick) : Kick × Bool :=
  ({ k with
      buckets := Function.update k.buckets k.currentBucket
        (tryInsert (k.buckets k.currentBucket) k.currentFp).1 }, true)

/-- What is in hand, with its two candidate buckets. -/
def entryInHand (H : Xxh3) (k : Kick) : Fp × Sym2 BucketIdx :=
  (k.currentFp, (addressing H).pair k.currentBucket k.currentFp)

/-- From `k` to `k'` one fingerprint is taken out of a bucket, for the other one of its two
candidate buckets, and what was in hand is put in its place. -/
structure Displaced (H : Xxh3) (k k' : Kick) : Prop where
  fp_ne : k'.currentFp ≠ 0#16
  taken : k'.currentFp ∈ fps (k.buckets k.currentBucket)
  other : k'.currentBucket = altIndex H k.currentBucket k'.currentFp
  moves : k'.currentBucket ≠ k.currentBucket
  back : altIndex H k'.currentBucket k'.currentFp = k.currentBucket
  exchanged : fps (k'.buckets k.currentBucket) + {k'.currentFp} =
    fps (k.buckets k.currentBucket) + {k.currentFp}
  frame : ∀ j ≠ k.currentBucket, k'.buckets j = k.buckets j

variable {lane : Lane} {i : BucketIdx} {fp : Fp} {k : Kick}

theorem displaced_kickOnce (hk : KickInv H lane i fp k)
    (hfull : Full (k.buckets k.currentBucket)) : Displaced H k (kickOnce H k) := by
  have hevicted : (kickOnce H k).currentFp ≠ 0#16 := full_iff.1 hfull _
  have hreplaced := replaced_withSlot (full_iff.1 hfull (pickSlot (nextRandom k.rngState).2))
    hk.fp_ne
  constructor
  case fp_ne => exact hevicted
  case taken => exact mem_fps.2 ⟨hevicted, _, rfl⟩
  case other => rfl
  case moves => exact altIndex_ne H _ _
  case back => exact altIndex_altIndex H _ _
  case exchanged => exact hreplaced.bucket
  case frame =>
    intro j hj
    exact Function.update_of_ne hj _ _

theorem kickStates_eq (n : Nat) (k : Kick) :
    ∃ rest, kickStates H n k = k :: rest := by
  cases n with
  | zero => exact ⟨[], rfl⟩
  | succ n =>
    unfold kickStates
    dsimp only
    split
    · exact ⟨_, rfl⟩
    · exact ⟨_, rfl⟩

/-- Every kick displaces one fingerprint, and nothing gets lost or added. -/
theorem kickStates_chain (n : Nat) (hk : KickInv H lane i fp k)
    (hfull : Full (k.buckets k.currentBucket)) :
    (kickStates H n k).IsChain (Displaced H) ∧ ∀ k' ∈ kickStates H n k, KickInv H lane i fp k' := by
  induction n generalizing k with
  | zero =>
    refine ⟨List.isChain_singleton k, fun k' hk' => ?_⟩
    rw [List.mem_singleton.1 hk']
    exact hk
  | succ n ih =>
    have hnext := kickOnce_inv hk hfull
    have hmoved := displaced_kickOnce hk hfull
    unfold kickStates
    dsimp only
    split
    · -- there is room for what was displaced
      refine ⟨List.isChain_cons_cons.2 ⟨hmoved, List.isChain_singleton _⟩, fun k' hk' => ?_⟩
      rcases List.mem_cons.1 hk' with rfl | hk'
      · exact hk
      · rw [List.mem_singleton.1 hk']
        exact hnext
    · -- the next bucket is full as well
      rename_i hroom
      rcases ih hnext (not_not.1 (mt (tryInsert_snd _ _).2 hroom)) with ⟨hchain, hinv⟩
      rcases kickStates_eq (H := H) n (kickOnce H k) with ⟨rest, hrest⟩
      constructor
      · rw [hrest] at hchain ⊢
        exact List.isChain_cons_cons.2 ⟨hmoved, hchain⟩
      · intro k' hk'
        rcases List.mem_cons.1 hk' with rfl | hk'
        · exact hk
        · exact hinv k' hk'

/-- The loop ends in one of these states. -/
theorem kickLoop_mem_kickStates (n : Nat) (k : Kick) :
    ∃ last ∈ kickStates H n k, kickLoop H n k = placed last ∨ kickLoop H n k = (last, false) := by
  induction n generalizing k with
  | zero => exact ⟨k, List.mem_singleton_self k, Or.inr rfl⟩
  | succ n ih =>
    unfold kickStates kickLoop
    dsimp only
    split
    · exact ⟨kickOnce H k, List.mem_cons_of_mem _ (List.mem_singleton_self _), Or.inl rfl⟩
    · rcases ih (kickOnce H k) with ⟨last, hlast, hend⟩
      exact ⟨last, List.mem_cons_of_mem _ hlast, hend⟩

/-- For every hash function, and along the chain of every insertion that evicts. -/
theorem addressing_sound (H : Xxh3) :
    (∀ i fp, (altIndex H i fp).val < 65536 ∧ altIndex H i fp ≠ i ∧
      altIndex H (altIndex H i fp) fp = i) ∧
    (∀ hash, (probe H hash).1 ≠ 0#16 ∧ (probe H hash).2.val < 65536) ∧
    ∀ hash p, PairFull H hash p.buckets →
      (kickStates H maxKicks (evictionStart H hash p)).IsChain (Displaced H) ∧
      (∀ k ∈ kickStates H maxKicks (evictionStart H hash p),
        entryInHand H k ::ₘ storedIn H k.buckets = entryOf H hash ::ₘ storedIn H p.buckets) ∧
      ∃ last ∈ kickStates H maxKicks (evictionStart H hash p),
        insertFingerprint H hash p = finishEviction p (placed last) ∨
        insertFingerprint H hash p = finishEviction p (last, false) := by
  refine ⟨fun i fp => ?_, fun hash => ?_, fun hash p hfull => ?_⟩
  · exact ⟨(altIndex H i fp).isLt, altIndex_ne H i fp, altIndex_altIndex H i fp⟩
  · exact ⟨probe_fp_ne_zero H hash, (probe H hash).2.isLt⟩
  · rcases kickStates_chain maxKicks evictionStart_inv (evictionStart_full hfull) with
      ⟨hchain, hinv⟩
    refine ⟨hchain, fun k hk => (hinv k hk).inHand.stored, ?_⟩
    rcases kickLoop_mem_kickStates (H := H) maxKicks (evictionStart H hash p) with
      ⟨last, hlast, hend⟩
    refine ⟨last, hlast, ?_⟩
    rw [insertFingerprint_evict hfull]
    rcases hend with hend | hend
    · exact Or.inl (congrArg _ hend)
    · exact Or.inr (congrArg _ hend)

/-- A producer whose buckets are all full. -/
def allFull : CkfProducer := { new with buckets := fun _ => 0x0001000100010001#64 }

/-- A chain that finds no room. -/
theorem addressing_sound_allFull :
    (kickStates (fun _ _ => 0) maxKicks (evictionStart (fun _ _ => 0) 0 allFull)).IsChain
      (Displaced fun _ _ => 0) :=
  ((addressing_sound fun _ _ => 0).2.2 0 allFull (by decide)).1

end CkfProducer

end HierKvGateway
