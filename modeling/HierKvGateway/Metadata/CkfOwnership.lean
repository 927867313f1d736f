import HierKvGateway.Lib.Saturating
import HierKvGateway.Lib.Update
import HierKvGateway.Metadata.CkfProducer

/-!
# Metadata.CkfOwnership — the ownership tables of the producer

The producer keeps three redundant records: the owners and reference count of a
hash, the hashes of a backend, and the number of stored fingerprints. This file
proves that they agree in every reachable state.

An event is first cut into operations on single hashes (`HashOp`), so that one
step lemma per operation serves every invariant. The loop of `apply_clear` takes
the backend out of the reverse table *before* it visits the hashes; inside the
loop the reverse table is therefore read as if it still held the hashes not yet
visited, which is why `Ownership` takes that table as a parameter.
-/

namespace HierKvGateway

namespace CkfProducer

/-! ## Events as operations on single hashes -/

/-- What an event does to the producer, one hash at a time. -/
inductive HashOp where
  | stored (hash : BlockHash) (worker : BackendId)
  | removed (hash : BlockHash) (worker : BackendId)
  | unindexed (worker : BackendId)
  | cleared (hash : BlockHash) (worker : BackendId)
  | reset

/-- The producer after one operation. -/
def hashStep (H : Xxh3) (p : CkfProducer) : HashOp → CkfProducer
  | .stored hash worker => applyStored H hash worker p
  | .removed hash worker => applyRemoved H hash worker p
  | .unindexed worker => { p with workerHashes := Function.update p.workerHashes worker none }
  | .cleared hash worker => clearHash H worker p hash
  | .reset => resetInternal p

/-- The hashes a backend holds according to the reverse table. -/
def heldBy (p : CkfProducer) (worker : BackendId) : Finset BlockHash :=
  (p.workerHashes worker).getD ∅

/-- The operations of an event applied to the producer `p`. -/
def hashOps (order : IterOrder) (event : KvCacheEvent) (backend : BackendId) (p : CkfProducer) :
    List HashOp :=
  match event with
  | .stored _ blockHashes _ _ => blockHashes.map (.stored · backend)
  | .removed _ blockHashes => blockHashes.map (.removed · backend)
  | .clear _ => .unindexed backend :: (order.list (p.heldBy backend)).map (.cleared · backend)
  | .reset _ _ => [.reset]

theorem applyEvent_eq_foldl (H : Xxh3) (order : IterOrder) (event : KvCacheEvent)
    (backend : BackendId) (p : CkfProducer) :
    applyEvent H order event backend p = (hashOps order event backend p).foldl (hashStep H) p := by
  cases event with
  | stored worker blockHashes parentHash numBlockTokens =>
    rw [applyEvent, hashOps, List.foldl_map]
    rfl
  | removed worker blockHashes =>
    rw [applyEvent, hashOps, List.foldl_map]
    rfl
  | clear worker =>
    rw [applyEvent, applyClear, hashOps, List.foldl_cons, List.foldl_map]
    rfl
  | reset worker generation => rfl

/-! ## Agreement of the two ownership tables -/

/-- The owners of a hash; untracked hashes have none. -/
def ownersIn (refs : BlockHash → Option HashEntry) (hash : BlockHash) : Finset BackendId :=
  ((refs hash).getD HashEntry.default).owners

/-- The owners the producer records for a hash. -/
def owners (p : CkfProducer) (hash : BlockHash) : Finset BackendId := ownersIn p.hashRefcount hash

/-- Every entry counts its owners and has at least one. -/
def CountsOwners (refs : BlockHash → Option HashEntry) : Prop :=
  ∀ h e, refs h = some e → e.refcount = e.owners.card ∧ 1 ≤ e.refcount

/-- The entries count their owners, and `held` is the reverse of the owners
table. -/
structure Ownership (refs : BlockHash → Option HashEntry)
    (held : BackendId → Finset BlockHash) : Prop where
  refcount : CountsOwners refs
  index : ∀ h w, h ∈ held w ↔ w ∈ ownersIn refs h

section Tables

variable {refs : BlockHash → Option HashEntry} {held : BackendId → Finset BlockHash}
  {hash : BlockHash} {worker : BackendId} {entry : HashEntry}

theorem ownersIn_some (h : refs hash = some entry) : ownersIn refs hash = entry.owners := by
  rw [ownersIn, h, Option.getD_some]

theorem ownersIn_none (h : refs hash = none) : ownersIn refs hash = ∅ := by
  rw [ownersIn, h, Option.getD_none]
  rfl

/-- A hash with an owner is tracked. -/
theorem exists_entry (h : worker ∈ ownersIn refs hash) :
    ∃ e, refs hash = some e ∧ worker ∈ e.owners := by
  cases he : refs hash with
  | none =>
    rw [ownersIn_none he] at h
    exact absurd h (Finset.notMem_empty _)
  | some e => exact ⟨e, rfl, ownersIn_some he ▸ h⟩

/-- A hash without owners is not tracked. -/
theorem CountsOwners.untracked (hc : CountsOwners refs) (h : ownersIn refs hash = ∅) :
    refs hash = none := by
  cases he : refs hash with
  | none => rfl
  | some e =>
    obtain ⟨hcard, hpos⟩ := hc hash e he
    rw [ownersIn_some he] at h
    rw [h, Finset.card_empty] at hcard
    omega

theorem ownersIn_update (o : Option HashEntry) (h : BlockHash) :
    ownersIn (Function.update refs hash o) h =
      if h = hash then (o.getD HashEntry.default).owners else ownersIn refs h := by
  by_cases hh : h = hash
  · subst hh
    rw [if_pos rfl, ownersIn, Function.update_self]
  · rw [if_neg hh, ownersIn, Function.update_of_ne hh, ownersIn]

/-- The entry with one more owner. -/
def joined (worker : BackendId) (entry : HashEntry) : HashEntry :=
  ⟨entry.refcount + 1, insert worker entry.owners⟩

/-- The entry `dropOwner` leaves behind, or nothing after the last owner. -/
def dropped (worker : BackendId) (entry : HashEntry) : Option HashEntry :=
  if entry.refcount - 1 = 0 then none else some ⟨entry.refcount - 1, entry.owners.erase worker⟩

/-- The counter of an entry as the source stores it, in 32 bits. -/
def refcountU32 (entry : HashEntry) : BitVec 32 := BitVec.ofNat 32 entry.refcount

/-- With the counter of the source an entry gains and loses an owner, and is found to have lost the
last one, as it is here. -/
structure FitsU32 (entry : HashEntry) : Prop where
  joined : ∀ worker, refcountU32 (joined worker entry) = refcountU32 entry + 1
  dropped : ∀ worker e, dropped worker entry = some e →
    refcountU32 e = Saturating.sub (refcountU32 entry) 1
  last : ∀ worker, CkfProducer.dropped worker entry = none ↔
    Saturating.sub (refcountU32 entry) 1 = 0

theorem fitsU32 (hpos : 1 ≤ entry.refcount) (h : entry.refcount < 2 ^ 32) : FitsU32 entry := by
  have hsub : BitVec.ofNat 32 (entry.refcount - 1) = Saturating.sub (refcountU32 entry) 1 :=
    Saturating.ofNat_sub h hpos
  constructor
  case joined => exact fun _ => BitVec.ofNat_add entry.refcount 1
  case dropped =>
    intro worker e he
    unfold CkfProducer.dropped at he
    split at he
    · exact absurd he.symm (Option.some_ne_none e)
    · rcases Option.some.inj he with rfl
      exact hsub
  case last =>
    intro worker
    rw [← hsub, Saturating.ofNat_eq_zero_iff (by omega)]
    unfold CkfProducer.dropped
    split
    · rename_i hzero
      exact iff_of_true rfl hzero
    · rename_i hne
      exact iff_of_false (Option.some_ne_none _) hne

theorem CountsOwners.add (hc : CountsOwners refs)
    (hnew : worker ∉ ((refs hash).getD HashEntry.default).owners) :
    CountsOwners (Function.update refs hash
      (some (joined worker ((refs hash).getD HashEntry.default)))) := by
  intro h e he
  rcases Function.update_cases he with ⟨rfl, heq⟩ | ⟨-, he⟩
  · rcases Option.some.inj heq with rfl
    -- a hash without an entry counts no owners
    have hold : ((refs h).getD HashEntry.default).refcount =
        ((refs h).getD HashEntry.default).owners.card := by
      cases hr : refs h with
      | none => rfl
      | some e => exact (hc h e hr).1
    exact ⟨by rw [joined, Finset.card_insert_of_notMem hnew, hold], Nat.le_add_left _ _⟩
  · exact hc h e he

theorem CountsOwners.drop (hc : CountsOwners refs) (he : refs hash = some entry)
    (hw : worker ∈ entry.owners) :
    CountsOwners (Function.update refs hash (dropped worker entry)) := by
  intro h e hupd
  obtain ⟨hcard, hpos⟩ := hc hash entry he
  rcases Function.update_cases hupd with ⟨rfl, heq⟩ | ⟨-, hold⟩
  · unfold dropped at heq
    by_cases hlast : entry.refcount - 1 = 0
    · rw [if_pos hlast] at heq
      exact absurd heq.symm (Option.some_ne_none e)
    · -- owners remain: count and set lose one each
      rw [if_neg hlast] at heq
      rcases Option.some.inj heq with rfl
      exact ⟨by rw [Finset.card_erase_of_mem hw, hcard], Nat.one_le_iff_ne_zero.2 hlast⟩
  · exact hc h e hold

/-- The reference count says whether the owner dropped is the last one. -/
theorem CountsOwners.last_iff (hc : CountsOwners refs) (he : refs hash = some entry)
    (hw : worker ∈ entry.owners) : entry.refcount - 1 = 0 ↔ entry.owners = {worker} := by
  obtain ⟨hcard, hpos⟩ := hc hash entry he
  constructor
  · intro hlast
    obtain ⟨w, hw'⟩ := Finset.card_eq_one.1 (show entry.owners.card = 1 by omega)
    rw [hw', Finset.mem_singleton] at hw
    rw [hw', hw]
  · intro hsingle
    rw [hsingle, Finset.card_singleton] at hcard
    omega

/-- A new owner keeps the tables in agreement. -/
theorem Ownership.add (ho : Ownership refs held)
    (hnew : worker ∉ ((refs hash).getD HashEntry.default).owners) :
    Ownership
      (Function.update refs hash (some (joined worker ((refs hash).getD HashEntry.default))))
      (Function.update held worker (insert hash (held worker))) where
  refcount := ho.refcount.add hnew
  index h w := by
    have hidx := ho.index h w
    rw [ownersIn_update]
    by_cases hw : w = worker
    · subst hw
      rw [Function.update_self, Finset.mem_insert]
      by_cases hh : h = hash
      · subst hh
        simp [joined]
      · simpa [hh] using hidx
    · rw [Function.update_of_ne hw, hidx]
      by_cases hh : h = hash
      · subst hh
        simp [joined, hw, ownersIn]
      · rw [if_neg hh]

/-- Dropping an owner keeps the tables in agreement. -/
theorem Ownership.drop (ho : Ownership refs held) (he : refs hash = some entry)
    (hw : worker ∈ entry.owners) :
    Ownership (Function.update refs hash (dropped worker entry))
      (Function.update held worker ((held worker).erase hash)) where
  refcount := ho.refcount.drop he hw
  index h w := by
    have hidx := ho.index h w
    -- an entry that goes had no other owners to lose
    have hafter : ((dropped worker entry).getD HashEntry.default).owners =
        entry.owners.erase worker := by
      unfold dropped
      by_cases hlast : entry.refcount - 1 = 0
      · rw [if_pos hlast, (ho.refcount.last_iff he hw).1 hlast, Finset.erase_singleton]
        rfl
      · rw [if_neg hlast]
        rfl
    rw [ownersIn_update, hafter]
    by_cases hwk : w = worker
    · subst hwk
      rw [Function.update_self, Finset.mem_erase, hidx]
      by_cases hh : h = hash
      · subst hh
        simp
      · simp [hh]
    · rw [Function.update_of_ne hwk, hidx]
      by_cases hh : h = hash
      · subst hh
        rw [if_pos rfl, ownersIn_some he, Finset.mem_erase]
        exact (and_iff_right hwk).symm
      · rw [if_neg hh]

/-- Empty tables agree. -/
theorem Ownership.empty : Ownership (fun _ => none) (fun _ => ∅) where
  refcount h e he := absurd he (by simp)
  index h w := by simp [ownersIn, HashEntry.default]

end Tables

/-! ## What one operation does -/

section Step

variable {H : Xxh3} {hash : BlockHash} {worker : BackendId} {entry : HashEntry} {p : CkfProducer}

theorem heldBy_update (p : CkfProducer) (o : Option (Finset BlockHash)) :
    heldBy { p with workerHashes := Function.update p.workerHashes worker o } =
      Function.update p.heldBy worker (o.getD ∅) := by
  funext w
  by_cases hw : w = worker
  · subst hw
    simp [heldBy]
  · simp [heldBy, hw]

theorem addOwner_hashRefcount (p : CkfProducer) (hash : BlockHash) (worker : BackendId) :
    (addOwner hash worker p).hashRefcount = Function.update p.hashRefcount hash
      (some (joined worker ((p.hashRefcount hash).getD HashEntry.default))) := rfl

theorem addOwner_heldBy (p : CkfProducer) (hash : BlockHash) (worker : BackendId) :
    (addOwner hash worker p).heldBy =
      Function.update p.heldBy worker (insert hash (p.heldBy worker)) :=
  heldBy_update p _

/-- The three outcomes of `apply_stored` for one hash. -/
theorem applyStored_cases (H : Xxh3) (hash : BlockHash) (worker : BackendId) (p : CkfProducer) :
    (worker ∈ p.owners hash ∧ applyStored H hash worker p = p) ∨
    (worker ∉ p.owners hash ∧ p.owners hash ≠ ∅ ∧
      applyStored H hash worker p = addOwner hash worker p) ∨
    (p.owners hash = ∅ ∧
      applyStored H hash worker p = (insertFingerprint H hash (addOwner hash worker p)).1) := by
  unfold applyStored
  by_cases hw : worker ∈ (p.entryOrDefault hash).owners
  · exact Or.inl ⟨hw, by simp [hw]⟩
  · by_cases hempty : (p.entryOrDefault hash).owners = ∅
    · refine Or.inr (Or.inr ⟨hempty, ?_⟩)
      simp [hempty]
    · refine Or.inr (Or.inl ⟨hw, hempty, ?_⟩)
      simp [hw, hempty]

/-- `dropOwner` on the last owner deletes the fingerprint and the entry. -/
theorem dropOwner_last (h : entry.refcount - 1 = 0) :
    dropOwner H hash worker entry p =
      { deleteFingerprint H hash p with
        hashRefcount := Function.update p.hashRefcount hash (dropped worker entry) } := by
  have hrefs := (deleteFingerprint_laneStep H hash p).hashRefcount
  simp only [dropOwner, dropped, if_pos h, hrefs]

/-- `dropOwner` on any other owner only updates the entry. -/
theorem dropOwner_keep (h : ¬ entry.refcount - 1 = 0) :
    dropOwner H hash worker entry p =
      { p with hashRefcount := Function.update p.hashRefcount hash (dropped worker entry) } := by
  rw [dropOwner, if_neg h, dropped, if_neg h]

theorem dropOwner_hashRefcount :
    (dropOwner H hash worker entry p).hashRefcount =
      Function.update p.hashRefcount hash (dropped worker entry) := by
  by_cases h : entry.refcount - 1 = 0
  · rw [dropOwner_last h]
  · rw [dropOwner_keep h]

theorem dropOwner_workerHashes :
    (dropOwner H hash worker entry p).workerHashes = p.workerHashes := by
  by_cases h : entry.refcount - 1 = 0
  · rw [dropOwner_last h]
    exact (deleteFingerprint_laneStep H hash p).workerHashes
  · rw [dropOwner_keep h]

theorem dropOwner_heldBy : (dropOwner H hash worker entry p).heldBy = p.heldBy := by
  funext w
  rw [heldBy, heldBy, dropOwner_workerHashes]

theorem unlist_heldBy (p : CkfProducer) (hash : BlockHash) (worker : BackendId) :
    (unlist hash worker p).heldBy =
      Function.update p.heldBy worker ((p.heldBy worker).erase hash) := by
  cases hs : p.workerHashes worker with
  | some s =>
    have hupd := @heldBy_update worker p (some (s.erase hash))
    simp only [unlist, hs]
    rw [hupd, heldBy, hs]
    rfl
  | none =>
    simp only [unlist, hs]
    funext w
    by_cases hw : w = worker
    · subst hw
      simp [heldBy, hs]
    · rw [Function.update_of_ne hw]

/-- The two outcomes of `apply_removed` for one hash. -/
theorem applyRemoved_cases (H : Xxh3) (hash : BlockHash) (worker : BackendId) (p : CkfProducer) :
    (worker ∉ p.owners hash ∧ applyRemoved H hash worker p = p) ∨
    (∃ e, p.hashRefcount hash = some e ∧ worker ∈ e.owners ∧
      applyRemoved H hash worker p = dropOwner H hash worker e (unlist hash worker p)) := by
  cases he : p.hashRefcount hash with
  | none =>
    refine Or.inl ⟨?_, ?_⟩
    · rw [owners, ownersIn_none he]
      exact Finset.notMem_empty _
    · rw [applyRemoved, he]
  | some e =>
    by_cases hw : worker ∈ e.owners
    · refine Or.inr ⟨e, rfl, hw, ?_⟩
      simp only [applyRemoved, he, if_pos hw]
    · refine Or.inl ⟨?_, ?_⟩
      · rw [owners, ownersIn_some he]
        exact hw
      · simp only [applyRemoved, he, if_neg hw]

theorem clearHash_none (h : p.hashRefcount hash = none) : clearHash H worker p hash = p := by
  rw [clearHash, h]

theorem clearHash_some (h : p.hashRefcount hash = some entry) :
    clearHash H worker p hash = dropOwner H hash worker entry p := by
  rw [clearHash, h]

/-! ## The owners and the reverse table -/

theorem applyStored_ownership (ho : Ownership p.hashRefcount p.heldBy) :
    Ownership (applyStored H hash worker p).hashRefcount (applyStored H hash worker p).heldBy := by
  rcases applyStored_cases H hash worker p with ⟨_, hp⟩ | ⟨hw, _, hp⟩ | ⟨hempty, hp⟩
  · -- already an owner
    rw [hp]
    exact ho
  · -- another owner
    rw [hp, addOwner_heldBy]
    exact ho.add hw
  · -- the first owner
    have hstep := insertFingerprint_laneStep H hash (addOwner hash worker p)
    have hheld : (insertFingerprint H hash (addOwner hash worker p)).1.heldBy =
        (addOwner hash worker p).heldBy := by
      funext w
      rw [heldBy, heldBy, hstep.workerHashes]
    have hnew : worker ∉ p.owners hash := by
      rw [hempty]
      exact Finset.notMem_empty _
    rw [hp, hstep.hashRefcount, hheld, addOwner_heldBy]
    exact ho.add hnew

theorem applyRemoved_ownership (ho : Ownership p.hashRefcount p.heldBy) :
    Ownership (applyRemoved H hash worker p).hashRefcount
      (applyRemoved H hash worker p).heldBy := by
  rcases applyRemoved_cases H hash worker p with ⟨_, hp⟩ | ⟨e, he, hw, hp⟩
  · rw [hp]
    exact ho
  · rw [hp, dropOwner_hashRefcount, dropOwner_heldBy, unlist_heldBy]
    exact ho.drop he hw

/-- `apply_clear` only visits hashes of its own backend; the other operations
have no such condition. -/
def Valid (p : CkfProducer) : HashOp → Prop
  | .cleared hash worker => worker ∈ p.owners hash
  | _ => True

/-- Inserting the fingerprint leaves the entries of `addOwner` alone. -/
theorem insertFingerprint_addOwner_hashRefcount :
    (insertFingerprint H hash (addOwner hash worker p)).1.hashRefcount =
      Function.update p.hashRefcount hash
        (some (joined worker ((p.hashRefcount hash).getD HashEntry.default))) :=
  (insertFingerprint_laneStep H hash (addOwner hash worker p)).hashRefcount

theorem hashStep_countsOwners (hc : CountsOwners p.hashRefcount) (op : HashOp)
    (hvalid : Valid p op) : CountsOwners (hashStep H p op).hashRefcount := by
  cases op with
  | stored hash worker =>
    rcases applyStored_cases H hash worker p with ⟨_, hp⟩ | ⟨hw, _, hp⟩ | ⟨hempty, hp⟩
    · rw [hashStep, hp]
      exact hc
    · rw [hashStep, hp]
      exact hc.add hw
    · -- the insertion looks at the lane only
      rw [hashStep, hp, insertFingerprint_addOwner_hashRefcount]
      have hnew : worker ∉ p.owners hash := by
        rw [hempty]
        exact Finset.notMem_empty _
      exact hc.add hnew
  | removed hash worker =>
    rcases applyRemoved_cases H hash worker p with ⟨_, hp⟩ | ⟨e, he, hw, hp⟩
    · rw [hashStep, hp]
      exact hc
    · rw [hashStep, hp, dropOwner_hashRefcount]
      exact hc.drop he hw
  | unindexed worker => exact hc
  | cleared hash worker =>
    obtain ⟨e, he, hw⟩ := exists_entry hvalid
    rw [hashStep, clearHash_some he, dropOwner_hashRefcount]
    exact hc.drop he hw
  | reset => exact Ownership.empty.refcount

/-- The loop of `apply_clear`. Read with the hashes still to visit, the reverse
table agrees with the owners table at every iteration. -/
theorem clear_loop (H : Xxh3) (worker : BackendId) :
    ∀ (l : List BlockHash) (p : CkfProducer), l.Nodup →
      Ownership p.hashRefcount (Function.update p.heldBy worker l.toFinset) →
      Run.Each (hashStep H) Valid p (l.map (.cleared · worker)) ∧
      ((l.map (.cleared · worker)).foldl (hashStep H) p).heldBy = p.heldBy ∧
      Ownership ((l.map (.cleared · worker)).foldl (hashStep H) p).hashRefcount
        (Function.update p.heldBy worker ∅) := by
  intro l
  induction l with
  | nil =>
    intro p _ ho
    exact ⟨trivial, rfl, ho⟩
  | cons hash l ih =>
    intro p hnodup ho
    obtain ⟨hnotin, hnodup⟩ := List.nodup_cons.1 hnodup
    -- the backend owns the next hash, so the hash is tracked
    have hheld : hash ∈ Function.update p.heldBy worker (hash :: l).toFinset worker := by
      rw [Function.update_self]
      exact List.mem_toFinset.2 List.mem_cons_self
    have hown : worker ∈ p.owners hash := (ho.index hash worker).1 hheld
    obtain ⟨e, he, hw⟩ := exists_entry hown
    have hstep : clearHash H worker p hash = dropOwner H hash worker e p := clearHash_some he
    have ho' : Ownership (dropOwner H hash worker e p).hashRefcount
        (Function.update (dropOwner H hash worker e p).heldBy worker l.toFinset) := by
      have hdrop := ho.drop he hw
      rw [Function.update_self, List.toFinset_cons, Function.update_idem,
        Finset.erase_insert (fun h => hnotin (List.mem_toFinset.1 h))] at hdrop
      rw [dropOwner_hashRefcount, dropOwner_heldBy]
      exact hdrop
    obtain ⟨hvalid, hsame, hfinal⟩ := ih _ hnodup ho'
    rw [dropOwner_heldBy] at hsame hfinal
    rw [List.map_cons, List.foldl_cons, Run.each_cons, hashStep, hstep]
    exact ⟨⟨hown, hvalid⟩, hsame, hfinal⟩

/-! ## The counter of stored fingerprints -/

/-- `num_items` is the number of stored fingerprints. -/
def Counted (p : CkfProducer) : Prop := p.numItems = Cuckoo.size (table p.buckets)

theorem insertFingerprint_counted (hc : Counted p) :
    Counted (insertFingerprint H hash p).1 := by
  unfold Counted at hc ⊢
  cases hok : (insertFingerprint H hash p).2 with
  | true =>
    obtain ⟨hins, hnum⟩ := insertFingerprint_inserted hok
    have hsize := hins.size
    omega
  | false =>
    obtain ⟨hbuckets, hnum, _⟩ := insertFingerprint_failed hok
    rw [hnum, hbuckets]
    exact hc

theorem deleteFingerprint_counted (hc : Counted p) : Counted (deleteFingerprint H hash p) := by
  by_cases hpair : PairHolds H hash p.buckets
  · obtain ⟨hdel, hnum⟩ := deleteFingerprint_deleted hpair
    have hsize := hdel.size
    unfold Counted at hc ⊢
    omega
  · rw [deleteFingerprint_none hpair]
    exact hc

theorem dropOwner_counted (hc : Counted p) : Counted (dropOwner H hash worker entry p) := by
  by_cases hlast : entry.refcount - 1 = 0
  · rw [dropOwner_last hlast]
    exact deleteFingerprint_counted hc
  · rw [dropOwner_keep hlast]
    exact hc

theorem size_empty : Cuckoo.size (table fun _ => 0) = 0 :=
  Finset.sum_eq_zero fun i _ => by rw [table_apply, fps_zero, Multiset.card_zero]

/-- No operation of the producer breaks the counter. -/
theorem hashStep_counted (hc : Counted p) (op : HashOp) : Counted (hashStep H p op) := by
  cases op with
  | stored hash worker =>
    rcases applyStored_cases H hash worker p with ⟨_, hp⟩ | ⟨_, _, hp⟩ | ⟨_, hp⟩
    · rw [hashStep, hp]
      exact hc
    · rw [hashStep, hp]
      exact hc
    · rw [hashStep, hp]
      exact insertFingerprint_counted hc
  | removed hash worker =>
    rcases applyRemoved_cases H hash worker p with ⟨_, hp⟩ | ⟨e, _, _, hp⟩
    · rw [hashStep, hp]
      exact hc
    · rw [hashStep, hp]
      exact dropOwner_counted hc
  | unindexed worker => exact hc
  | cleared hash worker =>
    cases he : p.hashRefcount hash with
    | none =>
      rw [hashStep, clearHash_none he]
      exact hc
    | some e =>
      rw [hashStep, clearHash_some he]
      exact dropOwner_counted hc
  | reset => exact size_empty.symm

/-! ## Reachable producers -/

/-- The tables agree and the counter is right. -/
structure Consistent (p : CkfProducer) : Prop where
  ownership : Ownership p.hashRefcount p.heldBy
  counted : Counted p

theorem withSeed_consistent (seed : BitVec 64) : Consistent (withSeed seed) :=
  ⟨Ownership.empty, size_empty.symm⟩

/-- `Clear` empties the backend's set and leaves those of the others alone. -/
theorem clear_spec (H : Xxh3) (order : IterOrder) (worker : WorkerWithRank) (backend : BackendId)
    (ho : Ownership p.hashRefcount p.heldBy) :
    Run.Each (hashStep H) Valid p (hashOps order (.clear worker) backend p) ∧
      (applyEvent H order (.clear worker) backend p).heldBy =
        Function.update p.heldBy backend ∅ ∧
      Ownership (applyEvent H order (.clear worker) backend p).hashRefcount
        (Function.update p.heldBy backend ∅) := by
  -- the reverse table loses the backend first, then the loop catches up
  have hunindexed : (hashStep H p (.unindexed backend)).heldBy =
      Function.update p.heldBy backend ∅ := heldBy_update p none
  have hstart : Ownership (hashStep H p (.unindexed backend)).hashRefcount
      (Function.update (hashStep H p (.unindexed backend)).heldBy backend
        (order.list (p.heldBy backend)).toFinset) := by
    have hlist : (order.list (p.heldBy backend)).toFinset = p.heldBy backend := by
      ext hash
      rw [List.mem_toFinset, order.mem]
    rw [hunindexed, Function.update_idem, hlist, Function.update_eq_self]
    exact ho
  obtain ⟨hvalid, hsame, hfinal⟩ := clear_loop H backend _ _ (order.nodup _) hstart
  rw [hunindexed, Function.update_idem] at hfinal
  rw [applyEvent_eq_foldl, hashOps, List.foldl_cons]
  exact ⟨⟨trivial, hvalid⟩, hsame.trans hunindexed, hfinal⟩

/-- Along the operations of an event every visited hash is owned, and the tables
agree again at its end. -/
theorem hashOps_ownership (H : Xxh3) (order : IterOrder) (event : KvCacheEvent)
    (backend : BackendId) (ho : Ownership p.hashRefcount p.heldBy) :
    Run.Each (hashStep H) Valid p (hashOps order event backend p) ∧
      Ownership (applyEvent H order event backend p).hashRefcount
        (applyEvent H order event backend p).heldBy := by
  rw [applyEvent_eq_foldl]
  cases event with
  | stored worker blockHashes parentHash numBlockTokens =>
    rw [hashOps, Run.each_map, List.foldl_map]
    refine ⟨Run.each_of_forall (fun _ _ => trivial) _ _, ?_⟩
    exact Run.foldl_preserves (P := fun p : CkfProducer => Ownership p.hashRefcount p.heldBy)
      (fun _ _ h => applyStored_ownership h) ho _
  | removed worker blockHashes =>
    rw [hashOps, Run.each_map, List.foldl_map]
    refine ⟨Run.each_of_forall (fun _ _ => trivial) _ _, ?_⟩
    exact Run.foldl_preserves (P := fun p : CkfProducer => Ownership p.hashRefcount p.heldBy)
      (fun _ _ h => applyRemoved_ownership h) ho _
  | clear worker =>
    obtain ⟨hvalid, hheld, hafter⟩ := clear_spec H order worker backend ho
    rw [applyEvent_eq_foldl] at hheld hafter
    exact ⟨hvalid, hheld ▸ hafter⟩
  | reset worker generation => exact ⟨⟨trivial, trivial⟩, Ownership.empty⟩

theorem applyEvent_consistent (H : Xxh3) (order : IterOrder) (event : KvCacheEvent)
    (backend : BackendId) (hp : Consistent p) :
    Consistent (applyEvent H order event backend p) where
  ownership := (hashOps_ownership H order event backend hp.ownership).2
  counted := by
    rw [applyEvent_eq_foldl]
    exact Run.foldl_preserves (P := Counted) (fun _ op h => hashStep_counted h op) hp.counted _

end Step

/-! ## Runs -/

/-- What the gateway calls on a producer. -/
inductive Op where
  | applyEvent (order : IterOrder) (event : KvCacheEvent) (backend : BackendId)
  | snapshot
  | delta

/-- The producer after one call. -/
def step (H : Xxh3) (p : CkfProducer) : Op → CkfProducer
  | .applyEvent order event backend => applyEvent H order event backend p
  | .snapshot => p.snapshot.1
  | .delta => p.delta.1

theorem step_consistent {H : Xxh3} {p : CkfProducer} (hp : Consistent p) (op : Op) :
    Consistent (step H p op) := by
  cases op with
  | applyEvent order event backend => exact applyEvent_consistent H order event backend hp
  | snapshot => exact ⟨hp.ownership, hp.counted⟩
  | delta =>
    rw [step, delta]
    split
    · exact hp
    · exact ⟨hp.ownership, hp.counted⟩

theorem run_consistent (H : Xxh3) (seed : BitVec 64) (ops : List Op) :
    Consistent (ops.foldl (step H) (withSeed seed)) :=
  Run.foldl_preserves (P := Consistent) (fun _ op h => step_consistent h op)
    (withSeed_consistent seed) ops

/-- The number of non-zero slots over all buckets. -/
def nonZeroSlots (lane : Lane) : Nat :=
  ∑ i : BucketIdx, (Finset.univ.filter fun k : Slot => slot (lane i) k ≠ 0#16).card

theorem size_table (lane : Lane) : Cuckoo.size (table lane) = nonZeroSlots lane :=
  Finset.sum_congr rfl fun i _ => card_fps (lane i)

/-- In every state a producer reaches, whatever its seed: reference counts are
owner counts and never zero, for which 32 bits suffice below 2^32 owners, the
reverse table is the reverse of the owners table, and `num_items` counts the
occupied slots. -/
theorem ownership_invariant (H : Xxh3) (seed : BitVec 64) (ops : List Op) :
    let p := ops.foldl (step H) (withSeed seed)
    (∀ h e, p.hashRefcount h = some e → e.refcount = e.owners.card ∧ 1 ≤ e.refcount ∧
      (e.owners.card < 2 ^ 32 → FitsU32 e)) ∧
    (∀ h w, (∃ s, p.workerHashes w = some s ∧ h ∈ s) ↔
      ∃ e, p.hashRefcount h = some e ∧ w ∈ e.owners) ∧
    p.numItems = nonZeroSlots p.buckets := by
  intro p
  have hp : Consistent p := run_consistent H seed ops
  refine ⟨fun h e he => ?_, fun h w => ?_, ?_⟩
  · obtain ⟨hcard, hpos⟩ := hp.ownership.refcount h e he
    exact ⟨hcard, hpos, fun hfits => fitsU32 hpos (hcard.trans_lt hfits)⟩
  · have hidx := hp.ownership.index h w
    constructor
    · rintro ⟨s, hs, hmem⟩
      have hheld : h ∈ p.heldBy w := by
        rw [heldBy, hs]
        exact hmem
      exact exists_entry (hidx.1 hheld)
    · rintro ⟨e, he, hw⟩
      have hheld : h ∈ p.heldBy w := hidx.2 (ownersIn_some he ▸ hw)
      cases hs : p.workerHashes w with
      | none =>
        rw [heldBy, hs] at hheld
        exact absurd hheld (Finset.notMem_empty h)
      | some s =>
        rw [heldBy, hs] at hheld
        exact ⟨s, rfl, hheld⟩
  · rw [← size_table]
    exact hp.counted

end CkfProducer

end HierKvGateway
