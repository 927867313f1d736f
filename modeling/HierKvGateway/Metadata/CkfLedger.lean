import HierKvGateway.Metadata.CkfOwnership
import HierKvGateway.Metadata.Xxh3

/-!
# Metadata.CkfLedger — whose fingerprints the producer stores

Beside the producer runs a ghost ledger: the tracked hashes whose
`insert_fingerprint` returned `true`. The producer is *exact* when every
candidate pair stores one copy of a fingerprint for each such hash.

The source keeps a hash tracked when its insertion failed, and releases it by
`delete_fingerprint` like any other. Such a release takes out a copy that
belongs to another hash, if the pair stores one. This is the only way to lose
exactness: `step_exact_iff` says which steps keep it, and `exact_iff_clean`
says so for whole runs.
-/

namespace HierKvGateway

namespace CkfProducer

/-! ## The ledger -/

/-- A producer together with the tracked hashes whose insertion succeeded. -/
structure Ledger where
  producer : CkfProducer
  inserted : Finset BlockHash

/-- A new producer and an empty ledger. -/
def Ledger.start (seed : BitVec 64) : Ledger := ⟨withSeed seed, ∅⟩

/-- The hash the operation inserts successfully, if it does. -/
def newlyInserted (H : Xxh3) (p : CkfProducer) : HashOp → Finset BlockHash
  | .stored hash worker =>
    if p.owners hash = ∅ ∧ (insertFingerprint H hash (addOwner hash worker p)).2 = true then {hash}
    else ∅
  | _ => ∅

/-- One operation, with its effect on the ledger. -/
def ledgerStep (H : Xxh3) (t : Ledger) (op : HashOp) : Ledger :=
  let p := hashStep H t.producer op
  { producer := p
    inserted := (t.inserted ∪ newlyInserted H t.producer op).filter
      fun h => (p.hashRefcount h).isSome }

/-- The number of slots of a bucket that hold `fp`. -/
def slotsHolding (b : PackedBucket) (fp : Fp) : Nat :=
  (Finset.univ.filter fun k : Slot => slot b k = fp).card

/-- `hash` has the fingerprint `fp` and the candidate pair of bucket `i`. -/
def HasPair (H : Xxh3) (i : BucketIdx) (fp : Fp) (hash : BlockHash) : Prop :=
  (probe H hash).1 = fp ∧ ((probe H hash).2 = i ∨ (probe H hash).2 = altIndex H i fp)

instance (H : Xxh3) (i : BucketIdx) (fp : Fp) (hash : BlockHash) :
    Decidable (HasPair H i fp hash) := inferInstanceAs (Decidable (_ ∧ _))

/-- Every pair holds as many copies of a fingerprint as the ledger has hashes
with that fingerprint and pair. -/
def Exact (H : Xxh3) (t : Ledger) : Prop :=
  ∀ i fp, fp ≠ 0#16 →
    slotsHolding (t.producer.buckets i) fp + slotsHolding (t.producer.buckets (altIndex H i fp)) fp =
      (t.inserted.filter fun h => HasPair H i fp h).card

/-- The operation takes the last owner from `hash`. -/
def Releases (p : CkfProducer) (hash : BlockHash) : HashOp → Prop
  | .removed x worker => x = hash ∧ p.owners hash = {worker}
  | .cleared x worker => x = hash ∧ p.owners hash = {worker}
  | _ => False

/-- A hash that was never inserted is released only while its pair stores no
copy of its fingerprint. -/
def Clean (H : Xxh3) (t : Ledger) (op : HashOp) : Prop :=
  ∀ hash, Releases t.producer hash op → hash ∉ t.inserted → ¬ PairHolds H hash t.producer.buckets

/-! ## Counting by pairs -/

section Balance

variable {H : Xxh3} {hash : BlockHash} {lane lane' : Lane} {S : Finset BlockHash}

/-- The copies that the hashes of `S` account for. -/
def owed (H : Xxh3) (S : Finset BlockHash) (i : BucketIdx) (fp : Fp) : Nat :=
  ∑ h ∈ S, Cuckoo.copy (addressing H) (probe H h).2 (probe H h).1 i fp

/-- The lane stores exactly the copies `S` accounts for. -/
def Balanced (H : Xxh3) (lane : Lane) (S : Finset BlockHash) : Prop :=
  ∀ i fp, Cuckoo.held (addressing H) (table lane) i fp = owed H S i fp

theorem owed_insert (h : hash ∉ S) (i : BucketIdx) (fp : Fp) :
    owed H (insert hash S) i fp =
      owed H S i fp + Cuckoo.copy (addressing H) (probe H hash).2 (probe H hash).1 i fp := by
  rw [owed, Finset.sum_insert h, Nat.add_comm, owed]

theorem owed_erase (h : hash ∈ S) (i : BucketIdx) (fp : Fp) :
    owed H (S.erase hash) i fp +
      Cuckoo.copy (addressing H) (probe H hash).2 (probe H hash).1 i fp = owed H S i fp :=
  Finset.sum_erase_add S _ h

theorem Balanced.inserted (hb : Balanced H lane S) (hnew : hash ∉ S)
    (hins : Cuckoo.Inserted (addressing H) (table lane) (table lane') (probe H hash).2
      (probe H hash).1) : Balanced H lane' (insert hash S) := by
  intro i fp
  rw [hins.held, hb i fp, owed_insert hnew]

/-- The copies of a hash in the ledger are really there. -/
theorem Balanced.pairHolds (hb : Balanced H lane S) (hmem : hash ∈ S) :
    PairHolds H hash lane := by
  have howed := owed_erase (H := H) hmem (probe H hash).2 (probe H hash).1
  rw [Cuckoo.copy_self] at howed
  have hheld := hb (probe H hash).2 (probe H hash).1
  have hpos : 0 < Cuckoo.held (addressing H) (table lane) (probe H hash).2 (probe H hash).1 := by
    omega
  exact pairHolds_iff.2 hpos

theorem Balanced.deleted (hb : Balanced H lane S) (hmem : hash ∈ S)
    (hdel : Cuckoo.Deleted (addressing H) (table lane) (table lane') (probe H hash).2
      (probe H hash).1) : Balanced H lane' (S.erase hash) := by
  intro i fp
  have hheld := hdel.held i fp
  have howed := owed_erase (H := H) hmem i fp
  have hbal := hb i fp
  omega

/-- Deleting a copy nobody accounts for breaks the balance. -/
theorem Balanced.not_deleted (hb : Balanced H lane S)
    (hdel : Cuckoo.Deleted (addressing H) (table lane) (table lane') (probe H hash).2
      (probe H hash).1) : ¬ Balanced H lane' S := by
  intro hb'
  have hheld := hdel.held (probe H hash).2 (probe H hash).1
  rw [Cuckoo.copy_self] at hheld
  have h1 := hb (probe H hash).2 (probe H hash).1
  have h2 := hb' (probe H hash).2 (probe H hash).1
  omega

end Balance

/-! ## Slots and pairs -/

/-- A non-empty fingerprint occurs in the bucket's multiset once per slot. -/
theorem count_fps {b : PackedBucket} {fp : Fp} (hfp : fp ≠ 0#16) :
    (fps b).count fp = slotsHolding b fp := by
  rw [fps, Multiset.count_sum', slotsHolding, Finset.card_filter]
  refine Finset.sum_congr rfl fun k _ => ?_
  by_cases hk : slot b k = fp
  · rw [hk, occupant_of_ne hfp, Multiset.count_singleton_self, if_pos rfl]
  · rw [if_neg hk]
    refine Multiset.count_eq_zero.2 fun hmem => ?_
    unfold occupant at hmem
    split at hmem
    · exact Multiset.notMem_zero fp hmem
    · exact hk (Multiset.mem_singleton.1 hmem).symm

theorem hasPair_iff {H : Xxh3} {i : BucketIdx} {fp : Fp} {hash : BlockHash} :
    HasPair H i fp hash ↔
      fp = (probe H hash).1 ∧ (addressing H).SamePair (probe H hash).1 (probe H hash).2 i := by
  constructor
  · rintro ⟨rfl, hpair⟩
    exact ⟨rfl, Cuckoo.Addressing.SamePair.symm hpair⟩
  · rintro ⟨rfl, hpair⟩
    exact ⟨rfl, hpair.symm⟩

theorem card_hasPair (H : Xxh3) (S : Finset BlockHash) (i : BucketIdx) (fp : Fp) :
    (S.filter fun h => HasPair H i fp h).card = owed H S i fp := by
  rw [Finset.card_filter, owed]
  refine Finset.sum_congr rfl fun h _ => ?_
  rw [Cuckoo.copy]
  exact if_congr hasPair_iff rfl rfl

/-- Counted in slots or in multisets, exactness is the same. -/
theorem exact_iff_balanced {H : Xxh3} {t : Ledger} :
    Exact H t ↔ Balanced H t.producer.buckets t.inserted := by
  constructor
  · intro hexact i fp
    by_cases hfp : fp = 0#16
    · -- the empty sentinel is neither stored nor the fingerprint of a hash
      subst hfp
      have hzero : ∀ b : PackedBucket, (fps b).count 0#16 = 0 := fun b =>
        Multiset.count_eq_zero.2 fun hmem => (mem_fps.1 hmem).1 rfl
      rw [Cuckoo.held, table_apply, table_apply, hzero, hzero, owed]
      refine (Finset.sum_eq_zero fun h _ => ?_).symm
      exact Cuckoo.copy_eq_zero fun hpair => probe_fp_ne_zero H h hpair.1.symm
    · have := hexact i fp hfp
      rw [card_hasPair, ← count_fps hfp, ← count_fps hfp] at this
      exact this
  · intro hbal i fp hfp
    rw [card_hasPair, ← count_fps hfp, ← count_fps hfp]
    exact hbal i fp

/-! ## What one operation does to the ledger -/

section Step

variable {H : Xxh3} {hash : BlockHash} {worker : BackendId} {entry : HashEntry} {p : CkfProducer}
  {S : Finset BlockHash}

/-- The hashes of `S` are tracked. -/
def AllTracked (p : CkfProducer) (S : Finset BlockHash) : Prop :=
  ∀ h ∈ S, (p.hashRefcount h).isSome

/-- Changing one entry of the table strikes at most that hash from the ledger. -/
theorem filter_update (hS : AllTracked p S) (o : Option HashEntry) :
    (S.filter fun h => (Function.update p.hashRefcount hash o h).isSome) =
      if o.isSome then S else S.erase hash := by
  ext h
  by_cases hh : h = hash
  · subst hh
    cases o <;> simp
  · have := hS h
    cases o <;> simp [hh] <;> tauto

/-- Releasing a hash keeps the balance exactly when it is in the ledger or its
pair stores nothing of it. -/
theorem dropOwner_balanced_iff (hc : CountsOwners p.hashRefcount)
    (he : p.hashRefcount hash = some entry) (hw : worker ∈ entry.owners) (hS : AllTracked p S)
    (hb : Balanced H p.buckets S) :
    Balanced H (dropOwner H hash worker entry p).buckets
        (S.filter fun h => ((dropOwner H hash worker entry p).hashRefcount h).isSome) ↔
      (p.owners hash = {worker} → hash ∉ S → ¬ PairHolds H hash p.buckets) := by
  have howners : p.owners hash = entry.owners := ownersIn_some he
  rw [dropOwner_hashRefcount, filter_update hS, howners, ← hc.last_iff he hw]
  by_cases hlast : entry.refcount - 1 = 0
  · have hbuckets : (dropOwner H hash worker entry p).buckets =
        (deleteFingerprint H hash p).buckets := by rw [dropOwner_last hlast]
    rw [hbuckets, dropped, if_pos hlast, Option.isSome_none]
    simp only [Bool.false_eq_true, if_false, hlast, forall_const]
    by_cases hmem : hash ∈ S
    · -- the hash gives back its own copy
      have hdel := (deleteFingerprint_deleted (hb.pairHolds hmem)).1
      exact iff_of_true (hb.deleted hmem hdel) fun hnot => absurd hmem hnot
    · rw [Finset.erase_eq_of_notMem hmem]
      by_cases hpair : PairHolds H hash p.buckets
      · -- it takes a copy that is not its own
        have hdel := (deleteFingerprint_deleted hpair).1
        exact iff_of_false (hb.not_deleted hdel) fun hclean => hclean hmem hpair
      · rw [deleteFingerprint_none hpair]
        exact iff_of_true hb fun _ => hpair
  · have hbuckets : (dropOwner H hash worker entry p).buckets = p.buckets := by
      rw [dropOwner_keep hlast]
    rw [hbuckets, dropped, if_neg hlast, Option.isSome_some, if_pos rfl]
    exact iff_of_true hb fun h => absurd h hlast

theorem newlyInserted_of_failed (h : (insertFingerprint H hash (addOwner hash worker p)).2 = false) :
    newlyInserted H p (.stored hash worker) = ∅ := by
  rw [newlyInserted, h]
  exact if_neg (by simp)

/-- What stays true of producer and ledger whatever the steps. -/
structure Sound (t : Ledger) : Prop where
  counts : CountsOwners t.producer.hashRefcount
  tracked : AllTracked t.producer t.inserted

theorem step_sound {t : Ledger} (hs : Sound t) (op : HashOp) (hvalid : Valid t.producer op) :
    Sound (ledgerStep H t op) where
  counts := hashStep_countsOwners hs.counts op hvalid
  tracked _ hmem := (Finset.mem_filter.1 hmem).2

/-- Nothing is inserted unless a hash is stored. -/
theorem ledgerStep_of_quiet {t : Ledger} {op : HashOp} (hnew : newlyInserted H t.producer op = ∅)
    (hsame : hashStep H t.producer op = t.producer) (hs : Sound t) : ledgerStep H t op = t := by
  have hall : t.inserted.filter (fun h => (t.producer.hashRefcount h).isSome) = t.inserted :=
    Finset.filter_true_of_mem hs.tracked
  rw [ledgerStep, hnew, Finset.union_empty, hsame, hall]

/-- Storing keeps the producer exact, also when the insertion fails. -/
theorem stored_exact {t : Ledger} (hs : Sound t) (hexact : Exact H t) :
    Exact H (ledgerStep H t (.stored hash worker)) := by
  rw [exact_iff_balanced] at hexact ⊢
  rcases applyStored_cases H hash worker t.producer with ⟨hw, hp⟩ | ⟨hw, hne, hp⟩ | ⟨hempty, hp⟩
  · -- already an owner
    have hne : t.producer.owners hash ≠ ∅ := Finset.ne_empty_of_mem hw
    have hnew : newlyInserted H t.producer (.stored hash worker) = ∅ := if_neg fun h => hne h.1
    rw [ledgerStep_of_quiet hnew hp hs]
    exact hexact
  · -- another owner: the lane is not touched
    have hnew : newlyInserted H t.producer (.stored hash worker) = ∅ := if_neg fun h => hne h.1
    simp only [ledgerStep, hnew, Finset.union_empty, hashStep, hp, addOwner_hashRefcount]
    rw [filter_update hs.tracked, Option.isSome_some, if_pos rfl]
    exact hexact
  · -- the first owner
    have huntracked := hs.counts.untracked hempty
    have hnotin : hash ∉ t.inserted := fun hmem => by
      have := hs.tracked hash hmem
      rw [huntracked] at this
      exact absurd this (by simp)
    have hbuckets : (addOwner hash worker t.producer).buckets = t.producer.buckets := rfl
    simp only [ledgerStep, hashStep, hp, insertFingerprint_addOwner_hashRefcount, newlyInserted,
      hempty, true_and]
    cases hok : (insertFingerprint H hash (addOwner hash worker t.producer)).2 with
    | true =>
      -- one more fingerprint, and one more hash that is tracked
      have hins := (insertFingerprint_inserted hok).1
      have hfilter : ((t.inserted ∪ {hash}).filter fun h =>
          (Function.update t.producer.hashRefcount hash
            (some (joined worker ((t.producer.hashRefcount hash).getD HashEntry.default)))
            h).isSome) = insert hash t.inserted := by
        rw [Finset.union_comm, ← Finset.insert_eq]
        refine Finset.filter_true_of_mem fun h hmem => ?_
        by_cases hh : h = hash
        · subst hh
          simp
        · rw [Function.update_of_ne hh]
          exact hs.tracked h (Finset.mem_of_mem_insert_of_ne hmem hh)
      rw [if_pos rfl, hfilter]
      exact hexact.inserted hnotin hins
    | false =>
      -- the lane is as before, and the hash does not count as inserted
      have hsame := (insertFingerprint_failed hok).1
      rw [if_neg (by simp), Finset.union_empty, filter_update hs.tracked, Option.isSome_some,
        if_pos rfl, hsame, hbuckets]
      exact hexact

/-- An operation keeps the producer exact exactly when it is clean. -/
theorem step_exact_iff {t : Ledger} (hs : Sound t) (op : HashOp) (hvalid : Valid t.producer op)
    (hexact : Exact H t) : Exact H (ledgerStep H t op) ↔ Clean H t op := by
  cases op with
  | stored hash worker =>
    exact iff_of_true (stored_exact hs hexact) fun _ hrel => False.elim hrel
  | removed hash worker =>
    rcases applyRemoved_cases H hash worker t.producer with ⟨hw, hp⟩ | ⟨e, he, hw, hp⟩
    · -- not an owner: nothing happens and nothing is released
      have hquiet : ledgerStep H t (.removed hash worker) = t := ledgerStep_of_quiet rfl hp hs
      rw [hquiet]
      refine iff_of_true hexact ?_
      rintro _ ⟨rfl, howners⟩
      exact absurd (howners ▸ Finset.mem_singleton_self worker) hw
    · rw [exact_iff_balanced] at hexact ⊢
      -- the worker was an owner: exact unless the hash it releases was never inserted
      have hiff := dropOwner_balanced_iff (H := H) (p := unlist hash worker t.producer) hs.counts
        he hw hs.tracked hexact
      simp only [ledgerStep, hashStep, newlyInserted, Finset.union_empty, hp]
      rw [hiff]
      constructor
      · rintro h _ ⟨rfl, howners⟩
        exact h howners
      · intro h howners
        exact h hash ⟨rfl, howners⟩
  | unindexed worker =>
    -- the filter is not about what is indexed
    have hall : t.inserted.filter (fun h => (t.producer.hashRefcount h).isSome) = t.inserted :=
      Finset.filter_true_of_mem hs.tracked
    refine iff_of_true ?_ fun _ hrel => False.elim hrel
    simp only [ledgerStep, hashStep, newlyInserted, Finset.union_empty, hall]
    exact hexact
  | cleared hash worker =>
    -- a hash of the worker has an entry that lists it
    obtain ⟨e, he, hw⟩ := exists_entry hvalid
    rw [exact_iff_balanced] at hexact ⊢
    have hiff := dropOwner_balanced_iff (H := H) hs.counts he hw hs.tracked hexact
    simp only [ledgerStep, hashStep, newlyInserted, Finset.union_empty, clearHash_some he]
    rw [hiff]
    constructor
    · rintro h _ ⟨rfl, howners⟩
      exact h howners
    · intro h howners
      exact h hash ⟨rfl, howners⟩
  | reset =>
    refine iff_of_true (exact_iff_balanced.2 fun i fp => ?_) fun _ hrel => False.elim hrel
    have hzero : fps 0#64 = 0 := fps_zero
    simp [ledgerStep, hashStep, resetInternal, Cuckoo.held, owed, hzero]

end Step

/-! ## Runs -/

/-- One call of `apply_event`. -/
structure EventCall where
  order : IterOrder
  event : KvCacheEvent
  backend : BackendId

/-- The producer after the call. -/
def EventCall.apply (H : Xxh3) (p : CkfProducer) (c : EventCall) : CkfProducer :=
  applyEvent H c.order c.event c.backend p

/-- The operations of a sequence of calls, in order. -/
def runOps (H : Xxh3) : CkfProducer → List EventCall → List HashOp
  | _, [] => []
  | p, c :: cs => hashOps c.order c.event c.backend p ++ runOps H (c.apply H p) cs

section Runs

variable {H : Xxh3}

theorem runOps_foldl (p : CkfProducer) (calls : List EventCall) :
    (runOps H p calls).foldl (hashStep H) p = calls.foldl (EventCall.apply H) p := by
  induction calls generalizing p with
  | nil => rfl
  | cons c cs ih =>
    rw [runOps, List.foldl_append, ← applyEvent_eq_foldl, List.foldl_cons]
    exact ih _

theorem runOps_valid (p : CkfProducer) (ho : Ownership p.hashRefcount p.heldBy)
    (calls : List EventCall) : Run.Each (hashStep H) Valid p (runOps H p calls) := by
  induction calls generalizing p with
  | nil => trivial
  | cons c cs ih =>
    obtain ⟨hvalid, ho'⟩ := hashOps_ownership H c.order c.event c.backend ho
    rw [runOps, Run.each_append, ← applyEvent_eq_foldl]
    exact ⟨hvalid, ih _ ho'⟩

theorem start_sound (seed : BitVec 64) : Sound (Ledger.start seed) :=
  ⟨Ownership.empty.refcount, fun h hmem => absurd hmem (Finset.notMem_empty h)⟩

theorem start_exact (seed : BitVec 64) : Exact H (Ledger.start seed) := by
  have hzero : fps 0#64 = 0 := fps_zero
  refine exact_iff_balanced.2 fun i fp => ?_
  simp [Ledger.start, withSeed, Cuckoo.held, owed, hzero]

/-- The ledger is a ghost: forgetting it leaves the run of the producer. -/
theorem ledger_producer (t : Ledger) (ops : List HashOp) :
    (ops.foldl (ledgerStep H) t).producer = ops.foldl (hashStep H) t.producer :=
  Run.foldl_proj Ledger.producer (fun _ _ => rfl) t ops

/-- A run of events leaves every pair with one copy per inserted hash, after
every single operation, exactly when no operation releases a hash whose
insertion failed while its pair stores the fingerprint. -/
theorem exact_iff_clean (H : Xxh3) (seed : BitVec 64) (calls : List EventCall) :
    let ops := runOps H (withSeed seed) calls
    (ops.foldl (ledgerStep H) (Ledger.start seed)).producer =
        calls.foldl (EventCall.apply H) (withSeed seed) ∧
      (Run.All (ledgerStep H) (Exact H) (Ledger.start seed) ops ↔
        Run.Each (ledgerStep H) (Clean H) (Ledger.start seed) ops) := by
  intro ops
  have hvalid : Run.Each (ledgerStep H) (fun t op => Valid t.producer op) (Ledger.start seed) ops :=
    (Run.each_proj Ledger.producer (fun _ _ => rfl) _ _).2 (runOps_valid _ Ownership.empty calls)
  constructor
  · rw [ledger_producer]
    exact runOps_foldl _ _
  · exact Run.all_iff_each (J := Sound) (fun _ op hs hv => step_sound hs op hv)
      (fun _ op hs hv hexact => step_exact_iff hs op hv hexact) (start_sound seed)
      (start_exact seed) hvalid

end Runs

/-! ## A failed insertion that is released

Nine hashes with the fingerprint 7 and the primary bucket 5. Eight of them fill
both candidate buckets, the ninth finds no room and stays tracked; removing it
takes out a copy that belongs to one of the eight. -/

/-- A backend. -/
def someBackend : BackendId := ⟨⟨"r"⟩, ⟨"i"⟩⟩

/-- Eight hashes of one candidate pair. -/
def crowd : List BlockHash :=
  [0x6DF6817B4074CA3C#64, 0x1733C6F77ADFEED1#64, 0x0B943F16CB7D9EEB#64, 0xD7B3E5F32817D692#64,
    0x608729AFC185D0CD#64, 0x0AEB28A333A406DA#64, 0x71C5DA34C8A93A56#64, 0x920AE2408E82C559#64]

/-- The ninth. -/
def latecomer : BlockHash := 0x695F44E252926E7B#64

/-- The calls: all nine are stored, then the ninth is removed. -/
def crowdCalls : List EventCall :=
  [⟨.ascending, .stored ⟨1, 0⟩ (crowd ++ [latecomer]) none [], someBackend⟩,
    ⟨.ascending, .removed ⟨1, 0⟩ [latecomer], someBackend⟩]

/-- The ledger once the first eight are stored. -/
@[irreducible] def crowded : Ledger :=
  (crowd.map (HashOp.stored · someBackend)).foldl (ledgerStep Xxh3.short) (.start defaultSeed)

theorem crowded_exact : Exact Xxh3.short crowded ∧ Sound crowded := by
  unfold crowded
  rw [List.foldl_map]
  exact Run.foldl_preserves (P := fun t => Exact Xxh3.short t ∧ Sound t)
    (fun _ _ h => ⟨stored_exact h.2 h.1, step_sound h.2 _ trivial⟩)
    ⟨start_exact _, start_sound _⟩ _

/-- The ninth insertion fails. -/
theorem latecomer_fails :
    (insertFingerprint Xxh3.short latecomer
      (addOwner latecomer someBackend crowded.producer)).2 = false := by
  have hfull : Saturated Xxh3.short latecomer crowded.producer.buckets := by decide +kernel
  exact insertFingerprint_saturated hfull

/-- So the ledger does not gain the hash. -/
theorem latecomer_not_inserted :
    latecomer ∉ (ledgerStep Xxh3.short crowded (.stored latecomer someBackend)).inserted := by
  have hold : latecomer ∉ crowded.inserted := by decide +kernel
  have hnew := newlyInserted_of_failed latecomer_fails
  intro hmem
  rw [ledgerStep, hnew, Finset.union_empty, Finset.mem_filter] at hmem
  exact hold hmem.1

/-- Exactness fails in a state a producer reaches. -/
theorem not_exact_crowded :
    ¬ Exact Xxh3.short ((runOps Xxh3.short (withSeed defaultSeed) crowdCalls).foldl
      (ledgerStep Xxh3.short) (Ledger.start defaultSeed)) := by
  have hops : runOps Xxh3.short (withSeed defaultSeed) crowdCalls =
      crowd.map (HashOp.stored · someBackend) ++
        [.stored latecomer someBackend, .removed latecomer someBackend] := rfl
  rw [hops, List.foldl_append, ← crowded, List.foldl_cons, List.foldl_cons, List.foldl_nil]
  obtain ⟨hexact, hsound⟩ := crowded_exact
  have hfirst : crowded.producer.owners latecomer = ∅ := by decide +kernel
  have hstored : applyStored Xxh3.short latecomer someBackend crowded.producer =
      (insertFingerprint Xxh3.short latecomer
        (addOwner latecomer someBackend crowded.producer)).1 := by
    rcases applyStored_cases Xxh3.short latecomer someBackend crowded.producer with
      ⟨hw, _⟩ | ⟨_, hne, _⟩ | ⟨_, hp⟩
    · exact absurd hfirst (Finset.ne_empty_of_mem hw)
    · exact absurd hfirst hne
    · exact hp
  rw [step_exact_iff (step_sound hsound (.stored latecomer someBackend) trivial)
    (.removed latecomer someBackend) trivial (stored_exact hsound hexact)]
  intro hclean
  refine hclean latecomer ⟨rfl, ?_⟩ latecomer_not_inserted ?_
  · -- the failed hash is tracked, with one owner
    show ownersIn (applyStored Xxh3.short latecomer someBackend
      crowded.producer).hashRefcount latecomer = {someBackend}
    have howners : ((crowded.producer.hashRefcount latecomer).getD HashEntry.default).owners = ∅ :=
      hfirst
    rw [hstored, insertFingerprint_addOwner_hashRefcount, ownersIn_update, if_pos rfl,
      Option.getD_some, joined, howners]
    rfl
  · -- and its pair is still full of the others' copies
    show PairHolds Xxh3.short latecomer
      (applyStored Xxh3.short latecomer someBackend crowded.producer).buckets
    have hpair : PairHolds Xxh3.short latecomer crowded.producer.buckets := by decide +kernel
    rw [hstored, (insertFingerprint_failed latecomer_fails).1]
    exact hpair

end CkfProducer

end HierKvGateway
