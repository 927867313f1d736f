import HierKvGateway.Metadata.CuckooFilter

/-!
# Metadata.CuckooLane — inserting, deleting and looking up in one lane

The two lane operations that need no eviction, and the lookup every overlap
estimate performs. Insertion and deletion try the primary bucket of a hash and
then its alternate bucket; the lookup reads the primary bucket only.
`laneInsert_found_iff` says when an insertion can be looked up afterwards.
-/

namespace HierKvGateway

/-- Insert the fingerprint into the primary or else the alternate bucket;
`false` if both are full. -/
def laneInsert (H : Xxh3) (hash : BlockHash) (lane : Lane) : Lane × Bool :=
  let (fp, bucketA) := probe H hash
  let bucketB := altIndex H bucketA fp
  let (a, okA) := tryInsert (lane bucketA) fp
  let (b, okB) := tryInsert (lane bucketB) fp
  if okA then (Function.update lane bucketA a, true)
  else if okB then (Function.update lane bucketB b, true)
  else (lane, false)

/-- Delete one copy of the fingerprint from the primary or else the alternate
bucket; `false` if neither holds it. -/
def laneDelete (H : Xxh3) (hash : BlockHash) (lane : Lane) : Lane × Bool :=
  let (fp, bucketA) := probe H hash
  let bucketB := altIndex H bucketA fp
  let (a, okA) := tryDelete (lane bucketA) fp
  let (b, okB) := tryDelete (lane bucketB) fp
  if okA then (Function.update lane bucketA a, true)
  else if okB then (Function.update lane bucketB b, true)
  else (lane, false)

/-- Whether the primary bucket of the hash contains its fingerprint. -/
def laneContains (H : Xxh3) (lane : Lane) (hash : BlockHash) : Bool :=
  let (fp, bucketIdx) := probe H hash
  bucketContains (lane bucketIdx) fp

/-- The number of hashes before the first miss. -/
def prefixHits (hit : BlockHash → Bool) : List BlockHash → Nat
  | [] => 0
  | hash :: hashes => if hit hash then prefixHits hit hashes + 1 else 0

/-- The hits reach `n` when the first `n` hashes exist and are hits. -/
theorem le_prefixHits_iff {hit : BlockHash → Bool} {hashes : List BlockHash} {n : Nat} :
    n ≤ prefixHits hit hashes ↔ n ≤ hashes.length ∧ ∀ x ∈ hashes.take n, hit x = true := by
  induction hashes generalizing n with
  | nil => simp +contextual [prefixHits]
  | cons hash hashes ih =>
    rcases n with _ | n
    · simp
    · rw [prefixHits, List.take_succ_cons, List.length_cons, Nat.add_le_add_iff_right,
        List.forall_mem_cons]
      by_cases h : hit hash = true
      · rw [if_pos h, Nat.add_le_add_iff_right, ih]
        tauto
      · rw [if_neg h]
        exact iff_of_false (by omega) fun hall => h hall.2.1

theorem prefixHits_congr {hit hit' : BlockHash → Bool} {hashes : List BlockHash}
    (h : ∀ x ∈ hashes, hit x = hit' x) : prefixHits hit hashes = prefixHits hit' hashes := by
  induction hashes with
  | nil => rfl
  | cons hash hashes ih =>
    obtain ⟨hhead, htail⟩ := List.forall_mem_cons.1 h
    rw [prefixHits, prefixHits, hhead, ih htail]

/-! ## Candidate pairs -/

section Pair

variable (H : Xxh3) (hash : BlockHash)

/-- The fingerprint of a hash. -/
abbrev fpOf : Fp := (probe H hash).1

/-- The primary bucket of a hash. -/
abbrev bucketA : BucketIdx := (probe H hash).2

/-- The alternate bucket of a hash. -/
abbrev bucketB : BucketIdx := altIndex H (bucketA H hash) (fpOf H hash)

/-- Both candidate buckets of the hash are full. -/
def PairFull (lane : Lane) : Prop := Full (lane (bucketA H hash)) ∧ Full (lane (bucketB H hash))

/-- The candidate pair of the hash stores its fingerprint. -/
def PairHolds (lane : Lane) : Prop :=
  fpOf H hash ∈ fps (lane (bucketA H hash)) ∨ fpOf H hash ∈ fps (lane (bucketB H hash))

instance (lane : Lane) : Decidable (PairFull H hash lane) := inferInstanceAs (Decidable (_ ∧ _))

instance (lane : Lane) : Decidable (PairHolds H hash lane) := inferInstanceAs (Decidable (_ ∨ _))

/-- Two hashes with the same fingerprint and the same candidate pair cannot be
told apart by the filter. -/
def SameClass (hash hash' : BlockHash) : Prop :=
  fpOf H hash' = fpOf H hash ∧
    (addressing H).SamePair (fpOf H hash) (bucketA H hash) (bucketA H hash')

instance (hash hash' : BlockHash) : Decidable (SameClass H hash hash') :=
  inferInstanceAs (Decidable (_ ∧ _))

variable {H hash} {hash' : BlockHash} {lane : Lane}

theorem SameClass.refl : SameClass H hash hash := ⟨rfl, Cuckoo.Addressing.samePair_refl⟩

theorem pairHolds_iff : PairHolds H hash lane ↔
    0 < Cuckoo.held (addressing H) (table lane) (bucketA H hash) (fpOf H hash) := by
  rw [Cuckoo.held_pos, PairHolds, table_apply, table_apply, addressing_alt]

/-- A copy of one hash is counted for another exactly within its class. -/
theorem copy_class :
    Cuckoo.copy (addressing H) (bucketA H hash) (fpOf H hash) (bucketA H hash') (fpOf H hash') =
      if SameClass H hash hash' then 1 else 0 := rfl

/-- The lookup finds a hash whose fingerprint is in its primary bucket. -/
theorem laneContains_iff :
    laneContains H lane hash = true ↔ fpOf H hash ∈ fps (lane (bucketA H hash)) :=
  bucketContains_iff (probe_fp_ne_zero H hash)

theorem pairHolds_of_contains (h : laneContains H lane hash = true) : PairHolds H hash lane :=
  Or.inl (laneContains_iff.1 h)

end Pair

/-! ## Insertion -/

section Insert

variable {H : Xxh3} {hash hash' : BlockHash} {lane : Lane}

theorem laneInsert_primary (h : ¬ Full (lane (bucketA H hash))) :
    laneInsert H hash lane = (Function.update lane (bucketA H hash)
      (tryInsert (lane (bucketA H hash)) (fpOf H hash)).1, true) := by
  have hok := (tryInsert_snd _ (fpOf H hash)).2 h
  simp only [laneInsert, hok, if_true]

theorem laneInsert_alternate (hA : Full (lane (bucketA H hash)))
    (hB : ¬ Full (lane (bucketB H hash))) :
    laneInsert H hash lane = (Function.update lane (bucketB H hash)
      (tryInsert (lane (bucketB H hash)) (fpOf H hash)).1, true) := by
  have hokA := tryInsert_of_full hA (fpOf H hash)
  have hokB := (tryInsert_snd _ (fpOf H hash)).2 hB
  simp only [laneInsert, hokA, hokB, Bool.false_eq_true, if_false, if_true]

theorem laneInsert_full (h : PairFull H hash lane) : laneInsert H hash lane = (lane, false) := by
  have hokA := tryInsert_of_full h.1 (fpOf H hash)
  have hokB := tryInsert_of_full h.2 (fpOf H hash)
  simp only [laneInsert, hokA, hokB, Bool.false_eq_true, if_false]

/-- The three outcomes of an insertion. -/
theorem laneInsert_cases (H : Xxh3) (hash : BlockHash) (lane : Lane) :
    ¬ Full (lane (bucketA H hash)) ∨
    (Full (lane (bucketA H hash)) ∧ ¬ Full (lane (bucketB H hash))) ∨ PairFull H hash lane := by
  unfold PairFull
  tauto

theorem laneInsert_snd : (laneInsert H hash lane).2 = true ↔ ¬ PairFull H hash lane := by
  rcases laneInsert_cases H hash lane with hA | ⟨hA, hB⟩ | hAB
  · rw [laneInsert_primary hA]
    exact iff_of_true rfl fun h => hA h.1
  · rw [laneInsert_alternate hA hB]
    exact iff_of_true rfl fun h => hB h.2
  · rw [laneInsert_full hAB]
    exact iff_of_false (by simp) fun h => h hAB

/-- A successful insertion adds one copy to the candidate pair. -/
theorem laneInsert_inserted (h : ¬ PairFull H hash lane) :
    Cuckoo.Inserted (addressing H) (table lane) (table (laneInsert H hash lane).1)
      (bucketA H hash) (fpOf H hash) := by
  have hfp := probe_fp_ne_zero H hash
  by_cases hA : Full (lane (bucketA H hash))
  · have hB : ¬ Full (lane (bucketB H hash)) := fun hB => h ⟨hA, hB⟩
    rw [laneInsert_alternate hA hB]
    exact Cuckoo.InHand.start_alt.place (replaced_tryInsert hB hfp)
  · rw [laneInsert_primary hA]
    exact Cuckoo.InHand.start.place (replaced_tryInsert hA hfp)

/-- An insertion takes nothing away. -/
theorem laneInsert_mono {fp : Fp} {i : BucketIdx} (hmem : fp ∈ fps (lane i)) :
    fp ∈ fps ((laneInsert H hash lane).1 i) := by
  have hfp := probe_fp_ne_zero H hash
  rcases laneInsert_cases H hash lane with hA | ⟨hA, hB⟩ | hAB
  · rw [laneInsert_primary hA]
    exact (replaced_tryInsert hA hfp).mem hmem fun _ => Multiset.notMem_zero fp
  · rw [laneInsert_alternate hA hB]
    exact (replaced_tryInsert hB hfp).mem hmem fun _ => Multiset.notMem_zero fp
  · rw [laneInsert_full hAB]
    exact hmem

/-- After an insertion the hash is found when its primary bucket had a free slot
or held its fingerprint already, and otherwise it is not. -/
theorem laneInsert_found_iff :
    laneContains H (laneInsert H hash lane).1 hash = true ↔
      ¬ Full (lane (bucketA H hash)) ∨ laneContains H lane hash = true := by
  have hfp := probe_fp_ne_zero H hash
  rw [laneContains_iff, laneContains_iff]
  rcases laneInsert_cases H hash lane with hA | ⟨hA, hB⟩ | hAB
  · -- placed in the primary bucket
    refine iff_of_true ?_ (Or.inl hA)
    rw [laneInsert_primary hA]
    dsimp only
    rw [Function.update_self, fps_tryInsert hA hfp]
    exact Multiset.mem_add.2 (Or.inr (Multiset.mem_singleton_self _))
  · -- placed in the alternate bucket: the primary one is as before
    rw [laneInsert_alternate hA hB]
    dsimp only
    rw [Function.update_of_ne (altIndex_ne H _ _).symm]
    exact (or_iff_right (not_not.2 hA)).symm
  · rw [laneInsert_full hAB]
    exact (or_iff_right (not_not.2 hAB.1)).symm

end Insert

/-! ## Deletion -/

section Delete

variable {H : Xxh3} {hash hash' : BlockHash} {lane : Lane}

theorem laneDelete_primary (h : fpOf H hash ∈ fps (lane (bucketA H hash))) :
    laneDelete H hash lane = (Function.update lane (bucketA H hash)
      (tryDelete (lane (bucketA H hash)) (fpOf H hash)).1, true) := by
  have hok := (tryDelete_snd _ (probe_fp_ne_zero H hash)).2 h
  simp only [laneDelete, hok, if_true]

theorem laneDelete_alternate (hA : fpOf H hash ∉ fps (lane (bucketA H hash)))
    (hB : fpOf H hash ∈ fps (lane (bucketB H hash))) :
    laneDelete H hash lane = (Function.update lane (bucketB H hash)
      (tryDelete (lane (bucketB H hash)) (fpOf H hash)).1, true) := by
  have hfp := probe_fp_ne_zero H hash
  have hokA := tryDelete_of_not_mem hfp hA
  have hokB := (tryDelete_snd _ hfp).2 hB
  simp only [laneDelete, hokA, hokB, Bool.false_eq_true, if_false, if_true]

/-- Without a copy in the pair a deletion does nothing. -/
theorem laneDelete_none (h : ¬ PairHolds H hash lane) : laneDelete H hash lane = (lane, false) := by
  have hfp := probe_fp_ne_zero H hash
  have hokA := tryDelete_of_not_mem hfp fun hA => h (Or.inl hA)
  have hokB := tryDelete_of_not_mem hfp fun hB => h (Or.inr hB)
  simp only [laneDelete, hokA, hokB, Bool.false_eq_true, if_false]

/-- A deletion takes one copy out of one bucket of the candidate pair. -/
theorem laneDelete_replaced (h : PairHolds H hash lane) :
    ∃ j, (addressing H).SamePair (fpOf H hash) (bucketA H hash) j ∧
      Cuckoo.Replaced (table lane) (table (laneDelete H hash lane).1) j {fpOf H hash} 0 := by
  by_cases hA : fpOf H hash ∈ fps (lane (bucketA H hash))
  · rw [laneDelete_primary hA]
    exact ⟨_, Cuckoo.Addressing.samePair_refl, replaced_tryDelete hA⟩
  · have hB := h.resolve_left hA
    rw [laneDelete_alternate hA hB]
    exact ⟨_, Cuckoo.Addressing.samePair_alt, replaced_tryDelete hB⟩

theorem laneDelete_deleted (h : PairHolds H hash lane) :
    Cuckoo.Deleted (addressing H) (table lane) (table (laneDelete H hash lane).1)
      (bucketA H hash) (fpOf H hash) := by
  obtain ⟨j, hpair, hr⟩ := laneDelete_replaced h
  exact .of_replaced hpair hr

/-- A deletion leaves the hashes of other classes where they are. -/
theorem laneDelete_mono (hclass : ¬ SameClass H hash hash')
    (hmem : laneContains H lane hash' = true) :
    laneContains H (laneDelete H hash lane).1 hash' = true := by
  rw [laneContains_iff] at hmem ⊢
  by_cases hpair : PairHolds H hash lane
  · obtain ⟨j, hj, hr⟩ := laneDelete_replaced hpair
    refine hr.mem hmem fun hji => ?_
    rw [Multiset.mem_singleton]
    intro hfp
    exact hclass ⟨hfp, hji ▸ hj⟩
  · rw [laneDelete_none hpair]
    exact hmem

end Delete

/-! ## Counting copies when no two hashes collide -/

/-- The number of copies of its fingerprint in the candidate pair of a hash. -/
def laneCopies (H : Xxh3) (lane : Lane) (hash : BlockHash) : Nat :=
  Cuckoo.held (addressing H) (table lane) (bucketA H hash) (fpOf H hash)

/-- No two hashes of the set have the same fingerprint and the same candidate
pair. -/
def NoCollision (H : Xxh3) (S : Set BlockHash) : Prop :=
  ∀ x ∈ S, ∀ y ∈ S, SameClass H x y → x = y

section Copies

variable {H : Xxh3} {S : Set BlockHash} {hash x : BlockHash} {lane : Lane}

theorem laneCopies_pos : 0 < laneCopies H lane hash ↔ PairHolds H hash lane := pairHolds_iff.symm

theorem laneCopies_empty : laneCopies H (fun _ => 0) hash = 0 := by
  rw [laneCopies, Cuckoo.held, table_apply, table_apply, fps_zero]
  rfl

theorem NoCollision.sameClass (hS : NoCollision H S) (hhash : hash ∈ S) (hx : x ∈ S) :
    SameClass H hash x ↔ x = hash :=
  ⟨fun h => (hS hash hhash x hx h).symm, fun h => h ▸ SameClass.refl⟩

/-- A successful insertion adds one copy of its hash. -/
theorem laneCopies_insert (hS : NoCollision H S) (hhash : hash ∈ S) (hx : x ∈ S)
    (hok : (laneInsert H hash lane).2 = true) :
    laneCopies H (laneInsert H hash lane).1 x = laneCopies H lane x + if x = hash then 1 else 0 := by
  have hins := (laneInsert_inserted (laneInsert_snd.1 hok)).held (bucketA H x) (fpOf H x)
  rw [copy_class] at hins
  simp only [hS.sameClass hhash hx] at hins
  exact hins

/-- A deletion takes one copy of its hash away, if there is one. -/
theorem laneCopies_delete (hS : NoCollision H S) (hhash : hash ∈ S) (hx : x ∈ S) :
    laneCopies H (laneDelete H hash lane).1 x = laneCopies H lane x - if x = hash then 1 else 0 := by
  by_cases hpair : PairHolds H hash lane
  · have hdel := (laneDelete_deleted hpair).held (bucketA H x) (fpOf H x)
    rw [copy_class] at hdel
    simp only [hS.sameClass hhash hx] at hdel
    unfold laneCopies
    omega
  · rw [laneDelete_none hpair]
    have hzero : laneCopies H lane hash = 0 := by
      rw [← laneCopies_pos] at hpair
      omega
    split
    · rename_i heq
      rw [heq, hzero]
    · rfl

end Copies

end HierKvGateway
