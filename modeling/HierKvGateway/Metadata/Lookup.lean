import HierKvGateway.Metadata.CkfConsumer
import HierKvGateway.Metadata.CkfProducer
import HierKvGateway.Metadata.Xxh3

/-!
# Metadata.Lookup — which insertions can be looked up

Insertion and deletion use both candidate buckets of a hash, and an eviction
chain moves fingerprints between them; every overlap estimate reads the primary
bucket only. So a hash can be missing although it was inserted. This file says
when: a run of insertions and deletions is followed together with the hashes
that ought to be found (inserted with success, and no hash of the same class
deleted since), on a local lane and on a producer whose buckets are installed
in a Region lane.
-/

namespace HierKvGateway

/-- One insertion or deletion. -/
inductive LaneOp where
  | insert (hash : BlockHash)
  | delete (hash : BlockHash)

/-- The hashes of `live` that no deletion of `hash` concerns. -/
def untouched (H : Xxh3) (hash : BlockHash) (live : Finset BlockHash) : Finset BlockHash :=
  live.filter fun h => ¬ SameClass H hash h

/-- Every hash of `live` is found in its primary bucket. -/
def AllFound (H : Xxh3) (lane : Lane) (live : Finset BlockHash) : Prop :=
  ∀ hash ∈ live, laneContains H lane hash = true

section Lane

variable {H : Xxh3} {hash : BlockHash} {lane : Lane} {live : Finset BlockHash}

theorem prefixHits_singleton (hit : BlockHash → Bool) :
    prefixHits hit [hash] = 1 ↔ hit hash = true := by
  cases h : hit hash <;> simp [prefixHits, h]

theorem AllFound.mono (hf : AllFound H lane live) : AllFound H (laneInsert H hash lane).1 live := by
  intro h hmem
  have hfound := hf h hmem
  rw [laneContains_iff] at hfound ⊢
  exact laneInsert_mono hfound

/-- After a successful insertion everything is found exactly when the new hash
is. -/
theorem AllFound.insert_iff (hf : AllFound H lane live) :
    AllFound H (laneInsert H hash lane).1 (insert hash live) ↔
      ¬ Full (lane (bucketA H hash)) ∨ laneContains H lane hash = true := by
  rw [← laneInsert_found_iff]
  constructor
  · intro h
    exact h hash (Finset.mem_insert_self _ _)
  · intro hnew h hmem
    rcases Finset.mem_insert.1 hmem with rfl | hold
    · exact hnew
    · exact hf.mono h hold

theorem AllFound.delete (hf : AllFound H lane live) :
    AllFound H (laneDelete H hash lane).1 (untouched H hash live) := by
  intro h hmem
  obtain ⟨hold, hclass⟩ := Finset.mem_filter.1 hmem
  exact laneDelete_mono hclass (hf h hold)

end Lane

/-! ## Local lanes -/

namespace LocalCkf

/-- A local projection and the hashes that lane `l` ought to find. -/
structure Lookup where
  ckf : LocalCkf
  live : Finset BlockHash

/-- One operation on lane `l`. -/
def lookupStep (H : Xxh3) (l : LocalLane) (t : Lookup) : LaneOp → Lookup
  | .insert hash =>
    let (c, ok) := t.ckf.insert H hash l
    ⟨c, if ok then Insert.insert hash t.live else t.live⟩
  | .delete hash => ⟨(t.ckf.delete H hash l).1, untouched H hash t.live⟩

/-- `estimate_overlap` succeeds for every hash it ought to. -/
def NoMiss (H : Xxh3) (l : LocalLane) (t : Lookup) : Prop :=
  ∀ hash ∈ t.live, t.ckf.estimateOverlap H [hash] l = 1

/-- An insertion that does not go to a full primary bucket without the
fingerprint; only the alternate bucket could take it then. -/
def PrimaryRoom (H : Xxh3) (l : LocalLane) (t : Lookup) : LaneOp → Prop
  | .insert hash =>
    t.ckf.laneStatus l = .active → ¬ PairFull H hash (t.ckf.lane l) →
      ¬ Full (t.ckf.lane l (bucketA H hash)) ∨ laneContains H (t.ckf.lane l) hash = true
  | .delete _ => True

variable {H : Xxh3} {l : LocalLane}

theorem noMiss_iff {t : Lookup} (h : t.ckf.laneStatus l = .active) :
    NoMiss H l t ↔ AllFound H (t.ckf.lane l) t.live := by
  refine forall₂_congr fun hash _ => ?_
  rw [estimateOverlap_active h, prefixHits_singleton]

/-- A retired lane reports no success and finds nothing. -/
theorem lookupStep_retired {t : Lookup} (h : t.ckf.laneStatus l ≠ .active) (hlive : t.live = ∅)
    (op : LaneOp) : (lookupStep H l t op).live = ∅ := by
  cases op with
  | insert hash => simp [lookupStep, LocalCkf.insert, h, hlive]
  | delete hash => simp [lookupStep, untouched, hlive]

theorem lookupStep_laneStatus (t : Lookup) (op : LaneOp) :
    (lookupStep H l t op).ckf.laneStatus = t.ckf.laneStatus := by
  cases op with
  | insert hash => exact insert_sameBindings.laneStatus
  | delete hash => exact delete_sameBindings.laneStatus

/-- One operation keeps every lookup exact when it leaves room for itself. -/
theorem lookupStep_noMiss_iff {t : Lookup} (hret : t.ckf.laneStatus l ≠ .active → t.live = ∅)
    (op : LaneOp) (hno : NoMiss H l t) :
    NoMiss H l (lookupStep H l t op) ↔ PrimaryRoom H l t op := by
  by_cases hact : t.ckf.laneStatus l = .active
  · have hact' : (lookupStep H l t op).ckf.laneStatus l = .active := by
      rw [lookupStep_laneStatus]
      exact hact
    rw [noMiss_iff hact] at hno
    rw [noMiss_iff hact']
    cases op with
    | insert hash =>
      simp only [lookupStep, insert_active hact, lane_setLane_self, PrimaryRoom, hact,
        forall_const]
      by_cases hfull : PairFull H hash (t.ckf.lane l)
      · -- the insertion fails
        rw [laneInsert_full hfull]
        exact iff_of_true hno fun h => absurd hfull h
      · rw [if_pos (laneInsert_snd.2 hfull), hno.insert_iff]
        constructor
        · intro h _
          exact h
        · intro h
          exact h hfull
    | delete hash =>
      simp only [lookupStep, delete_active hact, lane_setLane_self]
      exact iff_of_true hno.delete trivial
  · -- on a retired lane nothing is ever reported as inserted
    have hempty := lookupStep_retired (H := H) hact (hret hact) op
    refine iff_of_true (fun hash hmem => ?_) ?_
    · rw [hempty] at hmem
      exact absurd hmem (Finset.notMem_empty _)
    · cases op with
      | insert hash => exact fun h => absurd h hact
      | delete hash => trivial

end LocalCkf

/-! ## Producers and Region lanes -/

namespace CkfProducer

/-- A producer and the hashes a lane with its buckets ought to find. -/
structure Lookup where
  producer : CkfProducer
  live : Finset BlockHash

/-- One fingerprint inserted or deleted. -/
def lookupStep (H : Xxh3) (t : Lookup) : LaneOp → Lookup
  | .insert hash =>
    let (p, ok) := insertFingerprint H hash t.producer
    ⟨p, if ok then insert hash t.live else t.live⟩
  | .delete hash => ⟨deleteFingerprint H hash t.producer, untouched H hash t.live⟩

/-- Once the producer's snapshot is installed in the lane of a Region, whichever
it is, `estimate_overlap` succeeds for every hash it ought to. -/
def NoMiss (H : Xxh3) (t : Lookup) : Prop :=
  ∀ hash ∈ t.live, ∀ (c : CkfConsumer) (l : RegionLane) (region : RegionId),
    c.laneOf region = some l →
      (c.installSnapshot l t.producer.snapshot.2).estimateOverlap H [hash] region = 1

/-- An insertion finds room without an eviction, and not only in the alternate
bucket while the primary one lacks the fingerprint. -/
def PrimaryRoom (H : Xxh3) (t : Lookup) : LaneOp → Prop
  | .insert hash =>
    ¬ PairFull H hash t.producer.buckets ∧
      (¬ Full (t.producer.buckets (bucketA H hash)) ∨
        laneContains H t.producer.buckets hash = true)
  | .delete _ => True

variable {H : Xxh3}

/-- The producer's own buckets find every hash they ought to. -/
def Finds (H : Xxh3) (t : Lookup) : Prop := AllFound H t.producer.buckets t.live

theorem noMiss_of_finds {t : Lookup} (h : Finds H t) : NoMiss H t := by
  intro hash hmem c l region hl
  rw [CkfConsumer.estimateOverlap_installSnapshot (snapshot_buckets t.producer) hl,
    prefixHits_singleton]
  exact h hash hmem

theorem lookupStep_finds {t : Lookup} (h : Finds H t) (op : LaneOp) (hroom : PrimaryRoom H t op) :
    Finds H (lookupStep H t op) := by
  cases op with
  | insert hash =>
    obtain ⟨hpair, hprimary⟩ := hroom
    obtain ⟨hok, hbuckets, _⟩ := insertFingerprint_direct hpair
    simp only [Finds, lookupStep, hok, if_true, hbuckets]
    exact AllFound.insert_iff h |>.2 hprimary
  | delete hash =>
    simp only [Finds, lookupStep, (deleteFingerprint_spec H hash t.producer).1]
    exact AllFound.delete h

theorem run_finds {t : Lookup} {ops : List LaneOp} (ht : Finds H t)
    (hroom : Run.Each (lookupStep H) (PrimaryRoom H) t ops) :
    Run.All (lookupStep H) (Finds H) t ops :=
  Run.all_of_each (P := Finds H) (C := PrimaryRoom H) (fun _ op h hr => lookupStep_finds h op hr)
    ht hroom

end CkfProducer

/-! ## Runs -/

/-- Lookups after any run. On a local lane, none misses in any state exactly
when no successful insertion had to leave a primary bucket without its
fingerprint; on a producer none misses if moreover nothing is evicted. -/
theorem lookup_no_miss (H : Xxh3) (l : LocalLane) (c : LocalCkf) (p : CkfProducer)
    (ops : List LaneOp) :
    (Run.All (LocalCkf.lookupStep H l) (LocalCkf.NoMiss H l) ⟨c, ∅⟩ ops ↔
      Run.Each (LocalCkf.lookupStep H l) (LocalCkf.PrimaryRoom H l) ⟨c, ∅⟩ ops) ∧
    (Run.Each (CkfProducer.lookupStep H) (CkfProducer.PrimaryRoom H) ⟨p, ∅⟩ ops →
      Run.All (CkfProducer.lookupStep H) (CkfProducer.NoMiss H) ⟨p, ∅⟩ ops) := by
  constructor
  · -- the invariant: a retired lane has taken in nothing
    refine Run.all_iff_each (D := fun _ _ => True)
      (J := fun t : LocalCkf.Lookup => t.ckf.laneStatus l ≠ .active → t.live = ∅) ?_ ?_ ?_ ?_
      (Run.each_of_forall (fun _ _ => trivial) _ _)
    · intro t op hret _ hne
      rw [LocalCkf.lookupStep_laneStatus] at hne
      exact LocalCkf.lookupStep_retired hne (hret hne) op
    · intro t op hret _ hno
      exact LocalCkf.lookupStep_noMiss_iff hret op hno
    · intro _
      exact rfl
    · intro hash hmem
      exact absurd hmem (Finset.notMem_empty hash)
  · intro hroom
    have hstart : CkfProducer.Finds H ⟨p, ∅⟩ := fun hash hmem =>
      absurd hmem (Finset.notMem_empty hash)
    exact (CkfProducer.run_finds hstart hroom).mono fun t h => CkfProducer.noMiss_of_finds h

/-! Five hashes share a primary bucket. The fifth goes to its alternate bucket;
its insertion is reported as a success and its lookup misses. -/

/-- The insertions. -/
def sharedBucket : List LaneOp :=
  [.insert 4223, .insert 4784, .insert 7307, .insert 9676, .insert 9975]

theorem not_noMiss_sharedBucket :
    ¬ LocalCkf.NoMiss Xxh3.short 0
      (sharedBucket.foldl (LocalCkf.lookupStep Xxh3.short 0)
        ⟨(LocalCkf.assignLane ⟨⟨"r"⟩, ⟨"i"⟩⟩ LocalCkf.new).1, ∅⟩) := by
  intro h
  have hmiss := h 9975 (by decide +kernel)
  revert hmiss
  decide +kernel

end HierKvGateway
