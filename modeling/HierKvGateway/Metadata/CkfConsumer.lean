import HierKvGateway.Metadata.CuckooLane
import HierKvGateway.Metadata.LocalCkf

/-!
# Metadata.CkfConsumer — the lanes of other Regions

The consumer (`ckf_consumer.rs`) keeps one lane per remote Region. Its lanes are
filled by full snapshots and patched by deltas; neither looks at the sequence
numbers of what it installs.

The map from lanes to Regions is searched in an unspecified order by `lane_of`;
here it is searched in index order, which is the same whenever a Region is bound
to one lane.
-/

namespace HierKvGateway

/-- Number of lanes a consumer supports. -/
abbrev laneCount : Nat := 16

/-- Index of a Region lane. -/
abbrev RegionLane := Fin laneCount

/-- Transposed CKF consumer. -/
structure CkfConsumer where
  /-- Bucket-major layout: the packed value of a bucket in each lane. -/
  buckets : BucketIdx → RegionLane → PackedBucket
  /-- Lane → Region currently bound to it. -/
  laneRegions : RegionLane → Option RegionId
  laneStatus : RegionLane → LaneStatus

/-- The buckets of a snapshot with their indices. -/
def CkfSnapshot.entries (snapshot : CkfSnapshot) : List (Nat × PackedBucket) :=
  snapshot.buckets.zipIdx.map fun p => (p.2, p.1)

namespace CkfConsumer

/-- An empty consumer. -/
def new : CkfConsumer where
  buckets := fun _ _ => 0
  laneRegions := fun _ => none
  laneStatus := fun _ => .retired

/-- The buckets of one lane. -/
def lane (c : CkfConsumer) (l : RegionLane) : Lane := fun i => c.buckets i l

/-- The lane bound to a Region. -/
def laneOf (c : CkfConsumer) (region : RegionId) : Option RegionLane :=
  (List.finRange laneCount).find? fun l => c.laneRegions l == some region

/-- The prefix overlap on the lane of a Region. -/
def estimateOverlap (H : Xxh3) (hashes : List BlockHash) (region : RegionId) (c : CkfConsumer) :
    Nat :=
  match c.laneOf region with
  | none => 0
  | some l =>
    if c.laneStatus l = .active then prefixHits (laneContains H (c.lane l)) hashes else 0

/-- Store one bucket of a lane. -/
def store (c : CkfConsumer) (l : RegionLane) (i : BucketIdx) (value : PackedBucket) : CkfConsumer :=
  { c with buckets := Function.update c.buckets i (Function.update (c.buckets i) l value) }

/-- Set the state of one lane. -/
def setStatus (c : CkfConsumer) (l : RegionLane) (s : LaneStatus) : CkfConsumer :=
  { c with laneStatus := Function.update c.laneStatus l s }

/-- Store a value at an index that may be out of range, as `apply_delta` checks. -/
def storeAt (l : RegionLane) (c : CkfConsumer) (entry : Nat × PackedBucket) : CkfConsumer :=
  if h : entry.1 < bucketsPerLane then c.store l ⟨entry.1, h⟩ entry.2 else c

/-- Install a full snapshot: retire the lane, write all buckets, activate it.
The source asserts that there are exactly `bucketsPerLane` of them. -/
def installSnapshot (l : RegionLane) (snapshot : CkfSnapshot) (c : CkfConsumer) : CkfConsumer :=
  let c := c.setStatus l .retired
  let c := snapshot.entries.foldl (storeAt l) c
  c.setStatus l .active

/-- Apply a delta to a lane. -/
def applyDelta (l : RegionLane) (delta : CkfDelta) (c : CkfConsumer) : CkfConsumer :=
  delta.buckets.foldl (storeAt l) c

/-- Mark a lane as retired. -/
def retireLane (l : RegionLane) (c : CkfConsumer) : CkfConsumer := c.setStatus l .retired

/-- Mark a lane as active. -/
def activateLane (l : RegionLane) (c : CkfConsumer) : CkfConsumer := c.setStatus l .active

/-- Bind a lane to a Region. -/
def assignLane (l : RegionLane) (region : RegionId) (c : CkfConsumer) : CkfConsumer :=
  { c with laneRegions := Function.update c.laneRegions l (some region) }

/-- Unbind a lane. -/
def unassignLane (l : RegionLane) (c : CkfConsumer) : CkfConsumer :=
  { c with laneRegions := Function.update c.laneRegions l none }

/-! ## Writing buckets -/

/-- What a list of bucket writes makes of one lane. -/
def patch (lane : Lane) (entries : List (Nat × PackedBucket)) : Lane :=
  entries.foldl
    (fun lane e => if h : e.1 < bucketsPerLane then Function.update lane ⟨e.1, h⟩ e.2 else lane) lane

/-- Entries that all carry the values of `f` overwrite exactly their own
buckets with these values. -/
theorem patch_of_values {f : Lane} {entries : List (Nat × PackedBucket)}
    (hf : ∀ e ∈ entries, ∃ i : BucketIdx, e = (i.val, f i)) (lane : Lane) (i : BucketIdx) :
    patch lane entries i = if (i.val, f i) ∈ entries then f i else lane i := by
  induction entries generalizing lane with
  | nil => rfl
  | cons e es ih =>
    obtain ⟨j, rfl⟩ := hf e List.mem_cons_self
    have hrest := ih (fun e he => hf e (List.mem_cons_of_mem _ he)) (Function.update lane j (f j))
    have hstep : patch lane ((j.val, f j) :: es) = patch (Function.update lane j (f j)) es := by
      rw [patch, List.foldl_cons, dif_pos j.isLt, patch]
    rw [hstep, hrest]
    by_cases hi : i = j
    · subst hi
      simp
    · have hne : i.val ≠ j.val := fun h => hi (Fin.ext h)
      simp [hi, hne]

section Lanes

variable {l m : RegionLane} {c : CkfConsumer}

/-- What a write to lane `l` leaves alone. -/
structure SameElsewhere (l : RegionLane) (c c' : CkfConsumer) : Prop where
  laneRegions : c'.laneRegions = c.laneRegions
  lane : ∀ m, m ≠ l → c'.lane m = c.lane m
  laneStatus : ∀ m, m ≠ l → c'.laneStatus m = c.laneStatus m

theorem SameElsewhere.refl : SameElsewhere l c c := ⟨rfl, fun _ _ => rfl, fun _ _ => rfl⟩

theorem SameElsewhere.trans {c₁ c₂ c₃ : CkfConsumer} (h : SameElsewhere l c₁ c₂)
    (h' : SameElsewhere l c₂ c₃) : SameElsewhere l c₁ c₃ where
  laneRegions := h'.laneRegions.trans h.laneRegions
  lane m hm := (h'.lane m hm).trans (h.lane m hm)
  laneStatus m hm := (h'.laneStatus m hm).trans (h.laneStatus m hm)

theorem storeAt_spec (e : Nat × PackedBucket) :
    (storeAt l c e).lane l = patch (c.lane l) [e] ∧ (storeAt l c e).laneStatus = c.laneStatus ∧
      SameElsewhere l c (storeAt l c e) := by
  unfold storeAt patch
  by_cases h : e.1 < bucketsPerLane
  · rw [dif_pos h, List.foldl_cons, dif_pos h, List.foldl_nil]
    refine ⟨?_, rfl, rfl, fun m hm => ?_, fun _ _ => rfl⟩
    · funext i
      by_cases hi : i = ⟨e.1, h⟩
      · subst hi
        simp [lane, store]
      · simp [lane, store, hi]
    · funext i
      by_cases hi : i = ⟨e.1, h⟩
      · subst hi
        simp [lane, store, hm]
      · simp [lane, store, hi]
  · -- an index beyond the lane is skipped
    rw [dif_neg h, List.foldl_cons, dif_neg h, List.foldl_nil]
    exact ⟨rfl, rfl, .refl⟩

theorem foldl_storeAt_spec (entries : List (Nat × PackedBucket)) :
    (entries.foldl (storeAt l) c).lane l = patch (c.lane l) entries ∧
      (entries.foldl (storeAt l) c).laneStatus = c.laneStatus ∧
      SameElsewhere l c (entries.foldl (storeAt l) c) := by
  induction entries generalizing c with
  | nil => exact ⟨rfl, rfl, .refl⟩
  | cons e es ih =>
    obtain ⟨hlane, hstatus, hsame⟩ := storeAt_spec (l := l) (c := c) e
    obtain ⟨hlane', hstatus', hsame'⟩ := ih (c := storeAt l c e)
    refine ⟨?_, hstatus'.trans hstatus, hsame.trans hsame'⟩
    rw [List.foldl_cons, hlane', hlane]
    rfl

theorem setStatus_sameElsewhere (s : LaneStatus) : SameElsewhere l c (c.setStatus l s) :=
  ⟨rfl, fun _ _ => rfl, fun m hm => by simp [setStatus, hm]⟩

/-- Installing a snapshot patches one lane with all its buckets and leaves the
lane active. -/
theorem installSnapshot_spec (snapshot : CkfSnapshot) :
    (installSnapshot l snapshot c).lane l = patch (c.lane l) snapshot.entries ∧
      (installSnapshot l snapshot c).laneStatus l = .active ∧
      SameElsewhere l c (installSnapshot l snapshot c) := by
  obtain ⟨hlane, _, hsame⟩ :=
    foldl_storeAt_spec (l := l) (c := c.setStatus l .retired) snapshot.entries
  refine ⟨hlane, ?_, ((setStatus_sameElsewhere _).trans hsame).trans (setStatus_sameElsewhere _)⟩
  simp [installSnapshot, setStatus]

/-- Applying a delta patches one lane and changes no status. -/
theorem applyDelta_spec (delta : CkfDelta) :
    (applyDelta l delta c).lane l = patch (c.lane l) delta.buckets ∧
      (applyDelta l delta c).laneStatus = c.laneStatus ∧
      SameElsewhere l c (applyDelta l delta c) := foldl_storeAt_spec delta.buckets

end Lanes

/-- The lane found for a Region is bound to it. -/
theorem laneRegions_of_laneOf {c : CkfConsumer} {region : RegionId} {l : RegionLane}
    (h : c.laneOf region = some l) : c.laneRegions l = some region := by
  have := List.find?_some h
  exact eq_of_beq this

/-! ## What a producer publishes -/

/-- The enumeration of a function's values pairs every index with its value. -/
private theorem mem_ofFn_zipIdx {n : Nat} (f : Fin n → PackedBucket) (e : Nat × PackedBucket) :
    e ∈ (List.ofFn f).zipIdx.map (fun p => (p.2, p.1)) ↔ ∃ i : Fin n, e = (i.val, f i) := by
  constructor
  · intro he
    obtain ⟨p, hp, rfl⟩ := List.mem_map.1 he
    obtain ⟨_, hlt, hval⟩ := List.mem_zipIdx hp
    rw [List.length_ofFn, Nat.zero_add] at hlt
    refine ⟨⟨p.2, hlt⟩, ?_⟩
    simpa using hval
  · rintro ⟨i, rfl⟩
    refine List.mem_map.2 ⟨(f i, i.val), ?_, rfl⟩
    rw [List.mem_zipIdx_iff_getElem?]
    simp

/-- A snapshot of all buckets replaces the whole lane. -/
theorem patch_full {f : Lane} {snapshot : CkfSnapshot} (h : snapshot.buckets = List.ofFn f)
    (lane : Lane) : patch lane snapshot.entries = f := by
  have hentries : ∀ e, e ∈ snapshot.entries ↔ ∃ i : BucketIdx, e = (i.val, f i) := by
    intro e
    rw [CkfSnapshot.entries, h]
    exact mem_ofFn_zipIdx f e
  funext i
  rw [patch_of_values (fun e he => (hentries e).1 he) lane i]
  exact if_pos ((hentries _).2 ⟨i, rfl⟩)

/-- The lane of a Region answers like the buckets just installed in it. -/
theorem estimateOverlap_installSnapshot {H : Xxh3} {c : CkfConsumer} {l : RegionLane}
    {region : RegionId} {f : Lane} {snapshot : CkfSnapshot} (h : snapshot.buckets = List.ofFn f)
    (hl : c.laneOf region = some l) {hashes : List BlockHash} :
    (c.installSnapshot l snapshot).estimateOverlap H hashes region =
      prefixHits (laneContains H f) hashes := by
  obtain ⟨hlane, hstatus, hsame⟩ := installSnapshot_spec (l := l) (c := c) snapshot
  rw [patch_full h] at hlane
  have hl' : (c.installSnapshot l snapshot).laneOf region = some l := by
    rw [laneOf, hsame.laneRegions, ← laneOf, hl]
  simp only [estimateOverlap, hl', hstatus, if_true, hlane]

end CkfConsumer

end HierKvGateway
