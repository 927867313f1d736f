import HierKvGateway.Gateway.ClusterBridge

/-!
# Gateway.Snapshots — snapshots of any length

A peer may send any list of buckets and any declared count. The handler compares the
two with each other, and nothing compares them with the size of a lane but a debug
assertion in `install_snapshot`. With debug assertions off a longer snapshot panics in
the loop that writes the buckets, after the lane has been retired; a shorter one writes
the first buckets and activates the lane. `apply_delta` checks every index.

Here a call has an `Outcome`: it returns, or it panics and leaves what it has written.
When it returns it is the call of `Gateway.ClusterBridge` (`tryHandle_returned`).
-/

namespace HierKvGateway

/-- How a call ends: it returns, or it panics and leaves what it has done so far. -/
inductive Outcome (σ : Type) where
  | returned (s : σ)
  | panicked (s : σ)

namespace CkfConsumer

/-- Store bucket after bucket, up to the first index that is out of bounds. -/
def storeAll (l : RegionLane) : List (Nat × PackedBucket) → CkfConsumer → Outcome CkfConsumer
  | [], c => .returned c
  | e :: es, c =>
    if h : e.1 < bucketsPerLane then storeAll l es (c.store l ⟨e.1, h⟩ e.2) else .panicked c

/-- `install_snapshot`, with a snapshot of any length. -/
def tryInstallSnapshot (l : RegionLane) (snapshot : CkfSnapshot) (c : CkfConsumer) :
    Outcome CkfConsumer :=
  match storeAll l snapshot.entries (c.setStatus l .retired) with
  | .returned c => .returned (c.setStatus l .active)
  | .panicked c => .panicked c

end CkfConsumer

namespace MetadataGossipHandler

/-- `handle_ckf_barrier_snapshot`, with a snapshot of any length. -/
def tryCkfBarrierSnapshot (pool : PoolId) (sequence : BitVec 64) (buckets : List PackedBucket)
    (numBuckets : Nat) (g : MetadataGossipHandler) : Outcome MetadataGossipHandler :=
  match g.consumer.laneOf pool.region with
  | none => .returned g
  | some l =>
    if buckets.length ≠ numBuckets then .returned g
    else
      match g.consumer.tryInstallSnapshot l ⟨sequence, buckets⟩ with
      | .returned consumer => .returned ⟨consumer, g.kvVersion + 1⟩
      | .panicked consumer => .panicked ⟨consumer, g.kvVersion⟩

/-- A message arrives. Deltas are checked, index by index. -/
def tryHandle (g : MetadataGossipHandler) : ClusterMessage → Outcome MetadataGossipHandler
  | .ckfBarrierSnapshot pool sequence buckets numBuckets =>
    g.tryCkfBarrierSnapshot pool sequence buckets numBuckets
  | .ckfDelta pool sequence prevSequence dirtyBuckets =>
    .returned (g.handleCkfDelta pool sequence prevSequence dirtyBuckets)

/-- The lane is as it was, its state included. -/
def Unchanged (g g' : MetadataGossipHandler) (l : RegionLane) : Prop :=
  g'.lane l = g.lane l ∧ g'.status l = g.status l

/-- All buckets of the lane are those of the message, and the lane is active. -/
def Replaced (buckets : List PackedBucket) (g' : MetadataGossipHandler) (l : RegionLane) : Prop :=
  (∀ i : BucketIdx, buckets[i.val]? = some (g'.lane l i)) ∧ g'.status l = .active

/-- The message does not panic, and a snapshot leaves every lane as it was or
replaces it whole. -/
def Harmless (g : MetadataGossipHandler) (m : ClusterMessage) : Prop :=
  ∃ g', g.tryHandle m = .returned g' ∧
    ∀ pool sequence buckets numBuckets,
      m = .ckfBarrierSnapshot pool sequence buckets numBuckets →
        ∀ l, Unchanged g g' l ∨ Replaced buckets g' l

/-- The message is dropped, or is a delta, or has as many buckets as a lane, or
repeats the first buckets of a lane that is active. -/
def WellFormed (g : MetadataGossipHandler) : ClusterMessage → Prop
  | .ckfBarrierSnapshot pool _ buckets numBuckets =>
    ∀ l, g.consumer.laneOf pool.region = some l → buckets.length = numBuckets →
      buckets.length = bucketsPerLane ∨
        (buckets.length < bucketsPerLane ∧ g.status l = .active ∧
          ∀ (i : BucketIdx) (hi : i.val < buckets.length), buckets[i.val] = g.lane l i)
  | .ckfDelta _ _ _ _ => True

end MetadataGossipHandler

/-! ## Writing the buckets of a snapshot -/

namespace CkfConsumer

variable {l : RegionLane} {c : CkfConsumer}

/-- Within bounds the writes are those of the checked loop. -/
theorem storeAll_inBounds {entries : List (Nat × PackedBucket)}
    (h : ∀ e ∈ entries, e.1 < bucketsPerLane) :
    storeAll l entries c = .returned (entries.foldl (storeAt l) c) := by
  induction entries generalizing c with
  | nil => rfl
  | cons e es ih =>
    obtain ⟨he, hes⟩ := List.forall_mem_cons.1 h
    have hstore : storeAt l c e = c.store l ⟨e.1, he⟩ e.2 := dif_pos he
    rw [storeAll, dif_pos he, ih hes, List.foldl_cons, hstore]

theorem storeAll_outOfBounds {entries : List (Nat × PackedBucket)} {e : Nat × PackedBucket}
    (he : e ∈ entries) (h : bucketsPerLane ≤ e.1) :
    ∃ c', storeAll l entries c = .panicked c' := by
  induction entries generalizing c with
  | nil => exact absurd he List.not_mem_nil
  | cons x xs ih =>
    by_cases hx : x.1 < bucketsPerLane
    · have hne : e ≠ x := fun heq => absurd (heq ▸ hx) (Nat.not_lt.2 h)
      rw [storeAll, dif_pos hx]
      exact ih ((List.mem_cons.1 he).resolve_left hne)
    · rw [storeAll, dif_neg hx]
      exact ⟨c, rfl⟩

/-- The entries of a snapshot are its buckets at their indices. -/
theorem mem_entries {snapshot : CkfSnapshot} {i : Nat} {v : PackedBucket} :
    (i, v) ∈ snapshot.entries ↔ snapshot.buckets[i]? = some v := by
  rw [CkfSnapshot.entries, List.mem_map]
  constructor
  · rintro ⟨p, hp, heq⟩
    rw [List.mem_zipIdx_iff_getElem?] at hp
    obtain ⟨rfl, rfl⟩ := Prod.mk.inj heq
    exact hp
  · intro h
    exact ⟨(v, i), List.mem_zipIdx_iff_getElem?.2 h, rfl⟩

/-- A snapshot no longer than a lane is installed. -/
theorem tryInstallSnapshot_short (snapshot : CkfSnapshot)
    (h : snapshot.buckets.length ≤ bucketsPerLane) :
    c.tryInstallSnapshot l snapshot = .returned (c.installSnapshot l snapshot) := by
  have hin : ∀ e ∈ snapshot.entries, e.1 < bucketsPerLane := by
    intro e he
    have hlt := (List.getElem?_eq_some_iff.1 (mem_entries.1 he)).1
    omega
  rw [tryInstallSnapshot, storeAll_inBounds hin, installSnapshot]

/-- A longer one panics. -/
theorem tryInstallSnapshot_long (snapshot : CkfSnapshot)
    (h : bucketsPerLane < snapshot.buckets.length) :
    ∃ c', c.tryInstallSnapshot l snapshot = .panicked c' := by
  have hmem : (bucketsPerLane, snapshot.buckets[bucketsPerLane]) ∈ snapshot.entries :=
    mem_entries.2 (List.getElem?_eq_getElem h)
  rcases storeAll_outOfBounds (l := l) (c := c.setStatus l .retired) hmem (le_refl _)
    with ⟨c', hc'⟩
  refine ⟨c', ?_⟩
  rw [tryInstallSnapshot, hc']

/-- A snapshot no longer than a lane overwrites its first buckets. -/
theorem patch_entries {snapshot : CkfSnapshot} (h : snapshot.buckets.length ≤ bucketsPerLane)
    (lane : Lane) (i : BucketIdx) :
    patch lane snapshot.entries i = (snapshot.buckets[i.val]?).getD (lane i) := by
  have hvalues : ∀ e ∈ snapshot.entries,
      ∃ j : BucketIdx, e = (j.val, (snapshot.buckets[j.val]?).getD 0) := by
    rintro ⟨j, v⟩ he
    have hv := mem_entries.1 he
    have hlt := (List.getElem?_eq_some_iff.1 hv).1
    refine ⟨⟨j, hlt.trans_le h⟩, ?_⟩
    rw [hv, Option.getD_some]
  rw [patch_of_values hvalues]
  cases hi : snapshot.buckets[i.val]? with
  | none =>
    refine if_neg fun hmem => ?_
    exact absurd (hi.symm.trans (mem_entries.1 hmem)) (Option.some_ne_none _).symm
  | some v => exact if_pos (mem_entries.2 hi)

end CkfConsumer

/-! ## Receiving -/

namespace MetadataGossipHandler

variable {g g' : MetadataGossipHandler} {l : RegionLane}

/-- A call that returns is the call of the total handler. -/
theorem tryHandle_returned {m : ClusterMessage} (h : g.tryHandle m = .returned g') :
    g' = g.handle m := by
  cases m with
  | ckfBarrierSnapshot pool sequence buckets numBuckets =>
    rw [tryHandle, tryCkfBarrierSnapshot] at h
    rw [handle, handleCkfBarrierSnapshot]
    cases hl : g.consumer.laneOf pool.region with
    | none =>
      simp only [hl, Outcome.returned.injEq] at h
      exact h.symm
    | some l =>
      simp only [hl] at h
      by_cases hcount : buckets.length = numBuckets
      · rw [if_neg (not_not.2 hcount)] at h
        dsimp only
        rw [if_neg (not_not.2 hcount)]
        by_cases hlong : bucketsPerLane < buckets.length
        · rcases CkfConsumer.tryInstallSnapshot_long (l := l) (c := g.consumer)
            ⟨sequence, buckets⟩ hlong with ⟨c', hc'⟩
          rw [hc'] at h
          exact absurd h (by simp)
        · have hshort := CkfConsumer.tryInstallSnapshot_short (l := l) (c := g.consumer)
            ⟨sequence, buckets⟩ (Nat.not_lt.1 hlong)
          rw [hshort] at h
          exact (Outcome.returned.inj h).symm
      · rw [if_pos hcount, Outcome.returned.injEq] at h
        dsimp only
        rw [if_pos hcount]
        exact h.symm
  | ckfDelta pool sequence prevSequence dirtyBuckets => exact (Outcome.returned.inj h).symm

/-- What a snapshot for a bound lane with the declared count does: it panics, or it
overwrites the first buckets of the lane and activates it. -/
theorem tryHandle_bound {pool : PoolId} (sequence : BitVec 64) {buckets : List PackedBucket}
    {numBuckets : Nat} (hl : g.consumer.laneOf pool.region = some l)
    (hcount : buckets.length = numBuckets) :
    (bucketsPerLane < buckets.length ∧
        ∃ g', g.tryHandle (.ckfBarrierSnapshot pool sequence buckets numBuckets) = .panicked g') ∨
      (buckets.length ≤ bucketsPerLane ∧
        ∃ g', g.tryHandle (.ckfBarrierSnapshot pool sequence buckets numBuckets) = .returned g' ∧
          (∀ i : BucketIdx, g'.lane l i = (buckets[i.val]?).getD (g.lane l i)) ∧
          g'.status l = .active ∧ ∀ m, m ≠ l → Unchanged g g' m) := by
  simp only [tryHandle, tryCkfBarrierSnapshot, hl, if_neg (not_not.2 hcount)]
  rcases Nat.lt_or_ge bucketsPerLane buckets.length with hlong | hshort
  · rcases CkfConsumer.tryInstallSnapshot_long (l := l) (c := g.consumer)
      ⟨sequence, buckets⟩ hlong with ⟨c', hc'⟩
    rw [hc']
    exact Or.inl ⟨hlong, _, rfl⟩
  · rw [CkfConsumer.tryInstallSnapshot_short ⟨sequence, buckets⟩ hshort]
    obtain ⟨hlane, hstatus, hsame⟩ := CkfConsumer.installSnapshot_spec (l := l) (c := g.consumer)
      ⟨sequence, buckets⟩
    refine Or.inr ⟨hshort, _, rfl, fun i => ?_, hstatus,
      fun m hm => ⟨hsame.lane m hm, hsame.laneStatus m hm⟩⟩
    exact (congrFun hlane i).trans (CkfConsumer.patch_entries hshort _ i)

/-- A snapshot that is dropped leaves every lane as it was. -/
theorem harmless_of_dropped {m : ClusterMessage} (h : g.tryHandle m = .returned g) :
    Harmless g m := ⟨g, h, fun _ _ _ _ _ _ => Or.inl ⟨rfl, rfl⟩⟩

/-- A snapshot for a bound lane that is harmless has as many buckets as a lane, or
repeats what is there. -/
theorem wellFormed_of_harmless {m : ClusterMessage} (h : Harmless g m) : WellFormed g m := by
  cases m with
  | ckfDelta pool sequence prevSequence dirtyBuckets => exact trivial
  | ckfBarrierSnapshot pool sequence buckets numBuckets =>
    intro l hl hcount
    obtain ⟨g', hg', hharmless⟩ := h
    rcases tryHandle_bound sequence hl hcount with
      ⟨_, g'', hpanic⟩ | ⟨hshort, g'', hreturn, hlane, hactive, _⟩
    · exact absurd (hg'.symm.trans hpanic) (by simp)
    · obtain rfl := Outcome.returned.inj (hg'.symm.trans hreturn)
      rcases hharmless pool sequence buckets numBuckets rfl l with hsame | hall
      · -- unchanged: it was active, and the first buckets were there already
        rcases Nat.eq_or_lt_of_le hshort with heq | hlt
        · exact Or.inl heq
        · refine Or.inr ⟨hlt, hsame.2.symm.trans hactive, fun i hi => ?_⟩
          rw [← hsame.1, hlane i, List.getElem?_eq_getElem hi, Option.getD_some]
      · -- replaced: there is a value for the last bucket
        have hlast := hall.1 ⟨bucketsPerLane - 1, by decide⟩
        have hlt := (List.getElem?_eq_some_iff.1 hlast).1
        dsimp only at hlt
        omega

/-- A well-formed snapshot for a bound lane replaces it or leaves it as it was. -/
theorem harmless_of_bound {pool : PoolId} {sequence : BitVec 64} {buckets : List PackedBucket}
    {numBuckets : Nat} (hl : g.consumer.laneOf pool.region = some l)
    (hcount : buckets.length = numBuckets)
    (h : WellFormed g (.ckfBarrierSnapshot pool sequence buckets numBuckets)) :
    Harmless g (.ckfBarrierSnapshot pool sequence buckets numBuckets) := by
  have hform := h l hl hcount
  rcases tryHandle_bound sequence hl hcount with
    ⟨hlong, _⟩ | ⟨_, g', hreturn, hlane, hactive, hother⟩
  · omega
  · refine ⟨g', hreturn, ?_⟩
    rintro _ _ _ _ ⟨⟩ m
    by_cases hm : m = l
    · subst hm
      rcases hform with hfull | ⟨_, hwas, hrepeat⟩
      · refine Or.inr ⟨fun i => ?_, hactive⟩
        have hi : i.val < buckets.length := i.isLt.trans_eq hfull.symm
        rw [hlane i, List.getElem?_eq_getElem hi, Option.getD_some]
      · refine Or.inl ⟨funext fun i => ?_, hactive.trans hwas.symm⟩
        rw [hlane i]
        rcases Nat.lt_or_ge i.val buckets.length with hi | hi
        · rw [List.getElem?_eq_getElem hi, Option.getD_some, hrepeat i hi]
        · rw [List.getElem?_eq_none hi, Option.getD_none]
    · exact Or.inl (hother m hm)

/-- A message is harmless exactly when it is well formed. -/
theorem harmless_iff (g : MetadataGossipHandler) (m : ClusterMessage) :
    Harmless g m ↔ WellFormed g m := by
  constructor
  · exact wellFormed_of_harmless
  · intro h
    cases m with
    | ckfDelta pool sequence prevSequence dirtyBuckets => exact ⟨_, rfl, nofun⟩
    | ckfBarrierSnapshot pool sequence buckets numBuckets =>
      cases hl : g.consumer.laneOf pool.region with
      | none =>
        refine harmless_of_dropped ?_
        simp only [tryHandle, tryCkfBarrierSnapshot, hl]
      | some l =>
        by_cases hcount : buckets.length = numBuckets
        · exact harmless_of_bound hl hcount h
        · refine harmless_of_dropped ?_
          simp only [tryHandle, tryCkfBarrierSnapshot, hl]
          exact if_pos hcount

/-- A handler with a lane for one Region. -/
def oneRegion : MetadataGossipHandler := ⟨CkfConsumer.new.assignLane 0 ⟨"r1"⟩, 0⟩

/-- One bucket too many, declared as such. -/
def oversized : ClusterMessage :=
  .ckfBarrierSnapshot ⟨⟨0⟩, ⟨"r1"⟩⟩ 1 (List.replicate (bucketsPerLane + 1) 0) (bucketsPerLane + 1)

theorem not_harmless_oversized : ¬ ∀ g m, Harmless g m := by
  intro h
  rcases h oneRegion oversized with ⟨g', hg', _⟩
  have hl : oneRegion.consumer.laneOf (⟨⟨0⟩, ⟨"r1"⟩⟩ : PoolId).region = some 0 := by decide
  rcases tryHandle_bound 1 hl List.length_replicate with
    ⟨_, g'', hpanic⟩ | ⟨hshort, _⟩
  · exact absurd (hg'.symm.trans hpanic) (by simp)
  · rw [List.length_replicate] at hshort
    exact absurd hshort (Nat.not_succ_le_self _)

end MetadataGossipHandler

end HierKvGateway
