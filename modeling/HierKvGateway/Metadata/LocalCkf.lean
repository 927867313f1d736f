import HierKvGateway.Metadata.CuckooLane

/-!
# Metadata.LocalCkf — one cuckoo lane per local backend

The local projection (`local_ckf.rs`): sixteen lanes in bucket-major layout, the
binding between lanes and backends in both directions, and a status per lane.
The compare-and-swap loops of `insert` and `delete` retry until their read is
current, so each of them is one atomic operation on the lane.

Besides the operations, this file proves what every state keeps
(`LocalCkf.Bound`): the two binding maps are inverse to each other and a bound
lane is active.
-/

namespace HierKvGateway

/-- Number of local backend lanes supported. -/
abbrev localLaneCount : Nat := 16

/-- Index of a local lane. -/
abbrev LocalLane := Fin localLaneCount

instance : NeZero localLaneCount := ⟨Nat.succ_ne_zero 15⟩

/-- Lane states. -/
inductive LaneStatus where
  | active
  | retired
deriving DecidableEq, Repr

/-- Local CKF projection with per-backend lanes. -/
structure LocalCkf where
  /-- Bucket-major layout: the packed value of a bucket in each lane. -/
  buckets : BucketIdx → LocalLane → PackedBucket
  /-- Lane → backend currently bound to it. -/
  laneBackends : LocalLane → Option BackendId
  /-- Backend → lane. -/
  backendLanes : BackendId → Option LocalLane
  laneStatus : LocalLane → LaneStatus

namespace LocalCkf

/-- An empty projection: every lane is retired. -/
def new : LocalCkf where
  buckets := fun _ _ => 0
  laneBackends := fun _ => none
  backendLanes := fun _ => none
  laneStatus := fun _ => .retired

/-- The buckets of one lane. -/
def lane (c : LocalCkf) (l : LocalLane) : Lane := fun i => c.buckets i l

/-- Store all buckets of one lane. -/
def setLane (c : LocalCkf) (l : LocalLane) (b : Lane) : LocalCkf :=
  { c with buckets := fun i => Function.update (c.buckets i) l (b i) }

/-- Set the state of one lane. -/
def setStatus (c : LocalCkf) (l : LocalLane) (s : LaneStatus) : LocalCkf :=
  { c with laneStatus := Function.update c.laneStatus l s }

/-- The first lane no backend is bound to. -/
def freeLane (c : LocalCkf) : Option LocalLane :=
  (List.finRange localLaneCount).find? fun l => (c.laneBackends l).isNone

/-- Assign a lane to a backend, or return the one it has. The lane is emptied,
bound in both directions and activated. -/
def assignLane (backend : BackendId) (c : LocalCkf) : LocalCkf × Option LocalLane :=
  match c.backendLanes backend with
  | some l => (c, some l)
  | none =>
    match c.freeLane with
    | some l =>
      let c := c.setLane l fun _ => 0
      let c := { c with
        laneBackends := Function.update c.laneBackends l (some backend)
        backendLanes := Function.update c.backendLanes backend (some l) }
      (c.setStatus l .active, some l)
    | none => (c, none)

/-- Unassign the lane of a backend and empty it. -/
def unassignLane (backend : BackendId) (c : LocalCkf) : LocalCkf :=
  match c.backendLanes backend with
  | none => c
  | some l =>
    let c := { c with backendLanes := Function.update c.backendLanes backend none }
    let c := (c.setStatus l .retired).setLane l fun _ => 0
    { c with laneBackends := Function.update c.laneBackends l none }

/-- The lane of a backend, if assigned. -/
def laneOf (c : LocalCkf) (backend : BackendId) : Option LocalLane := c.backendLanes backend

/-- Insert a fingerprint into a lane; `false` if the lane is not active or both
candidate buckets are full. -/
def insert (H : Xxh3) (hash : BlockHash) (l : LocalLane) (c : LocalCkf) : LocalCkf × Bool :=
  if c.laneStatus l = .active then
    let (b, ok) := laneInsert H hash (c.lane l)
    (c.setLane l b, ok)
  else (c, false)

/-- Delete a fingerprint from a lane; `false` if the lane is not active or
neither candidate bucket holds it. -/
def delete (H : Xxh3) (hash : BlockHash) (l : LocalLane) (c : LocalCkf) : LocalCkf × Bool :=
  if c.laneStatus l = .active then
    let (b, ok) := laneDelete H hash (c.lane l)
    (c.setLane l b, ok)
  else (c, false)

/-- The prefix overlap of one lane. -/
def estimateOverlap (H : Xxh3) (hashes : List BlockHash) (l : LocalLane) (c : LocalCkf) : Nat :=
  if c.laneStatus l = .active then prefixHits (laneContains H (c.lane l)) hashes else 0

/-- Empty a lane. It is retired while its buckets are zeroed and active
afterwards, whatever it was before. -/
def clearLane (l : LocalLane) (c : LocalCkf) : LocalCkf :=
  ((c.setStatus l .retired).setLane l fun _ => 0).setStatus l .active

/-! ## Lanes, bindings and states after an operation -/

section Update

variable (c : LocalCkf) (l m : LocalLane) (b : Lane) (s : LaneStatus)

@[simp] theorem lane_setLane_self : (c.setLane l b).lane l = b := by
  funext i
  simp [setLane, lane]

theorem lane_setLane_of_ne (h : m ≠ l) : (c.setLane l b).lane m = c.lane m := by
  funext i
  simp [setLane, lane, h]

@[simp] theorem laneBackends_setLane : (c.setLane l b).laneBackends = c.laneBackends := rfl

@[simp] theorem backendLanes_setLane : (c.setLane l b).backendLanes = c.backendLanes := rfl

@[simp] theorem laneStatus_setLane : (c.setLane l b).laneStatus = c.laneStatus := rfl

@[simp] theorem lane_setStatus : (c.setStatus l s).lane = c.lane := rfl

@[simp] theorem laneBackends_setStatus : (c.setStatus l s).laneBackends = c.laneBackends := rfl

@[simp] theorem backendLanes_setStatus : (c.setStatus l s).backendLanes = c.backendLanes := rfl

end Update

section Ops

variable {H : Xxh3} {hash : BlockHash} {l m : LocalLane} {c : LocalCkf} {backend : BackendId}

/-- The parts of the projection an operation on the contents of lane `l` leaves
alone: the bindings, the states, and every other lane. -/
structure SameBindings (l : LocalLane) (c c' : LocalCkf) : Prop where
  laneBackends : c'.laneBackends = c.laneBackends
  backendLanes : c'.backendLanes = c.backendLanes
  laneStatus : c'.laneStatus = c.laneStatus
  lane : ∀ m, m ≠ l → c'.lane m = c.lane m

theorem insert_active (h : c.laneStatus l = .active) :
    insert H hash l c =
      (c.setLane l (laneInsert H hash (c.lane l)).1, (laneInsert H hash (c.lane l)).2) := by
  rw [insert, if_pos h]

theorem delete_active (h : c.laneStatus l = .active) :
    delete H hash l c =
      (c.setLane l (laneDelete H hash (c.lane l)).1, (laneDelete H hash (c.lane l)).2) := by
  rw [delete, if_pos h]

theorem insert_sameBindings : SameBindings l c (insert H hash l c).1 := by
  unfold insert
  split
  · exact ⟨rfl, rfl, rfl, fun m hm => lane_setLane_of_ne _ _ _ _ hm⟩
  · exact ⟨rfl, rfl, rfl, fun _ _ => rfl⟩

theorem delete_sameBindings : SameBindings l c (delete H hash l c).1 := by
  unfold delete
  split
  · exact ⟨rfl, rfl, rfl, fun m hm => lane_setLane_of_ne _ _ _ _ hm⟩
  · exact ⟨rfl, rfl, rfl, fun _ _ => rfl⟩

@[simp] theorem clearLane_lane_self : (clearLane l c).lane l = fun _ => 0 := by
  simp [clearLane]

theorem clearLane_lane_of_ne (h : m ≠ l) : (clearLane l c).lane m = c.lane m := by
  simp [clearLane, lane_setLane_of_ne _ _ _ _ h]

@[simp] theorem clearLane_laneBackends : (clearLane l c).laneBackends = c.laneBackends := rfl

@[simp] theorem clearLane_backendLanes : (clearLane l c).backendLanes = c.backendLanes := rfl

theorem clearLane_laneStatus :
    (clearLane l c).laneStatus = Function.update c.laneStatus l .active := by
  simp [clearLane, setStatus]

theorem estimateOverlap_active (h : c.laneStatus l = .active) (hashes : List BlockHash) :
    c.estimateOverlap H hashes l = prefixHits (laneContains H (c.lane l)) hashes := if_pos h

end Ops

/-! ## Binding and unbinding a lane -/

section Binding

variable {l m : LocalLane} {c c' : LocalCkf} {backend : BackendId}

/-- `c'` is `c` with the free lane `l` emptied, activated and bound to a backend
that had none. -/
structure Assigned (backend : BackendId) (l : LocalLane) (c c' : LocalCkf) : Prop where
  free : c.laneBackends l = none
  fresh : c.backendLanes backend = none
  laneBackends : c'.laneBackends = Function.update c.laneBackends l (some backend)
  backendLanes : c'.backendLanes = Function.update c.backendLanes backend (some l)
  laneStatus : c'.laneStatus = Function.update c.laneStatus l .active
  empty : c'.lane l = fun _ => 0
  lane : ∀ m, m ≠ l → c'.lane m = c.lane m

/-- `c'` is `c` with the lane of a backend emptied, retired and unbound. -/
structure Unassigned (backend : BackendId) (l : LocalLane) (c c' : LocalCkf) : Prop where
  bound : c.backendLanes backend = some l
  laneBackends : c'.laneBackends = Function.update c.laneBackends l none
  backendLanes : c'.backendLanes = Function.update c.backendLanes backend none
  laneStatus : c'.laneStatus = Function.update c.laneStatus l .retired
  empty : c'.lane l = fun _ => 0
  lane : ∀ m, m ≠ l → c'.lane m = c.lane m

theorem freeLane_some (h : c.freeLane = some l) : c.laneBackends l = none := by
  have hfound := List.find?_some h
  simpa using hfound

theorem freeLane_none (h : c.freeLane = none) (l : LocalLane) : c.laneBackends l ≠ none := by
  have hnone := List.find?_eq_none.1 h l (List.mem_finRange l)
  simpa using hnone

theorem assignLane_of_bound (h : c.backendLanes backend = some l) :
    assignLane backend c = (c, some l) := by
  rw [assignLane, h]

/-- The three outcomes of an assignment. -/
theorem assignLane_cases (backend : BackendId) (c : LocalCkf) :
    (∃ l, c.backendLanes backend = some l ∧ assignLane backend c = (c, some l)) ∨
    (∃ l c', Assigned backend l c c' ∧ assignLane backend c = (c', some l)) ∨
    (c.backendLanes backend = none ∧ c.freeLane = none ∧ assignLane backend c = (c, none)) := by
  cases hb : c.backendLanes backend with
  | some l => exact Or.inl ⟨l, rfl, assignLane_of_bound hb⟩
  | none =>
    cases hfree : c.freeLane with
    | none => exact Or.inr (Or.inr ⟨rfl, rfl, by rw [assignLane, hb]; dsimp only; rw [hfree]⟩)
    | some l =>
      refine Or.inr (Or.inl ⟨l, (assignLane backend c).1, ?_, ?_⟩)
      all_goals
        rw [assignLane, hb]
        dsimp only
        rw [hfree]
      refine ⟨freeLane_some hfree, hb, rfl, rfl, rfl, ?_, fun m hm => ?_⟩
      · exact lane_setLane_self c l _
      · exact lane_setLane_of_ne c l m _ hm

theorem unassignLane_of_unbound (h : c.backendLanes backend = none) :
    unassignLane backend c = c := by
  rw [unassignLane, h]

theorem unassignLane_of_bound (h : c.backendLanes backend = some l) :
    Unassigned backend l c (unassignLane backend c) := by
  rw [unassignLane, h]
  refine ⟨h, rfl, rfl, rfl, ?_, fun m hm => ?_⟩
  · exact lane_setLane_self _ l _
  · exact lane_setLane_of_ne (c.setStatus l .retired) l m _ hm

/-- The lane that is returned is the lane the backend has. -/
theorem backendLanes_assignLane_self (h : (assignLane backend c).2 = some l) :
    (assignLane backend c).1.backendLanes backend = some l := by
  rcases assignLane_cases backend c with ⟨m, hm, heq⟩ | ⟨m, c', ha, heq⟩ | ⟨_, _, heq⟩
  · rw [heq] at h ⊢
    exact hm.trans h
  · rw [heq] at h ⊢
    rw [ha.backendLanes, Function.update_self]
    exact h
  · rw [heq] at h
    contradiction

/-- A backend keeps its lane when lanes are assigned. -/
theorem backendLanes_assignLane {backend' : BackendId} (h : c.backendLanes backend' = some l) :
    (assignLane backend c).1.backendLanes backend' = some l := by
  rcases assignLane_cases backend c with ⟨m, _, heq⟩ | ⟨m, c', ha, heq⟩ | ⟨_, _, heq⟩
  · rw [heq]
    exact h
  · -- the backend that gets a new one had none
    have hne : backend' ≠ backend := by
      rintro rfl
      rw [ha.fresh] at h
      contradiction
    rw [heq, ha.backendLanes, Function.update_of_ne hne]
    exact h
  · rw [heq]
    exact h

theorem backendLanes_unassignLane_of_ne {backend' : BackendId} (hne : backend' ≠ backend) :
    (unassignLane backend c).backendLanes backend' = c.backendLanes backend' := by
  cases hb : c.backendLanes backend with
  | none => rw [unassignLane_of_unbound hb]
  | some m => rw [(unassignLane_of_bound hb).backendLanes, Function.update_of_ne hne]

end Binding

/-! ## What every state keeps -/

/-- The two binding maps are inverse to each other, a bound lane is active and
an unbound one is retired. -/
structure Bound (c : LocalCkf) : Prop where
  inverse : ∀ b l, c.backendLanes b = some l ↔ c.laneBackends l = some b
  active : ∀ l, c.laneBackends l ≠ none → c.laneStatus l = .active
  retired : ∀ l, c.laneBackends l = none → c.laneStatus l = .retired

section Bound

variable {l : LocalLane} {c c' : LocalCkf} {backend b : BackendId}

theorem Bound.new : Bound new :=
  ⟨fun _ _ => iff_of_false nofun nofun, fun _ h => absurd rfl h, fun _ _ => rfl⟩

theorem Bound.active_of_laneOf (h : Bound c) (hl : c.backendLanes backend = some l) :
    c.laneStatus l = .active :=
  h.active l (by rw [(h.inverse backend l).1 hl]; exact Option.some_ne_none _)

/-- Two backends never share a lane. -/
theorem Bound.injective (h : Bound c) (hb : c.backendLanes b = some l)
    (hb' : c.backendLanes backend = some l) : b = backend := by
  have h1 := (h.inverse b l).1 hb
  have h2 := (h.inverse backend l).1 hb'
  exact Option.some_inj.1 (h1.symm.trans h2)

/-- A lane is assigned: the backends that have one keep its buckets. -/
theorem Bound.lane_of_assigned (h : Bound c) (ha : Assigned backend l c c') {m : LocalLane}
    (hb : c.backendLanes b = some m) : c'.lane m = c.lane m := by
  apply ha.lane
  rintro rfl
  rw [h.inverse, ha.free] at hb
  contradiction

/-- A lane is unassigned: so do the other backends. -/
theorem Bound.lane_of_unassigned (h : Bound c) (hu : Unassigned backend l c c') {m : LocalLane}
    (hb : c.backendLanes b = some m) (hne : b ≠ backend) : c'.lane m = c.lane m := by
  apply hu.lane
  rintro rfl
  exact hne (h.injective hb hu.bound)

theorem Bound.same (h : Bound c) (hsame : SameBindings l c c') : Bound c' where
  inverse b m := by rw [hsame.backendLanes, hsame.laneBackends]; exact h.inverse b m
  active m := by rw [hsame.laneBackends, hsame.laneStatus]; exact h.active m
  retired m := by rw [hsame.laneBackends, hsame.laneStatus]; exact h.retired m

/-- Clearing a bound lane keeps it active. -/
theorem Bound.clear (h : Bound c) (hl : c.laneBackends l ≠ none) : Bound (clearLane l c) where
  inverse := h.inverse
  active m hm := by
    rw [clearLane_laneStatus]
    by_cases hml : m = l
    · subst hml
      exact Function.update_self ..
    · rw [Function.update_of_ne hml]
      exact h.active m hm
  retired m hm := by
    rw [clearLane_laneStatus, Function.update_of_ne]
    · exact h.retired m hm
    · rintro rfl
      exact hl hm

theorem Bound.assigned (h : Bound c) (ha : Assigned backend l c c') : Bound c' where
  inverse b m := by
    rw [ha.backendLanes, ha.laneBackends]
    by_cases hb : b = backend
    · subst hb
      rw [Function.update_self, Option.some_inj]
      by_cases hm : m = l
      · subst hm
        simp
      · -- the backend had no lane before
        rw [Function.update_of_ne hm, ← h.inverse, ha.fresh]
        exact iff_of_false (Ne.symm hm) nofun
    · rw [Function.update_of_ne hb, h.inverse]
      by_cases hm : m = l
      · subst hm
        -- the lane had no backend before
        rw [Function.update_self, ha.free, Option.some_inj]
        exact iff_of_false nofun (Ne.symm hb)
      · rw [Function.update_of_ne hm]
  active m hm := by
    rw [ha.laneStatus]
    by_cases hml : m = l
    · subst hml
      exact Function.update_self ..
    · rw [Function.update_of_ne hml]
      rw [ha.laneBackends, Function.update_of_ne hml] at hm
      exact h.active m hm
  retired m hm := by
    have hml : m ≠ l := by
      rintro rfl
      rw [ha.laneBackends, Function.update_self] at hm
      exact absurd hm (Option.some_ne_none _)
    rw [ha.laneStatus, Function.update_of_ne hml]
    rw [ha.laneBackends, Function.update_of_ne hml] at hm
    exact h.retired m hm

theorem Bound.unassigned (h : Bound c) (hu : Unassigned backend l c c') : Bound c' where
  inverse b m := by
    rw [hu.backendLanes, hu.laneBackends]
    by_cases hb : b = backend
    · subst hb
      rw [Function.update_self]
      by_cases hm : m = l
      · subst hm
        simp
      · rw [Function.update_of_ne hm, ← h.inverse, hu.bound, Option.some_inj]
        exact iff_of_false nofun (Ne.symm hm)
    · rw [Function.update_of_ne hb, h.inverse]
      by_cases hm : m = l
      · subst hm
        rw [Function.update_self, ← h.inverse]
        -- nobody else had the lane
        exact iff_of_false (fun hbm => hb (h.injective hbm hu.bound)) nofun
      · rw [Function.update_of_ne hm]
  active m hm := by
    have hml : m ≠ l := by
      rintro rfl
      rw [hu.laneBackends, Function.update_self] at hm
      exact hm rfl
    rw [hu.laneStatus, Function.update_of_ne hml]
    rw [hu.laneBackends, Function.update_of_ne hml] at hm
    exact h.active m hm
  retired m hm := by
    rw [hu.laneStatus]
    by_cases hml : m = l
    · subst hml
      exact Function.update_self ..
    · rw [Function.update_of_ne hml]
      rw [hu.laneBackends, Function.update_of_ne hml] at hm
      exact h.retired m hm

theorem Bound.assign (h : Bound c) (backend : BackendId) : Bound (assignLane backend c).1 := by
  rcases assignLane_cases backend c with ⟨l, _, heq⟩ | ⟨l, c', ha, heq⟩ | ⟨_, _, heq⟩
  · rwa [heq]
  · rw [heq]
    exact h.assigned ha
  · rwa [heq]

theorem Bound.unassign (h : Bound c) (backend : BackendId) : Bound (unassignLane backend c) := by
  cases hb : c.backendLanes backend with
  | none => rwa [unassignLane_of_unbound hb]
  | some l => exact h.unassigned (unassignLane_of_bound hb)

/-- Sixteen backends never run out of lanes. -/
theorem Bound.freeLane_ne_none (h : Bound c) {B : Finset BackendId} (hcard : B.card ≤ localLaneCount)
    (hB : ∀ b l, c.backendLanes b = some l → b ∈ B) (hmem : backend ∈ B)
    (hnone : c.backendLanes backend = none) : c.freeLane ≠ none := by
  intro hfull
  -- every lane has a backend of `B`, and `backend` has no lane
  have hbound : ∀ l, ∃ b, c.laneBackends l = some b := fun l =>
    Option.ne_none_iff_exists'.1 (freeLane_none hfull l)
  choose f hf using hbound
  have hlane : ∀ l, c.backendLanes (f l) = some l := fun l => (h.inverse _ _).2 (hf l)
  have hinj : Function.Injective f := by
    intro l m hlm
    have := hlane l
    rw [hlm, hlane m, Option.some_inj] at this
    exact this.symm
  have hsub : Finset.univ.image f ⊆ B.erase backend := by
    intro b hb
    obtain ⟨l, _, rfl⟩ := Finset.mem_image.1 hb
    refine Finset.mem_erase.2 ⟨?_, hB _ l (hlane l)⟩
    rintro rfl
    rw [hlane l] at hnone
    exact absurd hnone (Option.some_ne_none l)
  have hle := Finset.card_le_card hsub
  rw [Finset.card_image_of_injective _ hinj, Finset.card_univ, Fintype.card_fin,
    Finset.card_erase_of_mem hmem] at hle
  have hpos : 0 < B.card := Finset.card_pos.2 ⟨_, hmem⟩
  omega

end Bound

end LocalCkf

end HierKvGateway
