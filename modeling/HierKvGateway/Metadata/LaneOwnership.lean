import HierKvGateway.Lib.Run
import HierKvGateway.Lib.Update
import HierKvGateway.Metadata.CkfConsumer
import HierKvGateway.Metadata.Xxh3

/-!
# Metadata.LaneOwnership — whose fingerprints a lane reports

The binding, the status and the buckets of a consumer's lane are set by separate
calls. `assign_lane` writes the binding only: it takes the Region from no other
lane, and leaves the status and the buckets to the Region that had the lane
before. (`LocalCkf` gives a backend one retired lane and clears it when the
backend goes.)

`awaiting` is a ghost: the lane has been bound to a Region it was not bound to,
and no snapshot has been installed in it since. A Region is `Owned` its lane when
it has no other and nothing is reported from a lane that is waiting.
-/

namespace HierKvGateway

/-- A consumer, and the lanes that wait for the first snapshot of their Region. -/
structure LaneOwnership where
  consumer : CkfConsumer
  awaiting : RegionLane → Bool

/-- A call of the consumer. -/
inductive ConsumerOp where
  | assignLane (l : RegionLane) (region : RegionId)
  | unassignLane (l : RegionLane)
  | installSnapshot (l : RegionLane) (snapshot : CkfSnapshot)
  | applyDelta (l : RegionLane) (delta : CkfDelta)
  | retireLane (l : RegionLane)
  | activateLane (l : RegionLane)

namespace LaneOwnership

/-- A new consumer. -/
def new : LaneOwnership := ⟨.new, fun _ => false⟩

/-- One call. -/
def step (s : LaneOwnership) : ConsumerOp → LaneOwnership
  | .assignLane l region =>
    let taken := s.awaiting l || s.consumer.laneRegions l != some region
    ⟨s.consumer.assignLane l region, Function.update s.awaiting l taken⟩
  | .unassignLane l => ⟨s.consumer.unassignLane l, Function.update s.awaiting l false⟩
  | .installSnapshot l snapshot =>
    ⟨s.consumer.installSnapshot l snapshot, Function.update s.awaiting l false⟩
  | .applyDelta l delta => ⟨s.consumer.applyDelta l delta, s.awaiting⟩
  | .retireLane l => ⟨s.consumer.retireLane l, s.awaiting⟩
  | .activateLane l => ⟨s.consumer.activateLane l, s.awaiting⟩

/-- Each Region is bound to at most one lane. -/
def OneLane (c : CkfConsumer) : Prop :=
  ∀ region l m, c.laneRegions l = some region → c.laneRegions m = some region → l = m

/-- No Region has two lanes, and none has an overlap before its first snapshot. -/
structure Owned (H : Xxh3) (s : LaneOwnership) : Prop where
  oneLane : OneLane s.consumer
  silent : ∀ l region, s.awaiting l = true → s.consumer.laneRegions l = some region →
    ∀ hashes, s.consumer.estimateOverlap H hashes region = 0

/-- No hash is looked up successfully. -/
def NothingFound (H : Xxh3) (lane : Lane) : Prop := ∀ hash, laneContains H lane hash = false

/-- Nothing is reported from the lane. -/
def Quiet (H : Xxh3) (c : CkfConsumer) (l : RegionLane) : Prop :=
  c.laneStatus l = .active → NothingFound H (c.lane l)

/-- The calls that keep every Region `Owned`: a lane is bound to a Region that has
no other lane and, unless it is bound to it already, reports nothing; a lane that
waits is activated, or patched while active, only if nothing is found in it. -/
def Careful (H : Xxh3) (s : LaneOwnership) : ConsumerOp → Prop
  | .assignLane l region =>
    (∀ m, m ≠ l → s.consumer.laneRegions m ≠ some region) ∧
      (s.consumer.laneRegions l = some region ∨ Quiet H s.consumer l)
  | .applyDelta l delta =>
    s.awaiting l = true → s.consumer.laneStatus l = .active →
      NothingFound H (CkfConsumer.patch (s.consumer.lane l) delta.buckets)
  | .activateLane l => s.awaiting l = true → NothingFound H (s.consumer.lane l)
  | _ => True

/-! ## What is reported from a lane -/

section Report

variable {H : Xxh3} {c : CkfConsumer} {l m : RegionLane} {region : RegionId}

theorem nothingFound_iff {lane : Lane} :
    NothingFound H lane ↔ ∀ hashes, prefixHits (laneContains H lane) hashes = 0 := by
  constructor
  · intro h hashes
    cases hashes with
    | nil => rfl
    | cons hash hashes => rw [prefixHits, h hash, if_neg Bool.false_ne_true]
  · intro h hash
    have hone := h [hash]
    by_contra hfound
    rw [Bool.not_eq_false] at hfound
    rw [prefixHits, hfound, if_pos rfl] at hone
    exact absurd hone (Nat.succ_ne_zero _)

/-- Binding a lane leaves its buckets. -/
theorem lane_assignLane : (c.assignLane l region).lane m = c.lane m := rfl

/-- The lane of a Region that has only one is found. -/
theorem OneLane.laneOf (hc : OneLane c) (hl : c.laneRegions l = some region) :
    c.laneOf region = some l := by
  rw [CkfConsumer.laneOf]
  cases hfind : (List.finRange laneCount).find? fun m => c.laneRegions m == some region with
  | none =>
    have := List.find?_eq_none.1 hfind l (List.mem_finRange l)
    rw [hl, beq_self_eq_true] at this
    exact absurd rfl this
  | some m => rw [hc region l m hl (CkfConsumer.laneRegions_of_laneOf hfind)]

theorem OneLane.overlap_zero_iff (hc : OneLane c) (hl : c.laneRegions l = some region) :
    (∀ hashes, c.estimateOverlap H hashes region = 0) ↔ Quiet H c l := by
  simp only [CkfConsumer.estimateOverlap, hc.laneOf hl, Quiet]
  by_cases hactive : c.laneStatus l = .active
  · simp only [hactive, if_true, forall_const, nothingFound_iff]
  · simp only [hactive, if_false, implies_true, false_implies]

end Report

/-! ## One call -/

section Step

variable {H : Xxh3} {s s' : LaneOwnership} {l : RegionLane}

/-- If the lane waits for a snapshot of its Region, nothing is reported from it. -/
def Settled (H : Xxh3) (s : LaneOwnership) (l : RegionLane) : Prop :=
  s.awaiting l = true → ∀ region, s.consumer.laneRegions l = some region → Quiet H s.consumer l

theorem owned_iff (s : LaneOwnership) :
    Owned H s ↔ OneLane s.consumer ∧ ∀ l, Settled H s l := by
  constructor
  · rintro ⟨hone, hsilent⟩
    exact ⟨hone, fun l hl region hr => (hone.overlap_zero_iff hr).1 (hsilent l region hl hr)⟩
  · rintro ⟨hone, hsettled⟩
    exact ⟨hone, fun l region hl hr => (hone.overlap_zero_iff hr).2 (hsettled l hl region hr)⟩

/-- What a call leaves alone: everything about the other lanes. -/
structure SameElsewhere (l : RegionLane) (s s' : LaneOwnership) : Prop where
  awaiting : ∀ m, m ≠ l → s'.awaiting m = s.awaiting m
  laneRegions : ∀ m, m ≠ l → s'.consumer.laneRegions m = s.consumer.laneRegions m
  lane : ∀ m, m ≠ l → s'.consumer.lane m = s.consumer.lane m
  laneStatus : ∀ m, m ≠ l → s'.consumer.laneStatus m = s.consumer.laneStatus m

theorem sameElsewhere_of_consumer {awaiting : RegionLane → Bool} {c : CkfConsumer}
    (ha : ∀ m, m ≠ l → awaiting m = s.awaiting m)
    (hc : CkfConsumer.SameElsewhere l s.consumer c) : SameElsewhere l s ⟨c, awaiting⟩ where
  awaiting := ha
  laneRegions m _ := congrFun hc.laneRegions m
  lane := hc.lane
  laneStatus := hc.laneStatus

/-- After a call about one lane only that lane has to be looked at. -/
theorem owned_iff_of_sameElsewhere (hs : Owned H s) (h : SameElsewhere l s s') :
    Owned H s' ↔ OneLane s'.consumer ∧ Settled H s' l := by
  rw [owned_iff]
  refine and_congr_right fun _ => ⟨fun hall => hall l, fun hl m => ?_⟩
  by_cases hm : m = l
  · exact hm ▸ hl
  · have hsettled := ((owned_iff s).1 hs).2 m
    unfold Settled Quiet at hsettled ⊢
    rw [h.awaiting m hm, h.laneRegions m hm, h.lane m hm, h.laneStatus m hm]
    exact hsettled

/-- A call that binds nothing leaves no Region with two lanes. -/
theorem OneLane.of_fewer {c c' : CkfConsumer} (hc : OneLane c)
    (h : ∀ l region, c'.laneRegions l = some region → c.laneRegions l = some region) :
    OneLane c' := fun region l m hl hm => hc region l m (h l region hl) (h m region hm)

theorem oneLane_assignLane_iff {c : CkfConsumer} (hc : OneLane c) (l : RegionLane)
    (region : RegionId) :
    OneLane (c.assignLane l region) ↔ ∀ m, m ≠ l → c.laneRegions m ≠ some region := by
  constructor
  · intro h m hm hr
    refine hm (h region m l ?_ ?_)
    · simp [CkfConsumer.assignLane, hm, hr]
    · simp [CkfConsumer.assignLane]
  · intro h region' m m' hm hm'
    rcases Function.update_cases hm with ⟨rfl, hr⟩ | ⟨hne, hold⟩
    · rcases Function.update_cases hm' with ⟨rfl, _⟩ | ⟨hne', hold'⟩
      · rfl
      · exact absurd (hold'.trans hr.symm) (h m' hne')
    · rcases Function.update_cases hm' with ⟨rfl, hr⟩ | ⟨_, hold'⟩
      · exact absurd (hold.trans hr.symm) (h m hne)
      · exact hc region' m m' hold hold'

/-- Only a bound lane waits. -/
def Bound (s : LaneOwnership) : Prop :=
  ∀ l, s.awaiting l = true → ∃ region, s.consumer.laneRegions l = some region

theorem new_owned : Owned H new :=
  ⟨fun _ _ _ h => absurd h (Option.some_ne_none _).symm, fun _ _ h => absurd h Bool.false_ne_true⟩

theorem new_bound : Bound new := fun _ h => absurd h Bool.false_ne_true

theorem step_bound (hs : Bound s) (op : ConsumerOp) : Bound (step s op) := by
  intro m hm
  cases op with
  | assignLane l region =>
    rcases Function.update_cases hm with ⟨rfl, _⟩ | ⟨hne, hm⟩
    · exact ⟨region, Function.update_self ..⟩
    · rcases hs m hm with ⟨region', hr⟩
      exact ⟨region', (Function.update_of_ne hne ..).trans hr⟩
  | unassignLane l =>
    rcases Function.update_cases hm with ⟨rfl, hfalse⟩ | ⟨hne, hm⟩
    · exact absurd hfalse Bool.false_ne_true
    · rcases hs m hm with ⟨region, hr⟩
      exact ⟨region, (Function.update_of_ne hne ..).trans hr⟩
  | installSnapshot l snapshot =>
    rcases Function.update_cases hm with ⟨rfl, hfalse⟩ | ⟨hne, hm⟩
    · exact absurd hfalse Bool.false_ne_true
    · rw [step, (CkfConsumer.installSnapshot_spec snapshot).2.2.laneRegions]
      exact hs m hm
  | applyDelta l delta =>
    rw [step, (CkfConsumer.applyDelta_spec delta).2.2.laneRegions]
    exact hs m hm
  | retireLane l => exact hs m hm
  | activateLane l => exact hs m hm

/-- A bound lane that waits reports nothing. -/
theorem settled_iff (hb : Bound s) :
    Settled H s l ↔ (s.awaiting l = true → Quiet H s.consumer l) := by
  constructor
  · intro h hwait
    obtain ⟨region, hr⟩ := hb l hwait
    exact h hwait region hr
  · exact fun h hwait _ _ => h hwait

theorem settled_of_not_awaiting (h : s.awaiting l = false) : Settled H s l := by
  intro hwait
  exact absurd (h.symm.trans hwait) Bool.false_ne_true

/-- After a call that binds nothing, only the lane has to be looked at. -/
theorem owned_iff_of_sameRegions (hs : Owned H s) (h : SameElsewhere l s s')
    (hr : s'.consumer.laneRegions = s.consumer.laneRegions) : Owned H s' ↔ Settled H s' l := by
  rw [owned_iff_of_sameElsewhere hs h]
  refine and_iff_right (hs.oneLane.of_fewer fun m region hm => ?_)
  rw [← hr]
  exact hm

theorem step_assignLane_iff (hs : Owned H s) (l : RegionLane) (region : RegionId) :
    Owned H (step s (.assignLane l region)) ↔ Careful H s (.assignLane l region) := by
  have hsame : SameElsewhere l s (step s (.assignLane l region)) :=
    ⟨fun m hm => Function.update_of_ne hm .., fun m hm => Function.update_of_ne hm ..,
      fun _ _ => rfl, fun _ _ => rfl⟩
  rw [owned_iff_of_sameElsewhere hs hsame]
  refine and_congr (oneLane_assignLane_iff hs.oneLane l region) ?_
  have hbound : (s.consumer.assignLane l region).laneRegions l = some region :=
    Function.update_self ..
  have hnow : (step s (.assignLane l region)).awaiting l =
      (s.awaiting l || s.consumer.laneRegions l != some region) := Function.update_self ..
  by_cases hr : s.consumer.laneRegions l = some region
  · -- bound to this Region already: nothing changes for it
    refine iff_of_true ?_ (Or.inl hr)
    intro hwait _ _
    rw [hnow, hr, bne_self_eq_false, Bool.or_false] at hwait
    exact ((owned_iff s).1 hs).2 l hwait region hr
  · rw [or_iff_right hr]
    have hwait : (step s (.assignLane l region)).awaiting l = true := by
      rw [hnow, bne_iff_ne.2 hr, Bool.or_true]
    exact ⟨fun h => h hwait region hbound, fun h _ _ _ => h⟩

theorem step_unassignLane (hs : Owned H s) (l : RegionLane) :
    Owned H (step s (.unassignLane l)) := by
  have hsame : SameElsewhere l s (step s (.unassignLane l)) :=
    ⟨fun m hm => Function.update_of_ne hm .., fun m hm => Function.update_of_ne hm ..,
      fun _ _ => rfl, fun _ _ => rfl⟩
  rw [owned_iff_of_sameElsewhere hs hsame]
  refine ⟨hs.oneLane.of_fewer ?_, settled_of_not_awaiting (Function.update_self ..)⟩
  intro m region hm
  rcases Function.update_cases hm with ⟨_, hnone⟩ | ⟨_, hm⟩
  · exact absurd hnone.symm (Option.some_ne_none region)
  · exact hm

/-- A call keeps every Region owned its lane exactly when it is careful. -/
theorem step_owned_iff (hb : Bound s) (hs : Owned H s) (op : ConsumerOp) :
    Owned H (step s op) ↔ Careful H s op := by
  have hb' : Bound (step s op) := step_bound hb op
  cases op with
  | assignLane l region => exact step_assignLane_iff hs l region
  | unassignLane l => exact iff_of_true (step_unassignLane hs l) trivial
  | installSnapshot l snapshot =>
    have hc := (CkfConsumer.installSnapshot_spec (l := l) (c := s.consumer) snapshot).2.2
    have hsame : SameElsewhere l s (step s (.installSnapshot l snapshot)) :=
      sameElsewhere_of_consumer (fun m hm => Function.update_of_ne hm ..) hc
    rw [owned_iff_of_sameRegions hs hsame hc.laneRegions]
    exact iff_of_true (settled_of_not_awaiting (Function.update_self ..)) trivial
  | applyDelta l delta =>
    obtain ⟨hlane, hstatus, hc⟩ := CkfConsumer.applyDelta_spec (l := l) (c := s.consumer) delta
    have hsame : SameElsewhere l s (step s (.applyDelta l delta)) :=
      sameElsewhere_of_consumer (fun _ _ => rfl) hc
    rw [owned_iff_of_sameRegions hs hsame hc.laneRegions, settled_iff hb']
    simp only [Quiet, Careful, step, hlane, hstatus]
  | retireLane l =>
    have hsame : SameElsewhere l s (step s (.retireLane l)) :=
      sameElsewhere_of_consumer (fun _ _ => rfl) (CkfConsumer.setStatus_sameElsewhere .retired)
    rw [owned_iff_of_sameRegions hs hsame rfl, settled_iff hb']
    refine iff_of_true (fun _ hactive => ?_) trivial
    exact absurd ((Function.update_self ..).symm.trans hactive) (by decide)
  | activateLane l =>
    have hsame : SameElsewhere l s (step s (.activateLane l)) :=
      sameElsewhere_of_consumer (fun _ _ => rfl) (CkfConsumer.setStatus_sameElsewhere .active)
    rw [owned_iff_of_sameRegions hs hsame rfl, settled_iff hb']
    constructor
    · exact fun h hwait => h hwait (Function.update_self ..)
    · exact fun h hwait _ => h hwait

/-- Every Region is owned its lane throughout a run exactly when every call is
careful. -/
theorem owned_iff_careful (H : Xxh3) (ops : List ConsumerOp) :
    Run.All step (Owned H) new ops ↔ Run.Each step (Careful H) new ops :=
  Run.all_iff_each (D := fun _ _ => True) (J := Bound) (fun _ op hb _ => step_bound hb op)
    (fun _ op hb _ hs => step_owned_iff hb hs op) new_bound new_owned
    (Run.each_of_forall (fun _ _ => trivial) new ops)

end Step

/-! ## The documented order

A lane is retired when its Region goes, bound while it is retired, and active
again with the snapshot. -/

section Orderly

variable {H : Xxh3} {s : LaneOwnership}

/-- A lane is bound while it is retired, to a Region that has no other, and is
not activated before its snapshot. -/
def Orderly (s : LaneOwnership) : ConsumerOp → Prop
  | .assignLane l region =>
    (∀ m, m ≠ l → s.consumer.laneRegions m ≠ some region) ∧
      (s.consumer.laneRegions l = some region ∨ s.consumer.laneStatus l = .retired)
  | .activateLane l => s.awaiting l = false
  | _ => True

/-- A lane that waits is retired. -/
def WaitsRetired (s : LaneOwnership) : Prop :=
  ∀ l, s.awaiting l = true → s.consumer.laneStatus l = .retired

theorem step_waitsRetired (hs : WaitsRetired s) {op : ConsumerOp} (hop : Orderly s op) :
    WaitsRetired (step s op) := by
  intro m hm
  cases op with
  | assignLane l region =>
    rcases Function.update_cases hm with ⟨rfl, htaken⟩ | ⟨_, hold⟩
    · rcases hop.2 with hbound | hretired
      · rw [hbound, bne_self_eq_false, Bool.or_false] at htaken
        exact hs m htaken
      · exact hretired
    · exact hs m hold
  | unassignLane l =>
    rcases Function.update_cases hm with ⟨rfl, hfalse⟩ | ⟨_, hold⟩
    · exact absurd hfalse Bool.false_ne_true
    · exact hs m hold
  | installSnapshot l snapshot =>
    rcases Function.update_cases hm with ⟨rfl, hfalse⟩ | ⟨hne, hold⟩
    · exact absurd hfalse Bool.false_ne_true
    · exact ((CkfConsumer.installSnapshot_spec snapshot).2.2.laneStatus m hne).trans (hs m hold)
  | applyDelta l delta =>
    exact (congrFun (CkfConsumer.applyDelta_spec delta).2.1 m).trans (hs m hm)
  | retireLane l =>
    by_cases hne : m = l
    · rw [hne]
      exact Function.update_self ..
    · exact ((CkfConsumer.setStatus_sameElsewhere _).laneStatus m hne).trans (hs m hm)
  | activateLane l =>
    have hne : m ≠ l := by
      rintro rfl
      exact absurd (hm.symm.trans hop) Bool.false_ne_true.symm
    exact ((CkfConsumer.setStatus_sameElsewhere _).laneStatus m hne).trans (hs m hm)

theorem careful_of_orderly (hs : WaitsRetired s) {op : ConsumerOp} (hop : Orderly s op) :
    Careful H s op := by
  cases op with
  | assignLane l region =>
    refine ⟨hop.1, hop.2.imp_right fun hretired hactive => ?_⟩
    exact absurd (hretired.symm.trans hactive) (by decide)
  | applyDelta l delta =>
    intro hwait hactive
    exact absurd ((hs l hwait).symm.trans hactive) (by decide)
  | activateLane l => exact fun hwait => absurd (hwait.symm.trans hop) Bool.false_ne_true.symm
  | unassignLane _ | installSnapshot _ _ | retireLane _ => trivial

/-- In the documented order every Region is owned its lane, whatever is in the
lanes. -/
theorem owned_of_orderly {ops : List ConsumerOp} (h : Run.Each step Orderly new ops) :
    Run.All step (Owned H) new ops := by
  have hnew : WaitsRetired new := fun _ hwait => absurd hwait Bool.false_ne_true
  have horderly := h.with_invariant (P := WaitsRetired)
    (fun _ _ hs hop => step_waitsRetired hs hop) hnew
  exact (owned_iff_careful H ops).2 (horderly.mono fun _ _ hop => careful_of_orderly hop.1 hop.2)

end Orderly

/-! ## A lane handed on -/

/-- The snapshot of a lane with one hash. -/
def oneHash (H : Xxh3) (hash : BlockHash) : CkfSnapshot :=
  ⟨1, List.ofFn (laneInsert H hash 0).1⟩

/-- Lane 0 is filled for one Region and bound to another. -/
def handedOn (H : Xxh3) (hash : BlockHash) : List ConsumerOp :=
  [.assignLane 0 ⟨"r1"⟩, .installSnapshot 0 (oneHash H hash), .assignLane 0 ⟨"r2"⟩]

theorem handedOn_laneRegions (H : Xxh3) (hash : BlockHash) :
    ((handedOn H hash).foldl step new).consumer.laneRegions =
      Function.update (fun _ => none) 0 (some ⟨"r2"⟩) := by
  have hsame := (CkfConsumer.installSnapshot_spec (l := 0)
    (c := CkfConsumer.new.assignLane 0 ⟨"r1"⟩) (oneHash H hash)).2.2.laneRegions
  simp only [handedOn, List.foldl_cons, List.foldl_nil, step, new]
  rw [CkfConsumer.assignLane, hsame]
  exact Function.update_idem ..

/-- The second Region is reported the block of the first. -/
theorem handedOn_reported (H : Xxh3) (hash : BlockHash) :
    ((handedOn H hash).foldl step new).consumer.estimateOverlap H [hash] ⟨"r2"⟩ = 1 := by
  obtain ⟨hlane, hstatus, _⟩ := CkfConsumer.installSnapshot_spec (l := 0)
    (c := CkfConsumer.new.assignLane 0 ⟨"r1"⟩) (oneHash H hash)
  have hbuckets : (oneHash H hash).buckets = List.ofFn (laneInsert H hash 0).1 := by rw [oneHash]
  rw [CkfConsumer.patch_full hbuckets] at hlane
  -- no other lane is bound
  have hregions := handedOn_laneRegions H hash
  have hone : OneLane ((handedOn H hash).foldl step new).consumer := by
    intro region l m hl hm
    rw [hregions] at hl hm
    rcases Function.update_cases hl with ⟨rfl, _⟩ | ⟨_, hnone⟩
    · rcases Function.update_cases hm with ⟨rfl, _⟩ | ⟨_, hnone⟩
      · rfl
      · exact absurd hnone.symm (Option.some_ne_none region)
    · exact absurd hnone.symm (Option.some_ne_none region)
  have hbound := congrFun hregions 0
  rw [Function.update_self] at hbound
  -- the lane is still active and still holds the hash
  have hroom : ¬ Full (0 : PackedBucket) := by decide
  have hfound : laneContains H (laneInsert H hash 0).1 hash = true :=
    laneInsert_found_iff.2 (Or.inl hroom)
  have hactive : ((handedOn H hash).foldl step new).consumer.laneStatus 0 = .active := hstatus
  have hheld : ((handedOn H hash).foldl step new).consumer.lane 0 = (laneInsert H hash 0).1 := by
    simp only [handedOn, List.foldl_cons, List.foldl_nil, step, new]
    rw [lane_assignLane, hlane]
  rw [CkfConsumer.estimateOverlap, hone.laneOf hbound]
  dsimp only
  rw [if_pos hactive, hheld, prefixHits, if_pos hfound, prefixHits]

theorem handedOn_awaiting (H : Xxh3) (hash : BlockHash) :
    ((handedOn H hash).foldl step new).awaiting 0 = true := by
  have hsame := (CkfConsumer.installSnapshot_spec (l := 0)
    (c := CkfConsumer.new.assignLane 0 ⟨"r1"⟩) (oneHash H hash)).2.2.laneRegions
  simp only [handedOn, List.foldl_cons, List.foldl_nil, step, new, hsame]
  rw [Function.update_self, Bool.or_eq_true]
  exact Or.inr (by decide)

theorem not_owned_handedOn : ¬ ∀ ops, Run.All step (Owned .short) new ops := by
  intro h
  have hlast := (h (handedOn .short 7)).2.2.2
  have hbound := congrFun (handedOn_laneRegions .short 7) 0
  rw [Function.update_self] at hbound
  have hsilent := hlast.silent 0 ⟨"r2"⟩ (handedOn_awaiting .short 7) hbound [7]
  have hreported := handedOn_reported .short 7
  exact absurd (hsilent.symm.trans hreported) (by decide)

end LaneOwnership

end HierKvGateway
