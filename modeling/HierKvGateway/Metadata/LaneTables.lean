import HierKvGateway.Metadata.LocalCkf
import HierKvGateway.Lib.Run
import HierKvGateway.Lib.Update
import Mathlib.Data.Fin.VecNotation

/-!
# Metadata.LaneTables — lanes assigned and unassigned at the same time

The two binding maps of the projection have a lock each, and lane states and buckets have none.
Any number of calls of `assign_lane` and `unassign_lane` interleave:

* `assign_lane` looks the backend up, and if that fails does the rest under both locks;
* `unassign_lane` removes the backend from `backend_lanes`, retires the lane, clears its buckets
  one by one, and only then removes the lane from `lane_backends`.

Since a free lane is found in `lane_backends`, a lane cannot be bound while it is cleared.
`LaneCalls.lane_tables` says what follows for the maps, the lane states and the buckets.
-/

namespace HierKvGateway

/-- A call on the lane tables. -/
inductive LaneCall where
  | assign (backend : BackendId)
  | unassign (backend : BackendId)
deriving DecidableEq, Repr

/-- How far a call has got. -/
inductive LanePhase where
  | start
  /-- The fast path of an assignment has found no lane. -/
  | slow
  /-- The backend of an unassignment is gone from `backend_lanes`. -/
  | unbound (lane : LocalLane)
  /-- The lane is retired, and its first buckets are cleared. -/
  | clearing (lane : LocalLane) (cleared : Nat)
  | returned (lane : Option LocalLane)
deriving DecidableEq, Repr

namespace LanePhase

/-- The lane an unassignment is at work on. -/
def lane : LanePhase → Option LocalLane
  | .start => none
  | .slow => none
  | .unbound l => some l
  | .clearing l _ => some l
  | .returned _ => none

/-- The call has begun and not returned. -/
def InProgress : LanePhase → Prop
  | .start => False
  | .slow => True
  | .unbound _ => True
  | .clearing _ _ => True
  | .returned _ => False

/-- The call has returned. -/
def Returned : LanePhase → Prop
  | .start => False
  | .slow => False
  | .unbound _ => False
  | .clearing _ _ => False
  | .returned _ => True

instance : ∀ p : LanePhase, Decidable p.Returned
  | .start => .isFalse id
  | .slow => .isFalse id
  | .unbound _ => .isFalse id
  | .clearing _ _ => .isFalse id
  | .returned _ => .isTrue trivial

theorem lane_of_idle {p : LanePhase} (h : ¬p.InProgress) : p.lane = none := by
  cases p with
  | start => rfl
  | slow => rfl
  | unbound l => exact absurd trivial h
  | clearing l k => exact absurd trivial h
  | returned l => rfl

end LanePhase

/-- The projection and the calls. -/
structure LaneCalls (ι : Type) where
  ckf : LocalCkf
  phase : ι → LanePhase

namespace LaneCalls

variable {ι : Type} [DecidableEq ι]

/-- Advance a call. -/
def setPhase (s : LaneCalls ι) (i : ι) (p : LanePhase) : LaneCalls ι :=
  { s with phase := Function.update s.phase i p }

/-- The next step of an assignment. The slow path looks the backend up again. -/
def stepAssign (backend : BackendId) (i : ι) (s : LaneCalls ι) : LaneCalls ι :=
  match s.phase i with
  | .start =>
    match s.ckf.backendLanes backend with
    | some l => s.setPhase i (.returned (some l))
    | none => s.setPhase i .slow
  | .slow =>
    let (ckf, lane) := s.ckf.assignLane backend
    { s with ckf := ckf }.setPhase i (.returned lane)
  | _ => s

/-- The next step of an unassignment. -/
def stepUnassign (backend : BackendId) (i : ι) (s : LaneCalls ι) : LaneCalls ι :=
  match s.phase i with
  | .start =>
    match s.ckf.backendLanes backend with
    | some l =>
      { s with
        ckf := { s.ckf with
          backendLanes := Function.update s.ckf.backendLanes backend none } }.setPhase i
            (.unbound l)
    | none => s.setPhase i (.returned none)
  | .unbound l => { s with ckf := s.ckf.setStatus l .retired }.setPhase i (.clearing l 0)
  | .clearing l k =>
    if h : k < bucketsPerLane then
      let b := Function.update (s.ckf.lane l) ⟨k, h⟩ 0
      { s with ckf := s.ckf.setLane l b }.setPhase i (.clearing l (k + 1))
    else
      { s with
        ckf := { s.ckf with
          laneBackends := Function.update s.ckf.laneBackends l none } }.setPhase i (.returned none)
  | _ => s

/-- The next step of a call. -/
def step (calls : ι → LaneCall) (i : ι) (s : LaneCalls ι) : LaneCalls ι :=
  match calls i with
  | .assign backend => s.stepAssign backend i
  | .unassign backend => s.stepUnassign backend i

/-- All interleavings of the calls, on a projection whose tables are in order. -/
def system (calls : ι → LaneCall) : Lts (LaneCalls ι) ι where
  init s := s.ckf.Bound ∧ ∀ i, s.phase i = .start
  guard i s := ¬(s.phase i).Returned
  update := step calls

/-- The tables while calls are in progress: two backends never have the same lane, a lane knows
the backend that has it, and a lane that an unassignment is at work on belongs to no other
backend. -/
structure Sound (calls : ι → LaneCall) (s : LaneCalls ι) : Prop where
  injective : ∀ b b' l, s.ckf.backendLanes b = some l → s.ckf.backendLanes b' = some l → b = b'
  known : ∀ b l, s.ckf.backendLanes b = some l → s.ckf.laneBackends l = some b
  cleared : ∀ i b l, calls i = .unassign b → (s.phase i).lane = some l →
    ∀ b', b' ≠ b → s.ckf.laneBackends l ≠ some b' ∧ s.ckf.backendLanes b' ≠ some l

/-- What every step keeps. -/
structure Inv (calls : ι → LaneCall) (s : LaneCalls ι) : Prop where
  known : ∀ b l, s.ckf.backendLanes b = some l → s.ckf.laneBackends l = some b
  active : ∀ b l, s.ckf.backendLanes b = some l → s.ckf.laneStatus l = .active
  free : ∀ l, s.ckf.laneBackends l = none → s.ckf.laneStatus l = .retired
  owner : ∀ i l, (s.phase i).lane = some l →
    ∃ b, calls i = .unassign b ∧ s.ckf.laneBackends l = some b
  taken : ∀ i l, (s.phase i).lane = some l → ∀ b, s.ckf.backendLanes b ≠ some l
  alone : ∀ i j l, (s.phase i).lane = some l → (s.phase j).lane = some l → i = j
  retired : ∀ i l k, s.phase i = .clearing l k → s.ckf.laneStatus l = .retired
  accounted : ∀ b l, s.ckf.laneBackends l = some b →
    s.ckf.backendLanes b = some l ∨ ∃ i, (s.phase i).lane = some l

section Inv

variable {calls : ι → LaneCall} {s : LaneCalls ι} {i j : ι} {b : BackendId} {l : LocalLane}
  {p : LanePhase}

theorem phase_setPhase_self : (s.setPhase i p).phase i = p := Function.update_self ..

theorem phase_setPhase_of_ne (h : j ≠ i) : (s.setPhase i p).phase j = s.phase j :=
  Function.update_of_ne h ..

theorem phase_setPhase {q : LanePhase} (h : (s.setPhase i p).phase j = q) :
    j = i ∧ p = q ∨ j ≠ i ∧ s.phase j = q := by
  by_cases hj : j = i
  · subst hj
    exact Or.inl ⟨rfl, phase_setPhase_self.symm.trans h⟩
  · exact Or.inr ⟨hj, (phase_setPhase_of_ne hj).symm.trans h⟩

/-- The lane of a call after a step of call `i`. -/
theorem lane_setPhase (h : ((s.setPhase i p).phase j).lane = some l) :
    j = i ∧ p.lane = some l ∨ j ≠ i ∧ (s.phase j).lane = some l := by
  rcases phase_setPhase (s := s) (p := p) (i := i) (j := j) rfl with ⟨rfl, hp⟩ | ⟨hj, hold⟩
  · rw [← hp] at h
    exact Or.inl ⟨rfl, h⟩
  · rw [← hold] at h
    exact Or.inr ⟨hj, h⟩

/-- If a lane was at work on, but not by call `i`, it still is. -/
theorem exists_lane_setPhase (h : ∃ j, (s.phase j).lane = some l) (hi : (s.phase i).lane ≠ some l) :
    ∃ j, ((s.setPhase i p).phase j).lane = some l := by
  rcases h with ⟨j, hj⟩
  refine ⟨j, ?_⟩
  rwa [phase_setPhase_of_ne]
  rintro rfl
  exact hi hj

omit [DecidableEq ι] in
theorem inv_init (h : s.ckf.Bound) (hstart : ∀ i, s.phase i = .start) : Inv calls s := by
  have hlane : ∀ i l, (s.phase i).lane ≠ some l := by
    intro i l
    rw [hstart i]
    exact (Option.some_ne_none l).symm
  constructor
  case known => exact fun b l hb => (h.inverse b l).1 hb
  case active => exact fun b l hb => h.active_of_laneOf hb
  case free => exact h.retired
  case owner => exact fun i l hl => absurd hl (hlane i l)
  case taken => exact fun i l hl => absurd hl (hlane i l)
  case alone => exact fun i j l hl => absurd hl (hlane i l)
  case retired =>
    intro i l k hk
    rw [hstart i] at hk
    exact nomatch hk
  case accounted => exact fun b l hl => Or.inl ((h.inverse b l).2 hl)

/-- A step of a call that is at work on no lane, before or after it, and that leaves the
projection alone. -/
theorem Inv.idle (h : Inv calls s) (hbefore : (s.phase i).lane = none) (hafter : p.lane = none) :
    Inv calls (s.setPhase i p) := by
  have hback : ∀ j l, ((s.setPhase i p).phase j).lane = some l → (s.phase j).lane = some l := by
    intro j l hl
    rcases lane_setPhase hl with ⟨-, hp⟩ | ⟨-, hl⟩
    · rw [hafter] at hp
      exact absurd hp.symm (Option.some_ne_none l)
    · exact hl
  constructor
  case known => exact h.known
  case active => exact h.active
  case free => exact h.free
  case owner => exact fun j l hl => h.owner j l (hback j l hl)
  case taken => exact fun j l hl => h.taken j l (hback j l hl)
  case alone => exact fun j j' l hl hl' => h.alone j j' l (hback j l hl) (hback j' l hl')
  case retired =>
    intro j l k hk
    rcases phase_setPhase hk with ⟨-, rfl⟩ | ⟨-, hk⟩
    · exact absurd hafter (Option.some_ne_none l)
    · exact h.retired j l k hk
  case accounted =>
    intro b l hb
    rcases h.accounted b l hb with hlane | hwork
    · exact Or.inl hlane
    · right
      apply exists_lane_setPhase hwork
      rw [hbefore]
      exact (Option.some_ne_none l).symm

omit [DecidableEq ι] in
/-- A lane is bound: it was free, so nobody was at work on it. -/
theorem Inv.assigned (h : Inv calls s) {c : LocalCkf} (ha : LocalCkf.Assigned b l s.ckf c) :
    Inv calls { s with ckf := c } := by
  have hbusy : ∀ j m, (s.phase j).lane = some m → m ≠ l := by
    rintro j m hm rfl
    rcases h.owner j m hm with ⟨b', -, hb'⟩
    rw [ha.free] at hb'
    exact Option.some_ne_none b' hb'.symm
  constructor
  case known =>
    intro b' m hm
    dsimp only at hm ⊢
    rw [ha.backendLanes] at hm
    rw [ha.laneBackends]
    rcases Function.update_cases hm with ⟨rfl, heq⟩ | ⟨-, hm⟩
    · rcases Option.some.inj heq with rfl
      exact Function.update_self ..
    · have hm' := h.known b' m hm
      -- another backend has another lane, since this one was free
      rw [Function.update_of_ne]
      · exact hm'
      · rintro rfl
        rw [ha.free] at hm'
        exact Option.some_ne_none b' hm'.symm
  case active =>
    intro b' m hm
    dsimp only at hm ⊢
    rw [ha.backendLanes] at hm
    rw [ha.laneStatus]
    by_cases hml : m = l
    · rw [hml]
      exact Function.update_self ..
    · -- every other lane keeps its status, and its backend
      rw [Function.update_of_ne hml]
      rcases Function.update_cases hm with ⟨-, heq⟩ | ⟨-, hm⟩
      · exact absurd (Option.some.inj heq).symm hml
      · exact h.active b' m hm
  case free =>
    intro m hm
    dsimp only at hm ⊢
    rw [ha.laneBackends] at hm
    rw [ha.laneStatus]
    rcases Function.update_cases hm with ⟨-, heq⟩ | ⟨hml, hm⟩
    · exact absurd heq (Option.some_ne_none b)
    · rw [Function.update_of_ne hml]
      exact h.free m hm
  case owner =>
    intro j m hm
    rcases h.owner j m hm with ⟨b', hcall, hb'⟩
    refine ⟨b', hcall, ?_⟩
    dsimp only
    rw [ha.laneBackends, Function.update_of_ne (hbusy j m hm)]
    exact hb'
  case taken =>
    intro j m hm b' hb'
    dsimp only at hb'
    rw [ha.backendLanes] at hb'
    rcases Function.update_cases hb' with ⟨-, heq⟩ | ⟨-, hb'⟩
    · -- the new binding is of a lane nobody is at work on
      exact hbusy j m hm (Option.some.inj heq).symm
    · exact h.taken j m hm b' hb'
  case alone => exact h.alone
  case retired =>
    intro j m k hk
    have hm : (s.phase j).lane = some m := congrArg LanePhase.lane hk
    dsimp only
    rw [ha.laneStatus, Function.update_of_ne (hbusy j m hm)]
    exact h.retired j m k hk
  case accounted =>
    intro b' m hm
    dsimp only at hm ⊢
    rw [ha.laneBackends] at hm
    rw [ha.backendLanes]
    rcases Function.update_cases hm with ⟨rfl, heq⟩ | ⟨hml, hm⟩
    · left
      rw [Option.some.inj heq]
      exact Function.update_self ..
    · rcases h.accounted b' m hm with hlane | hwork
      · left
        -- the backend had no lane before, so this is another one
        rw [Function.update_of_ne]
        · exact hlane
        · rintro rfl
          rw [ha.fresh] at hlane
          exact Option.some_ne_none m hlane.symm
      · exact Or.inr hwork

theorem Inv.stepAssign (h : Inv calls s) (hi : calls i = .assign b) :
    Inv calls (s.stepAssign b i) := by
  -- an assignment is never at work on a lane
  have hlane : (s.phase i).lane = none := by
    cases hl : (s.phase i).lane with
    | none => rfl
    | some l =>
      rcases h.owner i l hl with ⟨b', hcall, -⟩
      rw [hi] at hcall
      exact nomatch hcall
  unfold LaneCalls.stepAssign
  split
  · split
    · exact h.idle hlane rfl
    · exact h.idle hlane rfl
  · rcases LocalCkf.assignLane_cases b s.ckf with ⟨l, -, heq⟩ | ⟨l, c, ha, heq⟩ | ⟨-, -, heq⟩
    · rw [heq]
      exact h.idle hlane rfl
    · rw [heq]
      exact (h.assigned ha).idle hlane rfl
    · rw [heq]
      exact h.idle hlane rfl
  · exact h

/-- An unassignment takes a lane from its backend, and is at work on it from then on. -/
theorem Inv.removed (h : Inv calls s) (hi : calls i = .unassign b)
    (hl : s.ckf.backendLanes b = some l) (hidle : (s.phase i).lane = none) :
    Inv calls ({ s with
      ckf := { s.ckf with
        backendLanes := Function.update s.ckf.backendLanes b none } }.setPhase i (.unbound l)) := by
  have hback : ∀ b' m, Function.update s.ckf.backendLanes b none b' = some m →
      b' ≠ b ∧ s.ckf.backendLanes b' = some m := by
    intro b' m hm
    rcases Function.update_cases hm with ⟨-, hnone⟩ | hold
    · exact absurd hnone.symm (Option.some_ne_none m)
    · exact hold
  -- nobody was at work on the lane before
  have hfresh : ∀ j, (s.phase j).lane ≠ some l := fun j hj => h.taken j l hj b hl
  constructor
  case known => exact fun b' m hm => h.known b' m (hback b' m hm).2
  case active => exact fun b' m hm => h.active b' m (hback b' m hm).2
  case free => exact h.free
  case owner =>
    intro j m hm
    rcases lane_setPhase hm with ⟨rfl, heq⟩ | ⟨-, hm⟩
    · rcases Option.some.inj heq with rfl
      exact ⟨b, hi, h.known b l hl⟩
    · exact h.owner j m hm
  case taken =>
    intro j m hm b' hb'
    rcases hback b' m hb' with ⟨hne, hold⟩
    rcases lane_setPhase hm with ⟨-, heq⟩ | ⟨-, hm⟩
    · rcases Option.some.inj heq with rfl
      have hsame := (h.known b' l hold).symm.trans (h.known b l hl)
      exact hne (Option.some.inj hsame)
    · exact h.taken j m hm b' hold
  case alone =>
    intro j j' m hm hm'
    rcases lane_setPhase hm with ⟨rfl, heq⟩ | ⟨-, hm⟩
    · rcases Option.some.inj heq with rfl
      rcases lane_setPhase hm' with ⟨rfl, -⟩ | ⟨-, hm'⟩
      · rfl
      · exact absurd hm' (hfresh j')
    · rcases lane_setPhase hm' with ⟨-, heq⟩ | ⟨-, hm'⟩
      · rcases Option.some.inj heq with rfl
        exact absurd hm (hfresh j)
      · exact h.alone j j' m hm hm'
  case retired =>
    intro j m k hk
    rcases phase_setPhase hk with ⟨-, hp⟩ | ⟨-, hk⟩
    · exact nomatch hp
    · exact h.retired j m k hk
  case accounted =>
    intro b' m hm
    rcases h.accounted b' m hm with hold | hwork
    · by_cases hb : b' = b
      · -- its lane is now the one call `i` is at work on
        right
        rw [hb, hl] at hold
        refine ⟨i, ?_⟩
        rw [phase_setPhase_self]
        exact hold
      · left
        show Function.update s.ckf.backendLanes b none b' = some m
        rw [Function.update_of_ne hb]
        exact hold
    · right
      apply exists_lane_setPhase hwork
      rw [hidle]
      exact (Option.some_ne_none m).symm

/-- A step of an unassignment at work on a lane: the lane is retired by then. -/
theorem Inv.working (h : Inv calls s) (hbefore : (s.phase i).lane = some l)
    (hafter : p.lane = some l) {c : LocalCkf} (hlanes : c.backendLanes = s.ckf.backendLanes)
    (hbackends : c.laneBackends = s.ckf.laneBackends)
    (hstatus : c.laneStatus = Function.update s.ckf.laneStatus l .retired) :
    Inv calls ({ s with ckf := c }.setPhase i p) := by
  have hback : ∀ j m, (({ s with ckf := c }.setPhase i p).phase j).lane = some m →
      (s.phase j).lane = some m := by
    intro j m hm
    rcases lane_setPhase hm with ⟨rfl, heq⟩ | ⟨-, hm⟩
    · rw [hbefore, ← heq, hafter]
    · exact hm
  have hretired : ∀ m, s.ckf.laneStatus m = .retired → c.laneStatus m = .retired := by
    intro m hm
    rw [hstatus]
    by_cases hml : m = l
    · rw [hml]
      exact Function.update_self ..
    · rw [Function.update_of_ne hml]
      exact hm
  constructor
  case known =>
    show ∀ b l, c.backendLanes b = some l → c.laneBackends l = some b
    rw [hlanes, hbackends]
    exact h.known
  case active =>
    intro b' m hm
    show c.laneStatus m = .active
    -- the lane of a backend is not the one that is being given up
    have hm' : s.ckf.backendLanes b' = some m := hlanes ▸ hm
    rw [hstatus, Function.update_of_ne]
    · exact h.active b' m hm'
    · rintro rfl
      exact h.taken i m hbefore b' hm'
  case free =>
    intro m hm
    exact hretired m (h.free m (hbackends ▸ hm))
  case owner =>
    intro j m hm
    rcases h.owner j m (hback j m hm) with ⟨b', hcall, hb'⟩
    exact ⟨b', hcall, (congrFun hbackends m).trans hb'⟩
  case taken =>
    intro j m hm b' hb'
    exact h.taken j m (hback j m hm) b' (hlanes ▸ hb')
  case alone => exact fun j j' m hm hm' => h.alone j j' m (hback j m hm) (hback j' m hm')
  case retired =>
    intro j m k hk
    rcases phase_setPhase hk with ⟨-, rfl⟩ | ⟨-, hk⟩
    · show c.laneStatus m = .retired
      rw [hstatus, Option.some.inj hafter]
      exact Function.update_self ..
    · exact hretired m (h.retired j m k hk)
  case accounted =>
    intro b' m hm
    rcases h.accounted b' m (hbackends ▸ hm) with hold | ⟨j, hj⟩
    · exact Or.inl ((congrFun hlanes b').trans hold)
    · right
      -- whoever was at work on the lane still is
      refine ⟨j, ?_⟩
      by_cases hji : j = i
      · subst hji
        rw [phase_setPhase_self, hafter, ← hbefore, hj]
      · rw [phase_setPhase_of_ne hji]
        exact hj

/-- An unassignment gives the cleared lane free. -/
theorem Inv.freed {k : Nat} (h : Inv calls s) (hphase : s.phase i = .clearing l k) :
    Inv calls ({ s with
      ckf := { s.ckf with
        laneBackends := Function.update s.ckf.laneBackends l none } }.setPhase i
          (.returned none)) := by
  have hlane : (s.phase i).lane = some l := congrArg LanePhase.lane hphase
  -- the others are at work on other lanes
  have hback : ∀ j m, (({ s with
      ckf := { s.ckf with
        laneBackends := Function.update s.ckf.laneBackends l none } }.setPhase i
          (.returned none)).phase j).lane = some m → m ≠ l ∧ (s.phase j).lane = some m := by
    intro j m hm
    rcases lane_setPhase hm with ⟨-, heq⟩ | ⟨hj, hm⟩
    · exact nomatch heq
    · refine ⟨?_, hm⟩
      rintro rfl
      exact hj (h.alone j i m hm hlane)
  constructor
  case known =>
    intro b' m hm
    -- no backend has the lane any more
    have hml : m ≠ l := by
      rintro rfl
      exact h.taken i m hlane b' hm
    show Function.update s.ckf.laneBackends l none m = some b'
    rw [Function.update_of_ne hml]
    exact h.known b' m hm
  case active => exact h.active
  case free =>
    intro m hm
    rcases Function.update_cases hm with ⟨rfl, -⟩ | ⟨-, hm⟩
    · exact h.retired i m k hphase
    · exact h.free m hm
  case owner =>
    intro j m hm
    rcases hback j m hm with ⟨hml, hm⟩
    rcases h.owner j m hm with ⟨b', hcall, hb'⟩
    refine ⟨b', hcall, ?_⟩
    show Function.update s.ckf.laneBackends l none m = some b'
    rw [Function.update_of_ne hml]
    exact hb'
  case taken => exact fun j m hm => h.taken j m (hback j m hm).2
  case alone => exact fun j j' m hm hm' => h.alone j j' m (hback j m hm).2 (hback j' m hm').2
  case retired =>
    intro j m k' hk
    rcases phase_setPhase hk with ⟨-, hp⟩ | ⟨-, hk⟩
    · exact nomatch hp
    · exact h.retired j m k' hk
  case accounted =>
    intro b' m hm
    rcases Function.update_cases hm with ⟨-, hnone⟩ | ⟨hml, hm⟩
    · exact nomatch hnone
    · rcases h.accounted b' m hm with hold | hwork
      · exact Or.inl hold
      · right
        apply exists_lane_setPhase hwork
        rw [hlane]
        intro heq
        exact hml (Option.some.inj heq).symm

theorem Inv.stepUnassign (h : Inv calls s) (hi : calls i = .unassign b) :
    Inv calls (s.stepUnassign b i) := by
  unfold LaneCalls.stepUnassign
  split
  · -- the backend is looked up
    rename_i hstart
    have hidle : (s.phase i).lane = none := congrArg LanePhase.lane hstart
    split
    · rename_i l hl
      exact h.removed hi hl hidle
    · exact h.idle hidle rfl
  · -- the lane is retired
    rename_i l hphase
    exact h.working (congrArg LanePhase.lane hphase) rfl rfl rfl rfl
  · rename_i l k hphase
    split
    · -- a bucket is cleared
      refine h.working (l := l) (p := .clearing l (k + 1)) (congrArg LanePhase.lane hphase) rfl
        rfl rfl ?_
      rw [← h.retired i l k hphase, Function.update_eq_self]
      rfl
    · exact h.freed hphase
  · exact h

theorem Inv.step (h : Inv calls s) (i : ι) : Inv calls (step calls i s) := by
  unfold LaneCalls.step
  split
  · rename_i hi
    exact h.stepAssign hi
  · rename_i hi
    exact h.stepUnassign hi

theorem inv_of_reachable (hs : (system calls).Reachable s) : Inv calls s :=
  Lts.invariant (S := system calls) (P := Inv calls) (fun _ h => inv_init h.1 h.2)
    (fun _ i h _ => h.step i) s hs

omit [DecidableEq ι] in
theorem Inv.sound (h : Inv calls s) : Sound calls s := by
  constructor
  · intro b b' l hb hb'
    exact Option.some.inj ((h.known b l hb).symm.trans (h.known b' l hb'))
  · exact h.known
  · intro i b l hi hl b' hne
    rcases h.owner i l hl with ⟨b'', hcall, hb''⟩
    rw [hi] at hcall
    rcases LaneCall.unassign.inj hcall with rfl
    refine ⟨?_, h.taken i l hl b'⟩
    intro hb'
    exact hne (Option.some.inj (hb'.symm.trans hb''))

omit [DecidableEq ι] in
theorem Inv.bound (h : Inv calls s) (hidle : ∀ i, ¬(s.phase i).InProgress) : s.ckf.Bound := by
  have hback : ∀ b l, s.ckf.laneBackends l = some b → s.ckf.backendLanes b = some l := by
    intro b l hb
    rcases h.accounted b l hb with hold | ⟨i, hi⟩
    · exact hold
    · rw [LanePhase.lane_of_idle (hidle i)] at hi
      exact nomatch hi
  constructor
  · intro b l
    exact ⟨h.known b l, hback b l⟩
  · intro l hl
    rcases Option.ne_none_iff_exists'.1 hl with ⟨b, hb⟩
    exact h.active b l (hback b l hb)
  · exact h.free

/-- A lane becomes bound in the slow path of an assignment only, with empty buckets. -/
theorem empty_of_binding (i : ι) (hfree : ∀ b, s.ckf.laneBackends l ≠ some b)
    (hbound : (step calls i s).ckf.laneBackends l = some b) :
    (step calls i s).ckf.lane l = fun _ => 0 := by
  unfold LaneCalls.step at hbound ⊢
  split at hbound
  · -- of an assignment, only the slow path binds
    unfold LaneCalls.stepAssign at hbound ⊢
    split at hbound
    · split at hbound
      · exact absurd hbound (hfree b)
      · exact absurd hbound (hfree b)
    · rename_i backend _ _ _
      rcases LocalCkf.assignLane_cases backend s.ckf with ⟨m, -, heq⟩ | ⟨m, c, ha, heq⟩ | ⟨-, -, heq⟩
      · rw [heq] at hbound
        exact absurd hbound (hfree b)
      · rw [heq] at hbound ⊢
        have hlane : Function.update s.ckf.laneBackends m (some backend) l = some b :=
          ha.laneBackends ▸ hbound
        rcases Function.update_cases hlane with ⟨rfl, -⟩ | ⟨-, hold⟩
        · exact ha.empty
        · exact absurd hold (hfree b)
      · rw [heq] at hbound
        exact absurd hbound (hfree b)
    · exact absurd hbound (hfree b)
  · -- an unassignment only gives lanes free
    unfold LaneCalls.stepUnassign at hbound
    split at hbound
    · split at hbound
      · exact absurd hbound (hfree b)
      · exact absurd hbound (hfree b)
    · exact absurd hbound (hfree b)
    · split at hbound
      · exact absurd hbound (hfree b)
      · rcases Function.update_cases hbound with ⟨-, hnone⟩ | ⟨-, hold⟩
        · exact nomatch hnone
        · exact absurd hold (hfree b)
    · exact absurd hbound (hfree b)

end Inv

/-- In every state that the calls reach, in any interleaving: the tables are sound; once no call is
in progress they are inverse to each other, and the bound lanes are the active ones; and a step
that binds a lane leaves all its buckets zero. -/
theorem lane_tables (calls : ι → LaneCall) (s : LaneCalls ι) (hs : (system calls).Reachable s) :
    Sound calls s ∧
    ((∀ i, ¬(s.phase i).InProgress) → s.ckf.Bound) ∧
    ∀ i l b, (system calls).guard i s → (∀ b', s.ckf.laneBackends l ≠ some b') →
      ((system calls).update i s).ckf.laneBackends l = some b →
      ((system calls).update i s).ckf.lane l = fun _ => 0 := by
  have h := inv_of_reachable hs
  refine ⟨h.sound, h.bound, ?_⟩
  intro i l b _ hfree hbound
  exact empty_of_binding i hfree hbound

/-- A backend is assigned a lane, and then again while the lane is taken from it: it gets another
one, and the first one still belongs to it only. -/
theorem lane_tables_reassigned :
    let a : BackendId := ⟨⟨"eu"⟩, ⟨"a"⟩⟩
    let calls : Fin 3 → LaneCall := ![.assign a, .unassign a, .assign a]
    let s := (system calls).run ⟨.new, fun _ => .start⟩ [0, 0, 1, 1, 2, 2]
    s.ckf.backendLanes a = some 1 ∧ (s.phase 1).lane = some 0 ∧ Sound calls s := by
  intro a calls s
  have hstart : (system calls).Reachable ⟨.new, fun _ => .start⟩ :=
    Lts.Reachable.init ⟨.new, fun _ => rfl⟩
  have henabled : Run.Each (fun s i => step calls i s)
      (fun s i => ¬(s.phase i).Returned) ⟨.new, fun _ => .start⟩ [0, 0, 1, 1, 2, 2] := by
    decide +kernel
  have hs : (system calls).Reachable s := hstart.run henabled
  refine ⟨by decide +kernel, by decide +kernel, (lane_tables calls s hs).1⟩

end LaneCalls

end HierKvGateway
