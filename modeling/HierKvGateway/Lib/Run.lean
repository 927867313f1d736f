import Mathlib.Data.List.Basic
import Mathlib.Tactic.TypeStar

/-!
# Lib.Run — runs of step functions and of guarded transition systems

Two ways to run a program, with one induction each:

* a sequential program is a step function `f : σ → α → σ`, and a run is
  `l.foldl f s`; `Run.Each f C s l` says that every step of that run meets the
  condition `C`, and `Run.foldl_invariant` is the induction;
* a concurrent program is a guarded system `Lts σ ι`: any enabled label may
  fire next, so a statement about `Reachable` states quantifies over every
  interleaving. `Lts.restrict` keeps only the steps that meet a condition.
-/

/-! ## Sequential runs -/

namespace Run

variable {σ α : Type*} {f : σ → α → σ} {C D I : σ → α → Prop}

/-- Every step of the run of `f` over `l` from `s` meets `C`. -/
def Each (f : σ → α → σ) (C : σ → α → Prop) : σ → List α → Prop
  | _, [] => True
  | s, a :: l => C s a ∧ Each f C (f s a) l

@[simp] theorem each_nil (s : σ) : Each f C s [] := trivial

@[simp] theorem each_cons (s : σ) (a : α) (l : List α) :
    Each f C s (a :: l) ↔ C s a ∧ Each f C (f s a) l := Iff.rfl

instance decidableEach [∀ s a, Decidable (C s a)] : ∀ s l, Decidable (Each f C s l)
  | _, [] => .isTrue trivial
  | s, a :: l => @instDecidableAnd _ _ _ (decidableEach (f s a) l)

theorem each_append (s : σ) (l l' : List α) :
    Each f C s (l ++ l') ↔ Each f C s l ∧ Each f C (l.foldl f s) l' := by
  induction l generalizing s with
  | nil => simp
  | cons a l ih => simp [ih, and_assoc]

theorem each_map {β : Type*} (g : β → α) (s : σ) (l : List β) :
    Each f C s (l.map g) ↔ Each (fun s b => f s (g b)) (fun s b => C s (g b)) s l := by
  induction l generalizing s with
  | nil => exact Iff.rfl
  | cons b l ih => rw [List.map_cons, each_cons, each_cons, ih]

theorem Each.mono {s : σ} {l : List α} (h : Each f C s l)
    (hCD : ∀ s a, C s a → D s a) : Each f D s l := by
  induction l generalizing s with
  | nil => trivial
  | cons a l ih => exact ⟨hCD _ _ h.1, ih h.2⟩

theorem Each.and {s : σ} {l : List α} (hC : Each f C s l) (hD : Each f D s l) :
    Each f (fun s a => C s a ∧ D s a) s l := by
  induction l generalizing s with
  | nil => trivial
  | cons a l ih => exact ⟨⟨hC.1, hD.1⟩, ih hC.2 hD.2⟩

/-- A condition every step meets unconditionally is met along every run. -/
theorem each_of_forall (h : ∀ s a, C s a) (s : σ) (l : List α) : Each f C s l := by
  induction l generalizing s with
  | nil => trivial
  | cons a l ih => exact ⟨h s a, ih _⟩

/-- A condition on the labels alone, met by all of them. -/
theorem each_of_mem {P : α → Prop} {l : List α} (h : ∀ a ∈ l, P a) (s : σ) :
    Each f (fun _ a => P a) s l := by
  induction l generalizing s with
  | nil => trivial
  | cons a l ih =>
    obtain ⟨ha, hl⟩ := List.forall_mem_cons.1 h
    exact ⟨ha, ih hl _⟩

/-- Invariant induction along a run whose steps all meet `C`. -/
theorem foldl_invariant {P : σ → Prop} (hstep : ∀ s a, P s → C s a → P (f s a))
    {s : σ} {l : List α} (hs : P s) (hC : Each f C s l) : P (l.foldl f s) := by
  induction l generalizing s with
  | nil => exact hs
  | cons a l ih => exact ih (hstep s a hs hC.1) hC.2

/-- Invariant induction when every step preserves the invariant unconditionally. -/
theorem foldl_preserves {P : σ → Prop} (hstep : ∀ s a, P s → P (f s a)) {s : σ} (hs : P s)
    (l : List α) : P (l.foldl f s) :=
  foldl_invariant (C := fun _ _ => True) (fun s a h _ => hstep s a h) hs
    (each_of_forall (fun _ _ => trivial) s l)

/-- A run whose steps may fail does not fail if they do not where the invariant holds. -/
theorem foldlM_eq_some {P : σ → Prop} {g : σ → α → Option σ}
    (hg : ∀ s a, P s → g s a = some (f s a)) (hstep : ∀ s a, P s → P (f s a)) {s : σ} (hs : P s)
    (l : List α) : l.foldlM g s = some (l.foldl f s) := by
  induction l generalizing s with
  | nil => rfl
  | cons a l ih =>
    rw [List.foldlM_cons, hg s a hs]
    exact ih (hstep s a hs)

/-- An invariant can be assumed at every step of the run. -/
theorem Each.with_invariant {P : σ → Prop} (hstep : ∀ s a, P s → C s a → P (f s a))
    {s : σ} {l : List α} (hs : P s) (hC : Each f C s l) :
    Each f (fun s a => P s ∧ C s a) s l := by
  induction l generalizing s with
  | nil => trivial
  | cons a l ih => exact ⟨⟨hs, hC.1⟩, ih (hstep s a hs hC.1) hC.2⟩

/-- Two conditions that agree wherever an invariant holds. -/
theorem each_iff {J : σ → Prop} (hJ : ∀ s a, J s → J (f s a))
    (hiff : ∀ s a, J s → (C s a ↔ D s a)) {s : σ} (hs : J s) (l : List α) :
    Each f C s l ↔ Each f D s l := by
  induction l generalizing s with
  | nil => exact Iff.rfl
  | cons a l ih => exact and_congr (hiff s a hs) (ih (hJ s a hs))

/-- Two conditions that agree wherever `J` holds, when the steps that meet them
keep `J`. `D` is a condition the steps are known to meet. -/
theorem each_iff_of_invariant {J : σ → Prop} {E : σ → α → Prop}
    (hJ : ∀ s a, J s → D s a → C s a → J (f s a))
    (hiff : ∀ s a, J s → D s a → (C s a ↔ E s a)) {s : σ} {l : List α} (hs : J s)
    (hD : Each f D s l) : Each f C s l ↔ Each f E s l := by
  induction l generalizing s with
  | nil => exact Iff.rfl
  | cons a l ih =>
    constructor
    · rintro ⟨hC, hrest⟩
      exact ⟨(hiff s a hs hD.1).1 hC, (ih (hJ s a hs hD.1 hC) hD.2).1 hrest⟩
    · rintro ⟨hE, hrest⟩
      have hC := (hiff s a hs hD.1).2 hE
      exact ⟨hC, (ih (hJ s a hs hD.1 hC) hD.2).2 hrest⟩

/-- Every state of the run of `f` over `l` from `s`, the first and the last
included, satisfies `P`. -/
def All (f : σ → α → σ) (P : σ → Prop) : σ → List α → Prop
  | s, [] => P s
  | s, a :: l => P s ∧ All f P (f s a) l

@[simp] theorem all_nil {P : σ → Prop} (s : σ) : All f P s [] ↔ P s := Iff.rfl

@[simp] theorem all_cons {P : σ → Prop} (s : σ) (a : α) (l : List α) :
    All f P s (a :: l) ↔ P s ∧ All f P (f s a) l := Iff.rfl

theorem All.first {P : σ → Prop} {s : σ} {l : List α} (h : All f P s l) : P s := by
  cases l with
  | nil => exact h
  | cons a l => exact h.1

theorem All.mono {P Q : σ → Prop} {s : σ} {l : List α} (h : All f P s l)
    (hPQ : ∀ s, P s → Q s) : All f Q s l := by
  induction l generalizing s with
  | nil => exact hPQ s h
  | cons a l ih => exact ⟨hPQ s h.1, ih h.2⟩

/-- Invariant induction, with the invariant in every state of the run. -/
theorem all_of_each {P : σ → Prop} (hstep : ∀ s a, P s → C s a → P (f s a)) {s : σ} {l : List α}
    (hs : P s) (hC : Each f C s l) : All f P s l := by
  induction l generalizing s with
  | nil => exact hs
  | cons a l ih => exact ⟨hs, ih (hstep s a hs hC.1) hC.2⟩

/-- If a step keeps `P` exactly when it meets `C`, then `P` holds throughout a
run exactly when every step meets `C`. `J` is an invariant of the run and `D` a
condition its steps are known to meet. -/
theorem all_iff_each {P J : σ → Prop} (hJ : ∀ s a, J s → D s a → J (f s a))
    (hiff : ∀ s a, J s → D s a → P s → (P (f s a) ↔ C s a))
    {s : σ} {l : List α} (hs : J s) (hP : P s) (hD : Each f D s l) :
    All f P s l ↔ Each f C s l := by
  induction l generalizing s with
  | nil => exact ⟨fun _ => trivial, fun _ => hP⟩
  | cons a l ih =>
    have hkeep := hiff s a hs hD.1 hP
    have hnext := hJ s a hs hD.1
    constructor
    · rintro ⟨_, hall⟩
      have hP' := hall.first
      exact ⟨hkeep.1 hP', (ih hnext hP' hD.2).1 hall⟩
    · rintro ⟨hC, hrest⟩
      exact ⟨hP, (ih hnext (hkeep.2 hC) hD.2).2 hrest⟩

/-- A condition on a projection of the state, seen along the projected run. -/
theorem each_proj {τ : Type*} {g : τ → α → τ} {C : τ → α → Prop} (π : σ → τ)
    (hπ : ∀ s a, π (f s a) = g (π s) a) (s : σ) (l : List α) :
    Each f (fun s a => C (π s) a) s l ↔ Each g C (π s) l := by
  induction l generalizing s with
  | nil => exact Iff.rfl
  | cons a l ih => rw [each_cons, each_cons, ih, hπ]

/-- A projection that commutes with the steps commutes with the run. -/
theorem foldl_proj {τ : Type*} {g : τ → α → τ} (π : σ → τ)
    (hπ : ∀ s a, π (f s a) = g (π s) a) (s : σ) (l : List α) :
    π (l.foldl f s) = l.foldl g (π s) := by
  induction l generalizing s with
  | nil => rfl
  | cons a l ih => rw [List.foldl_cons, List.foldl_cons, ih, hπ]

end Run

/-! ## Guarded transition systems -/

/-- A guarded transition system over states `σ` with labels `ι`: a label may
fire when its guard holds, and then performs its update. -/
structure Lts (σ ι : Type*) where
  init : σ → Prop
  guard : ι → σ → Prop
  update : ι → σ → σ

namespace Lts

variable {σ ι : Type*} {S : Lts σ ι}

/-- States reached from an initial state by firing enabled labels in any order. -/
inductive Reachable (S : Lts σ ι) : σ → Prop
  | init {s} : S.init s → Reachable S s
  | step {s} (l : ι) : Reachable S s → S.guard l s → Reachable S (S.update l s)

/-- Invariant induction over every interleaving. -/
theorem invariant {P : σ → Prop} (hinit : ∀ s, S.init s → P s)
    (hstep : ∀ s l, P s → S.guard l s → P (S.update l s)) :
    ∀ s, S.Reachable s → P s := by
  intro s hs
  induction hs with
  | init h => exact hinit _ h
  | step l _ hg ih => exact hstep _ l ih hg

/-- The system that fires only the steps that meet `C`. -/
def restrict (S : Lts σ ι) (C : σ → ι → Prop) : Lts σ ι where
  init := S.init
  guard l s := S.guard l s ∧ C s l
  update := S.update

/-- The state after firing the labels of a schedule in order. -/
def run (S : Lts σ ι) (s : σ) (ls : List ι) : σ := ls.foldl (fun s l => S.update l s) s

/-- Every label of the schedule is enabled when its turn comes. -/
def Enabled (S : Lts σ ι) (s : σ) (ls : List ι) : Prop :=
  Run.Each (fun s l => S.update l s) (fun s l => S.guard l s) s ls

instance decidableEnabled [∀ l s, Decidable (S.guard l s)] (s : σ) (ls : List ι) :
    Decidable (S.Enabled s ls) :=
  inferInstanceAs (Decidable (Run.Each (fun s l => S.update l s) (fun s l => S.guard l s) s ls))

theorem run_append (S : Lts σ ι) (s : σ) (ls ls' : List ι) :
    S.run s (ls ++ ls') = S.run (S.run s ls) ls' := List.foldl_append

theorem enabled_append (S : Lts σ ι) (s : σ) (ls ls' : List ι) :
    S.Enabled s (ls ++ ls') ↔ S.Enabled s ls ∧ S.Enabled (S.run s ls) ls' :=
  Run.each_append s ls ls'

/-- An enabled schedule from a reachable state ends in a reachable state. -/
theorem Reachable.run {s : σ} (hs : S.Reachable s) {ls : List ι} (h : S.Enabled s ls) :
    S.Reachable (S.run s ls) :=
  Run.foldl_invariant (P := S.Reachable) (fun _ l hs hg => Reachable.step l hs hg) hs h

/-- A schedule of the restricted system: enabled, and every step meets `C`. -/
theorem enabled_restrict {C : σ → ι → Prop} {s : σ} {ls : List ι} :
    (S.restrict C).Enabled s ls ↔
      S.Enabled s ls ∧ Run.Each (fun s l => S.update l s) C s ls := by
  constructor
  · intro h
    exact ⟨h.mono fun _ _ hg => hg.1, h.mono fun _ _ hg => hg.2⟩
  · exact fun ⟨hg, hC⟩ => hg.and hC

/-- What a step keeps holds at the end of an enabled schedule. -/
theorem Enabled.invariant {P : σ → Prop} (hstep : ∀ s l, P s → S.guard l s → P (S.update l s))
    {s : σ} (hs : P s) {ls : List ι} (h : S.Enabled s ls) : P (S.run s ls) :=
  Run.foldl_invariant (P := P) (fun s l hs hg => hstep s l hs hg) hs h

/-- A schedule that attains every goal of a list, when each goal can be attained
from every `Q`-state and no step undoes it. -/
theorem exists_run_forall {α : Type*} {Q : σ → Prop} {G : α → σ → Prop}
    (hQ : ∀ s l, Q s → S.guard l s → Q (S.update l s))
    (hG : ∀ a s l, Q s → G a s → S.guard l s → G a (S.update l s))
    (hattain : ∀ a s, Q s → ∃ ls, S.Enabled s ls ∧ G a (S.run s ls)) (as : List α)
    {s : σ} (hs : Q s) : ∃ ls, S.Enabled s ls ∧ ∀ a ∈ as, G a (S.run s ls) := by
  induction as generalizing s with
  | nil => exact ⟨[], trivial, nofun⟩
  | cons a as ih =>
    rcases hattain a s hs with ⟨ls, hls, ha⟩
    rcases ih (hls.invariant hQ hs) with ⟨ls', hls', has⟩
    refine ⟨ls ++ ls', (S.enabled_append s ls ls').2 ⟨hls, hls'⟩, ?_⟩
    rw [run_append]
    intro b hb
    rcases List.mem_cons.1 hb with rfl | hb
    · -- attained by the first part, kept by the second
      have hkeep := Enabled.invariant (P := fun s => Q s ∧ G b s)
        (fun s l h hg => ⟨hQ s l h.1 hg, hG b s l h.1 h.2 hg⟩) ⟨hls.invariant hQ hs, ha⟩ hls'
      exact hkeep.2
    · exact has b hb

end Lts
