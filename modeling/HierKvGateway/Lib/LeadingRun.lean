import Mathlib.Data.List.Basic

/-!
# Lib.LeadingRun — two ways to count leading elements

How many elements at the start of a list pass a test `p`? `lead` stops at the first that fails.
`tally` counts the elements that pass as far as another test `q` holds, which is how several
tests are counted in one scan. The two agree exactly when no element that passes comes after one
that fails (`tally_eq_lead_iff`).
-/

namespace LeadingRun

variable {α : Type*} {p q : α → Bool}

/-- The number of leading elements that pass. -/
def lead (p : α → Bool) (l : List α) : Nat := (l.takeWhile p).length

/-- The number of elements that pass `p` before the first that fails `q`. -/
def tally (p q : α → Bool) (l : List α) : Nat := (l.takeWhile q).countP p

/-- If all elements before one that passes `p` pass `q`, they pass `p` as well. -/
def Gapless (p q : α → Bool) (l : List α) : Prop :=
  ∀ before x after, l = before ++ x :: after →
    (∀ y ∈ before, q y = true) → p x = true → ∀ y ∈ before, p y = true

theorem lead_cons (x : α) (l : List α) :
    lead p (x :: l) = if p x = true then lead p l + 1 else 0 := by
  unfold lead
  rw [List.takeWhile_cons]
  split
  · exact List.length_cons
  · rfl

theorem tally_cons (x : α) (l : List α) :
    tally p q (x :: l) =
      if q x = true then tally p q l + (if p x = true then 1 else 0) else 0 := by
  unfold tally
  rw [List.takeWhile_cons]
  split
  · exact List.countP_cons
  · rfl

/-- Nothing is counted if nothing passes as far as the scan goes. -/
theorem tally_eq_zero_iff (hpq : ∀ x, p x = true → q x = true) (l : List α) :
    tally p q l = 0 ↔
      ∀ before x after, l = before ++ x :: after → (∀ y ∈ before, q y = true) → p x = false := by
  unfold tally
  rw [List.countP_eq_zero]
  constructor
  · rintro h before x after rfl hbefore
    rw [Bool.eq_false_iff]
    intro hx
    apply h x _ hx
    rw [List.takeWhile_append_of_pos hbefore, List.takeWhile_cons_of_pos (hpq x hx)]
    exact List.mem_append_right before List.mem_cons_self
  · intro h x hmem
    rcases List.append_of_mem hmem with ⟨before, after, heq⟩
    have hall := List.all_takeWhile (p := q) (l := l)
    rw [heq, List.all_append, Bool.and_eq_true, List.all_eq_true] at hall
    have hsplit : l = before ++ x :: (after ++ l.dropWhile q) := by
      rw [← List.cons_append, ← List.append_assoc, ← heq, List.takeWhile_append_dropWhile]
    exact Bool.eq_false_iff.1 (h before x _ hsplit hall.1)

theorem gapless_cons (hpq : ∀ x, p x = true → q x = true) (x : α) (l : List α) :
    Gapless p q (x :: l) ↔
      (q x = true → Gapless p q l ∧ (p x = true ∨ tally p q l = 0)) := by
  rw [tally_eq_zero_iff hpq]
  constructor
  · intro h hx
    have hcons : ∀ {before : List α}, (∀ z ∈ before, q z = true) →
        ∀ z ∈ x :: before, q z = true := by
      intro before hbefore
      exact List.forall_mem_cons.2 ⟨hx, hbefore⟩
    constructor
    · intro before y after heq hbefore hy z hz
      exact h (x :: before) y after (congrArg (x :: ·) heq) (hcons hbefore) hy z
        (List.mem_cons_of_mem x hz)
    · by_cases hp : p x = true
      · exact Or.inl hp
      · right
        intro before y after heq hbefore
        rw [Bool.eq_false_iff]
        intro hy
        exact hp (h (x :: before) y after (congrArg (x :: ·) heq) (hcons hbefore) hy x
          List.mem_cons_self)
  · intro h before y after heq hbefore hy z hz
    rcases List.cons_eq_append_iff.1 heq with ⟨rfl, -⟩ | ⟨rest, rfl, hl⟩
    · exact absurd hz List.not_mem_nil
    · rcases List.forall_mem_cons.1 hbefore with ⟨hx, hrest⟩
      rcases h hx with ⟨hgap, hp | hnone⟩
      · rcases List.mem_cons.1 hz with rfl | hz
        · exact hp
        · exact hgap rest y after hl hrest hy z hz
      · rw [hnone rest y after hl hrest] at hy
        exact absurd hy Bool.false_ne_true

/-- The scan counts at least the leading elements. -/
theorem lead_le_tally (hpq : ∀ x, p x = true → q x = true) (l : List α) :
    lead p l ≤ tally p q l := by
  induction l with
  | nil => exact Nat.le_refl 0
  | cons x l ih =>
    rw [lead_cons, tally_cons]
    by_cases hx : p x = true
    · rw [if_pos hx, if_pos (hpq x hx), if_pos hx]
      omega
    · rw [if_neg hx]
      exact Nat.zero_le _

theorem tally_eq_lead_iff (hpq : ∀ x, p x = true → q x = true) (l : List α) :
    tally p q l = lead p l ↔ Gapless p q l := by
  induction l with
  | nil =>
    constructor
    · intro _ before x after heq
      exact absurd heq.symm (List.append_ne_nil_of_right_ne_nil before (List.cons_ne_nil x after))
    · intro _
      rfl
  | cons x l ih =>
    rw [tally_cons, lead_cons, gapless_cons hpq]
    by_cases hq : q x = true
    · rw [if_pos hq]
      by_cases hx : p x = true
      · rw [if_pos hx, if_pos hx, Nat.add_right_cancel_iff, ih]
        constructor
        · intro h _
          exact ⟨h, Or.inl hx⟩
        · intro h
          exact (h hq).1
      · -- the lead is over, so the scan must find nothing more
        rw [if_neg hx, if_neg hx, Nat.add_zero]
        constructor
        · intro hzero _
          refine ⟨?_, Or.inr hzero⟩
          intro before y after heq hbefore hy
          rw [(tally_eq_zero_iff hpq l).1 hzero before y after heq hbefore] at hy
          exact absurd hy Bool.false_ne_true
        · intro h
          exact (h hq).2.resolve_left hx
    · have hx : ¬p x = true := fun h => hq (hpq x h)
      rw [if_neg hq, if_neg hx]
      exact iff_of_true rfl fun h => absurd h hq

end LeadingRun
