import Mathlib.Algebra.Order.Field.Rat
import HierKvGateway.Core.Floating

/-!
# Core.ExtRat — exact floating-point numbers

Floating-point numbers without rounding: the rationals, two infinities and NaN, with the rules of
IEEE for these. There is one zero, and `x / 0` has the sign of `x`.
-/

namespace HierKvGateway

/-- An exact number, an infinity or NaN. -/
inductive ExtRat where
  | nan
  | negInf
  | num (q : Rat)
  | posInf
deriving DecidableEq, Repr

namespace ExtRat

/-- The infinity with the sign of a number; NaN for zero. -/
def signInf (q : Rat) : ExtRat := if 0 < q then posInf else if q < 0 then negInf else nan

/-- Addition. -/
def add : ExtRat → ExtRat → ExtRat
  | num a, num b => num (a + b)
  | posInf, num _ | num _, posInf | posInf, posInf => posInf
  | negInf, num _ | num _, negInf | negInf, negInf => negInf
  | _, _ => nan

/-- Negation. -/
def neg : ExtRat → ExtRat
  | nan => nan
  | negInf => posInf
  | num q => num (-q)
  | posInf => negInf

/-- Multiplication. -/
def mul : ExtRat → ExtRat → ExtRat
  | num a, num b => num (a * b)
  | posInf, num q | num q, posInf => signInf q
  | negInf, num q | num q, negInf => signInf (-q)
  | posInf, posInf | negInf, negInf => posInf
  | posInf, negInf | negInf, posInf => negInf
  | _, _ => nan

/-- Division. -/
def div : ExtRat → ExtRat → ExtRat
  | num a, num b => if b = 0 then signInf a else num (a / b)
  | num _, posInf | num _, negInf => num 0
  | posInf, num q => if 0 ≤ q then posInf else negInf
  | negInf, num q => if 0 ≤ q then negInf else posInf
  | _, _ => nan

/-- The order; NaN has none. -/
def partialCmp : ExtRat → ExtRat → Option Ordering
  | nan, _ | _, nan => none
  | num a, num b => some (if a < b then .lt else if a = b then .eq else .gt)
  | negInf, negInf | posInf, posInf => some .eq
  | negInf, _ | _, posInf => some .lt
  | posInf, _ | _, negInf => some .gt

/-- The first terms of the series of the exponential function, from term `term` with
index `k` on. -/
def expTerms (q : Rat) : Nat → Nat → Rat → Rat
  | 0, _, term => term
  | fuel + 1, k, term => term + expTerms q fuel (k + 1) (term * q / (k + 1))

/-- The exponential function, by the first terms of its series. -/
def exp : ExtRat → ExtRat
  | nan => nan
  | negInf => num 0
  | posInf => posInf
  | num q => if 0 ≤ q then num (expTerms q 16 0 1) else num (1 / expTerms (-q) 16 0 1)

instance : Floating ExtRat where
  add := add
  sub a b := add a (neg b)
  mul := mul
  div := div
  neg := neg
  lit m k := num (m / 10 ^ k)
  partialCmp := partialCmp
  isFinite
    | num _ => true
    | _ => false
  infinity := posInf
  maxValue := num ((2 ^ 53 - 1) * 2 ^ 971)
  exp := exp

/-- The nearest whole number of a number that is not negative; the even one of two. -/
def roundHalfEven (q : Rat) : Nat :=
  let n := q.floor.toNat
  if q - n < 1 / 2 ∨ q - n = 1 / 2 ∧ n % 2 = 0 then n else n + 1

instance : Rounding ExtRat where
  ceilU64
    | nan => 0
    | negInf => 0
    | num q => BitVec.ofNat 64 (min q.ceil.toNat (2 ^ 64 - 1))
    | posInf => BitVec.allOnes 64
  displayRounded
    | nan => "NaN"
    | negInf => "-inf"
    | num q =>
      if q < 0 then "-" ++ toString (roundHalfEven (-q)) else toString (roundHalfEven q)
    | posInf => "inf"

/-! ## Numbers -/

variable (a b : Rat)

theorem ofNat_eq (n : Nat) : (Floating.ofNat n : ExtRat) = num n := by
  show num (n / 10 ^ 0) = num n
  rw [pow_zero, div_one]

@[simp] theorem num_add : num a + num b = num (a + b) := rfl

@[simp] theorem num_mul : num a * num b = num (a * b) := rfl

@[simp] theorem num_sub : num a - num b = num (a - b) := by
  rw [sub_eq_add_neg]
  rfl

@[simp] theorem num_div (h : b ≠ 0) : num a / num b = num (a / b) := if_neg h

@[simp] theorem le_num : Floating.le (num a) (num b) = decide (a ≤ b) := by
  show (some _ == some Ordering.lt || some _ == some Ordering.eq) = _
  rcases lt_trichotomy a b with h | h | h
  · rw [if_pos h, decide_eq_true h.le]
    rfl
  · subst h
    rw [if_neg (lt_irrefl a), if_pos rfl, decide_eq_true le_rfl]
    rfl
  · rw [if_neg h.not_gt, if_neg h.ne', decide_eq_false h.not_ge]
    rfl

@[simp] theorem lt_num : Floating.lt (num a) (num b) = decide (a < b) := by
  show (some _ == some Ordering.lt) = _
  rcases lt_trichotomy a b with h | h | h
  · rw [if_pos h, decide_eq_true h]
    rfl
  · subst h
    rw [if_neg (lt_irrefl a), if_pos rfl, decide_eq_false (lt_irrefl a)]
    rfl
  · rw [if_neg h.not_gt, if_neg h.ne', decide_eq_false h.not_gt]
    rfl

@[simp] theorem min_num : Floating.min (num a) (num b) = num (min a b) := by
  unfold Floating.min
  rw [le_num]
  by_cases h : a ≤ b
  · rw [if_pos (decide_eq_true h), min_eq_left h]
  · rw [if_neg (by rw [decide_eq_false h]; exact Bool.false_ne_true), min_eq_right (not_le.1 h).le]
    rfl

@[simp] theorem max_num : Floating.max (num a) (num b) = num (max a b) := by
  unfold Floating.max
  rw [le_num]
  by_cases h : a ≤ b
  · rw [if_pos (decide_eq_true h), max_eq_right h]
  · rw [if_neg (by rw [decide_eq_false h]; exact Bool.false_ne_true), max_eq_left (not_le.1 h).le]
    rfl

theorem clamp_num {lo hi : Rat} (h : lo ≤ hi) :
    Floating.clamp (num a) (num lo) (num hi) = num (max lo (min a hi)) := by
  unfold Floating.clamp
  dsimp only
  rw [lt_num]
  by_cases hlo : a < lo
  · rw [decide_eq_true hlo, if_pos rfl, lt_num, decide_eq_false (not_lt.2 h),
      if_neg Bool.false_ne_true, max_eq_left ((min_le_left a hi).trans hlo.le)]
  · have hle : lo ≤ a := not_lt.1 hlo
    rw [decide_eq_false hlo, if_neg Bool.false_ne_true, lt_num]
    by_cases hhi : hi < a
    · rw [decide_eq_true hhi, if_pos rfl, min_eq_right hhi.le, max_eq_right h]
    · rw [decide_eq_false hhi, if_neg Bool.false_ne_true, min_eq_left (not_lt.1 hhi),
        max_eq_right hle]

/-- A number between 0 and 1. -/
def IsRate (x : ExtRat) : Prop := ∃ q, x = num q ∧ 0 ≤ q ∧ q ≤ 1

theorem isRate_zero : IsRate (Floating.ofNat 0) :=
  ⟨0, (ofNat_eq 0).trans (congrArg num Nat.cast_zero), le_rfl, zero_le_one⟩

theorem isRate_one : IsRate (Floating.ofNat 1) :=
  ⟨1, (ofNat_eq 1).trans (congrArg num Nat.cast_one), zero_le_one, le_rfl⟩

/-- What is not NaN is clamped to a rate. -/
theorem isRate_clamp {x : ExtRat} (h : x ≠ nan) :
    IsRate (Floating.clamp x (Floating.ofNat 0) (Floating.ofNat 1)) := by
  cases x with
  | nan => exact absurd rfl h
  | negInf =>
    have hclamp : Floating.clamp negInf (Floating.ofNat 0) (Floating.ofNat 1) =
        Floating.ofNat 0 := by decide +kernel
    rw [hclamp]
    exact isRate_zero
  | num q =>
    refine ⟨max 0 (min q 1), ?_, le_max_left _ _, max_le zero_le_one (min_le_right _ _)⟩
    rw [ofNat_eq, ofNat_eq, Nat.cast_zero, Nat.cast_one, clamp_num _ zero_le_one]
  | posInf => exact isRate_one

/-- The greater of a number and anything is not NaN. -/
theorem max_num_ne_nan (x : ExtRat) : Floating.max (num a) x ≠ nan := by
  cases x with
  | nan => exact ExtRat.noConfusion
  | negInf => exact ExtRat.noConfusion
  | num b =>
    rw [max_num]
    exact ExtRat.noConfusion
  | posInf => exact ExtRat.noConfusion

/-- The least whole number not below a number, as long as that is a `u64`. -/
theorem toNat_ceilU64_le_iff {q : Rat} (h : q ≤ (2 ^ 64 - 1 : Nat)) (n : Nat) :
    (Rounding.ceilU64 (num q)).toNat ≤ n ↔ q ≤ n := by
  show (BitVec.ofNat 64 (min q.ceil.toNat (2 ^ 64 - 1))).toNat ≤ n ↔ _
  have hceil : ∀ m : Nat, q.ceil.toNat ≤ m ↔ q ≤ m := by
    intro m
    rw [Int.toNat_le, Rat.ceil_le_iff, Rat.intCast_natCast]
  rw [Nat.min_eq_left ((hceil _).2 h), BitVec.toNat_ofNat, Nat.mod_eq_of_lt, hceil]
  have hle := (hceil _).2 h
  omega

/-! ## Sums -/

theorem add_comm' (x y : ExtRat) : add x y = add y x := by
  cases x with
  | num a =>
    cases y with
    | num b => exact congrArg num (add_comm a b)
    | _ => rfl
  | _ => cases y <;> rfl

theorem zero_add' (x : ExtRat) : add (num 0) x = x := by
  cases x with
  | num a => exact congrArg num (zero_add a)
  | _ => rfl

theorem add_assoc' (x y z : ExtRat) : add (add x y) z = add x (add y z) := by
  cases x with
  | num a =>
    cases y with
    | num b =>
      cases z with
      | num c => exact congrArg num (add_assoc a b c)
      | _ => rfl
    | _ => cases z <;> rfl
  | _ => cases y <;> cases z <;> rfl

instance : Zero ExtRat := ⟨num 0⟩

/-- A sum does not depend on the order of its terms. -/
instance : AddCommMonoid ExtRat where
  add_assoc := add_assoc'
  zero_add := zero_add'
  add_zero x := (add_comm' x (num 0)).trans (zero_add' x)
  add_comm := add_comm'
  nsmul := nsmulRec

theorem foldl_add_num (qs : List Rat) (q : Rat) :
    (qs.map num).foldl (· + ·) (num q) = num (q + qs.sum) := by
  induction qs generalizing q with
  | nil =>
    rw [List.sum_nil, add_zero]
    rfl
  | cons p qs ih => rw [List.map_cons, List.foldl_cons, num_add, ih, List.sum_cons, add_assoc]

theorem sum_num (qs : List Rat) : Floating.sum (qs.map num) = num qs.sum := by
  unfold Floating.sum
  rw [ofNat_eq, Nat.cast_zero, foldl_add_num, zero_add]

theorem zero_eq : (Floating.ofNat 0 : ExtRat) = 0 := by
  rw [ofNat_eq, Nat.cast_zero]
  rfl

end ExtRat

end HierKvGateway
