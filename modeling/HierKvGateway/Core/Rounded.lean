import HierKvGateway.Core.ExtRat
import Mathlib.Algebra.Order.Ring.WithTop
import Mathlib.Tactic.NormNum

/-!
# Core.Rounded — floating-point numbers that round

What the results about selection need of a floating-point type, and what IEEE promises: every
number stands for an exact one (`val`), comparisons compare these, and an operation is the exact
operation, rounded. Rounding is monotone, and leaves the numbers of the type and the small dyadic
ones alone. Of `exp` only its value at 0 and its sign are asked.

`val` does not tell the two zeros apart, so nothing is said about a division by zero.
-/

namespace HierKvGateway

namespace ExtRat

/-- The numbers and infinities in order; NaN is at the bottom. -/
def ord : ExtRat → WithBot (WithTop Rat)
  | nan | negInf => ⊥
  | num q => ((q : WithTop Rat) : WithBot (WithTop Rat))
  | posInf => ((⊤ : WithTop Rat) : WithBot (WithTop Rat))

variable {x y : ExtRat}

theorem le_iff : Floating.le x y = true ↔ x ≠ nan ∧ y ≠ nan ∧ x.ord ≤ y.ord := by
  cases x with
  | num p =>
    cases y with
    | num q => simp [ord]
    | _ => simp [Floating.le, Floating.partialCmp, partialCmp, ord]
  | _ => cases y <;> simp [Floating.le, Floating.partialCmp, partialCmp, ord]

theorem lt_iff : Floating.lt x y = true ↔ x ≠ nan ∧ y ≠ nan ∧ x.ord < y.ord := by
  cases x with
  | num p =>
    cases y with
    | num q => simp [ord]
    | posInf =>
      have hlt : (num p).ord < posInf.ord := WithBot.coe_lt_coe.2 (WithTop.coe_lt_top p)
      simp [Floating.lt, Floating.partialCmp, partialCmp, hlt]
    | _ => simp [Floating.lt, Floating.partialCmp, partialCmp, ord]
  | _ => cases y <;> simp [Floating.lt, Floating.partialCmp, partialCmp, ord]

/-- A number after rounding; infinities and NaN are not rounded. -/
def rounded (round : Rat → ExtRat) : ExtRat → ExtRat
  | num q => round q
  | x => x

theorem rounded_num (x : ExtRat) : x.rounded num = x := by
  cases x with
  | _ => rfl

/-! ### The exponential function -/

theorem expTerms_nonneg {q term : Rat} (hq : 0 ≤ q) (hterm : 0 ≤ term) (fuel k : Nat) :
    0 ≤ expTerms q fuel k term := by
  induction fuel generalizing k term with
  | zero => exact hterm
  | succ fuel ih =>
    have hnext : 0 ≤ term * q / (k + 1) := div_nonneg (mul_nonneg hterm hq) (by positivity)
    exact add_nonneg hterm (ih hnext (k + 1))

theorem expTerms_pos {q term : Rat} (hq : 0 ≤ q) (hterm : 0 < term) (fuel k : Nat) :
    0 < expTerms q fuel k term := by
  cases fuel with
  | zero => exact hterm
  | succ fuel =>
    have hnext : 0 ≤ term * q / (k + 1) := div_nonneg (mul_nonneg hterm.le hq) (by positivity)
    exact add_pos_of_pos_of_nonneg hterm (expTerms_nonneg hq hnext fuel (k + 1))

theorem exp_num_pos (q : Rat) : ∃ r, 0 < r ∧ exp (num q) = num r := by
  rw [exp]
  by_cases hq : 0 ≤ q
  · rw [if_pos hq]
    exact ⟨_, expTerms_pos hq zero_lt_one 16 0, rfl⟩
  · rw [if_neg hq]
    have hneg : 0 ≤ -q := neg_nonneg.2 (not_le.1 hq).le
    exact ⟨_, div_pos zero_lt_one (expTerms_pos hneg zero_lt_one 16 0), rfl⟩

end ExtRat

/-- A floating-point type whose operations are the exact ones, rounded. -/
class RoundedFloating (F : Type) [Floating F] where
  /-- The exact number. -/
  val : F → ExtRat
  /-- The nearest number of the type; an infinity if there is none. -/
  round : Rat → ExtRat
  round_mono {p q : Rat} : p ≤ q → Floating.le (round p) (round q) = true
  round_val {x : F} {q : Rat} : val x = .num q → round q = .num q
  round_dyadic {n k : Nat} : n < 2 ^ 53 → k ≤ 1074 → round (n / 2 ^ k) = .num (n / 2 ^ k)
  /-- The reciprocal of a number does not vanish. -/
  round_inv_pos {x : F} {q : Rat} : val x = .num q → 0 < q →
    Floating.lt (.num 0) (round (1 / q)) = true
  partialCmp_val (x y : F) : Floating.partialCmp x y = ExtRat.partialCmp (val x) (val y)
  isFinite_val (x : F) : Floating.isFinite x = Floating.isFinite (val x)
  val_infinity : val Floating.infinity = .posInf
  val_neg (x : F) : val (-x) = (val x).neg
  val_lit (m k : Nat) : val (Floating.lit m k) = round (m / 10 ^ k)
  val_add (x y : F) : val (x + y) = ((val x).add (val y)).rounded round
  val_sub (x y : F) : val (x - y) = ((val x).add (val y).neg).rounded round
  val_mul (x y : F) : val (x * y) = ((val x).mul (val y)).rounded round
  val_div {x y : F} : val y ≠ .num 0 → val (x / y) = ((val x).div (val y)).rounded round
  val_exp_nan {x : F} : val x = .nan → val (Floating.exp x) = .nan
  exp_nonneg {x : F} : val x ≠ .nan → Floating.le (.num 0) (val (Floating.exp x)) = true
  exp_zero {x : F} : val x = .num 0 → val (Floating.exp x) = .num 1

/-- Exact numbers are not rounded. -/
instance : RoundedFloating ExtRat where
  val x := x
  round := .num
  round_mono h := (ExtRat.le_num _ _).trans (decide_eq_true h)
  round_val _ := rfl
  round_dyadic _ _ := rfl
  round_inv_pos _ hq := (ExtRat.lt_num _ _).trans (decide_eq_true (one_div_pos.2 hq))
  partialCmp_val _ _ := rfl
  isFinite_val _ := rfl
  val_infinity := rfl
  val_neg _ := rfl
  val_lit _ _ := rfl
  val_add x y := (ExtRat.rounded_num (x.add y)).symm
  val_sub x y := (ExtRat.rounded_num (x.add y.neg)).symm
  val_mul x y := (ExtRat.rounded_num (x.mul y)).symm
  val_div {x y} _ := (ExtRat.rounded_num (x.div y)).symm
  val_exp_nan := by
    rintro x rfl
    rfl
  exp_nonneg := by
    intro x hx
    cases x with
    | nan => exact absurd rfl hx
    | num q =>
      rcases ExtRat.exp_num_pos q with ⟨r, hr, hexp⟩
      show Floating.le (ExtRat.num 0) (ExtRat.exp (.num q)) = true
      rw [hexp, ExtRat.le_num, decide_eq_true hr.le]
    | negInf => decide +kernel
    | posInf => rfl
  exp_zero := by
    rintro x rfl
    decide +kernel

namespace RoundedFloating

variable {F : Type} [Floating F] [RoundedFloating F] {x y z : F} {q : Rat}

/-- Not a number. -/
def IsNan (x : F) : Prop := val x = .nan

/-- The order of the numbers and infinities. -/
def ord (x : F) : WithBot (WithTop Rat) := (val x).ord

/-! ## Comparisons -/

theorem le_iff : Floating.le x y = true ↔ ¬IsNan x ∧ ¬IsNan y ∧ ord x ≤ ord y := by
  unfold Floating.le
  rw [partialCmp_val]
  exact ExtRat.le_iff

theorem lt_iff : Floating.lt x y = true ↔ ¬IsNan x ∧ ¬IsNan y ∧ ord x < ord y := by
  unfold Floating.lt
  rw [partialCmp_val]
  exact ExtRat.lt_iff

theorem le_val : Floating.le x y = Floating.le (val x) (val y) := by
  unfold Floating.le
  rw [partialCmp_val]
  rfl

theorem lt_val : Floating.lt x y = Floating.lt (val x) (val y) := by
  unfold Floating.lt
  rw [partialCmp_val]
  rfl

theorem lt_iff_not_le (hx : ¬IsNan x) (hy : ¬IsNan y) :
    Floating.lt x y = true ↔ ¬Floating.le y x = true := by
  rw [lt_iff, le_iff]
  constructor
  · exact fun h hle => absurd h.2.2 (not_lt.2 hle.2.2)
  · exact fun h => ⟨hx, hy, not_le.1 fun hle => h ⟨hy, hx, hle⟩⟩

theorem le_of_lt (h : Floating.lt x y = true) : Floating.le x y = true := by
  obtain ⟨hx, hy, hlt⟩ := lt_iff.1 h
  exact le_iff.2 ⟨hx, hy, hlt.le⟩

theorem le_trans' (h : Floating.le x y = true) (h' : Floating.le y z = true) :
    Floating.le x z = true := by
  obtain ⟨hx, -, hxy⟩ := le_iff.1 h
  obtain ⟨-, hz, hyz⟩ := le_iff.1 h'
  exact le_iff.2 ⟨hx, hz, hxy.trans hyz⟩

theorem lt_of_le_of_lt (h : Floating.le x y = true) (h' : Floating.lt y z = true) :
    Floating.lt x z = true := by
  obtain ⟨hx, -, hxy⟩ := le_iff.1 h
  obtain ⟨-, hz, hyz⟩ := lt_iff.1 h'
  exact lt_iff.2 ⟨hx, hz, hxy.trans_lt hyz⟩

theorem le_of_not_lt (hx : ¬IsNan x) (hy : ¬IsNan y) (h : ¬Floating.lt x y = true) :
    Floating.le y x = true := by
  by_contra hle
  exact h ((lt_iff_not_le hx hy).2 hle)

theorem partialCmp_isNone_iff : (Floating.partialCmp x x).isNone = true ↔ IsNan x := by
  rw [partialCmp_val]
  unfold IsNan
  cases val x with
  | num q => simp [ExtRat.partialCmp]
  | _ => simp [ExtRat.partialCmp]

/-- Of two numbers, `cmp` says which is greater. -/
theorem cmp_eq_gt_iff (hx : ¬IsNan x) (hy : ¬IsNan y) :
    Floating.cmp x y = .gt ↔ ord y < ord x := by
  unfold Floating.cmp IsNan ord at *
  rw [partialCmp_val]
  cases hvx : val x with
  | nan => exact absurd hvx hx
  | num p =>
    cases hvy : val y with
    | nan => exact absurd hvy hy
    | num q =>
      show (if p < q then Ordering.lt else if p = q then .eq else .gt) = .gt ↔ _
      have hord : (ExtRat.num q).ord < (ExtRat.num p).ord ↔ q < p := by simp [ExtRat.ord]
      rw [hord]
      rcases lt_trichotomy p q with h | h | h
      · simp [h, h.not_gt]
      · simp [h]
      · simp [h, h.not_gt, h.ne']
    | negInf => simp [ExtRat.partialCmp, ExtRat.ord]
    | posInf =>
      have hle : (ExtRat.num p).ord ≤ ExtRat.posInf.ord := WithBot.coe_le_coe.2 le_top
      simp [ExtRat.partialCmp, hle.not_gt]
  | negInf => cases val y <;> simp [ExtRat.partialCmp, ExtRat.ord]
  | posInf =>
    cases hvy : val y with
    | nan => exact absurd hvy hy
    | num q =>
      have hlt : (ExtRat.num q).ord < ExtRat.posInf.ord :=
        WithBot.coe_lt_coe.2 (WithTop.coe_lt_top q)
      simp [ExtRat.partialCmp, hlt]
    | negInf =>
      have hlt : ExtRat.negInf.ord < ExtRat.posInf.ord := WithBot.bot_lt_coe _
      simp [ExtRat.partialCmp, hlt]
    | posInf => simp [ExtRat.partialCmp]

theorem max_of_num (hx : ¬IsNan x) :
    Floating.max x y = if Floating.le x y = true then y else x := by
  unfold Floating.max
  rw [if_neg (fun h => hx (partialCmp_isNone_iff.1 h))]

/-! ## Numbers -/

theorem isFinite_iff : Floating.isFinite x = true ↔ ∃ q, val x = .num q := by
  rw [isFinite_val]
  cases val x with
  | num q => exact iff_of_true rfl ⟨q, rfl⟩
  | _ => exact iff_of_false Bool.false_ne_true nofun

theorem not_isNan_of_val (h : val x = .num q) : ¬IsNan x := by
  intro hnan
  exact absurd (h.symm.trans hnan) nofun

theorem round_nat {n : Nat} (h : n < 2 ^ 53) : round F n = .num n := by
  have hdyadic := round_dyadic (F := F) h (Nat.zero_le 1074)
  rwa [pow_zero, div_one] at hdyadic

theorem val_ofNat {n : Nat} (h : n < 2 ^ 53) : val (Floating.ofNat n : F) = .num n := by
  rw [Floating.ofNat, val_lit, pow_zero, div_one, round_nat h]

theorem val_zero : val (Floating.ofNat 0 : F) = .num 0 := by
  rw [val_ofNat (by norm_num), Nat.cast_zero]

theorem val_one : val (Floating.ofNat 1 : F) = .num 1 := by
  rw [val_ofNat (by norm_num), Nat.cast_one]

/-- Rounding does not leave an interval between numbers of the type. -/
theorem round_between {a b p : Rat} (ha : round F a = .num a) (hb : round F b = .num b)
    (hap : a ≤ p) (hpb : p ≤ b) : ∃ q, round F p = .num q ∧ a ≤ q ∧ q ≤ b := by
  have hlow : Floating.le (round F a) (round F p) = true := round_mono hap
  have hhigh : Floating.le (round F p) (round F b) = true := round_mono hpb
  rw [ha] at hlow
  rw [hb] at hhigh
  cases hp : round F p with
  | num q =>
    rw [hp, ExtRat.le_num, decide_eq_true_eq] at hlow hhigh
    exact ⟨q, rfl, hlow, hhigh⟩
  | nan =>
    rw [hp] at hlow
    exact absurd hlow Bool.false_ne_true
  | negInf =>
    rw [hp] at hlow
    exact absurd hlow Bool.false_ne_true
  | posInf =>
    rw [hp] at hhigh
    exact absurd hhigh Bool.false_ne_true

theorem round_half {n : Nat} (h : n < 2 ^ 53) : round F (n / 2) = .num (n / 2) := by
  have hdyadic := round_dyadic (F := F) h (Nat.le_of_ble_eq_true rfl : 1 ≤ 1074)
  rwa [pow_one] at hdyadic

theorem zero_le_iff_of_val (h : val x = .num q) :
    Floating.le (Floating.ofNat 0) x = true ↔ 0 ≤ q := by
  rw [le_iff, ord, ord, val_zero, h]
  have hnan := not_isNan_of_val h
  have hzero := not_isNan_of_val (val_zero (F := F))
  simp [hnan, hzero, ExtRat.ord]

theorem zero_lt_iff_of_val (h : val x = .num q) :
    Floating.lt (Floating.ofNat 0) x = true ↔ 0 < q := by
  rw [lt_iff, ord, ord, val_zero, h]
  have hnan := not_isNan_of_val h
  have hzero := not_isNan_of_val (val_zero (F := F))
  simp [hnan, hzero, ExtRat.ord]

/-! ## Differences and quotients -/

theorem val_sub_self (h : val x = .num q) : val (x - x) = .num 0 := by
  have hzero : round F 0 = .num 0 := round_val (val_zero (F := F))
  rw [val_sub, h]
  show round F (q + -q) = .num 0
  rw [add_neg_cancel, hzero]

/-- The difference of an infinity from itself is NaN. -/
theorem isNan_sub_self (h : ¬Floating.isFinite x = true) : IsNan (x - x) := by
  rw [isFinite_iff] at h
  unfold IsNan
  rw [val_sub]
  cases hx : val x with
  | num q => exact absurd ⟨q, hx⟩ h
  | _ => rfl

theorem isNan_sub (h : IsNan x) : IsNan (x - y) := by
  unfold IsNan at *
  rw [val_sub, h]
  cases val y with
  | _ => rfl

theorem isNan_div (h : IsNan x) (hy : val y ≠ .num 0) : IsNan (x / y) := by
  unfold IsNan at *
  rw [val_div hy, h]
  cases val y with
  | _ => rfl

theorem isNan_div_right (h : IsNan y) : IsNan (x / y) := by
  unfold IsNan at *
  have hne : val y ≠ .num 0 := by
    rw [h]
    exact nofun
  rw [val_div hne, h]
  cases val x with
  | _ => rfl

theorem isNan_sub_neg_infinity (hx : ¬IsNan x) (h : ord x ≤ ord (-Floating.infinity : F)) :
    IsNan (x - -Floating.infinity) := by
  have hinf : val (-Floating.infinity : F) = .negInf := by
    rw [val_neg, val_infinity]
    rfl
  unfold ord at h
  unfold IsNan at *
  rw [val_sub, hinf]
  rw [hinf] at h
  cases hv : val x with
  | nan => exact absurd hv hx
  | negInf => rfl
  | num q =>
    rw [hv] at h
    exact absurd h (not_le.2 (WithBot.bot_lt_coe _))
  | posInf =>
    rw [hv] at h
    exact absurd h (not_le.2 (WithBot.bot_lt_coe _))

theorem not_isFinite_of_isNan (h : IsNan x) : ¬Floating.isFinite x = true := by
  rw [isFinite_iff]
  rintro ⟨q, hq⟩
  exact not_isNan_of_val hq h

/-- Zero by a positive number, or by infinity, is zero. -/
theorem val_zero_div (hx : val x = .num 0) (hy : Floating.lt (Floating.ofNat 0) y = true) :
    val (x / y) = .num 0 := by
  have hzero : round F 0 = .num 0 := round_val (val_zero (F := F))
  obtain ⟨-, hnan, hord⟩ := lt_iff.1 hy
  have hne : val y ≠ .num 0 := by
    intro h
    rw [zero_lt_iff_of_val h] at hy
    exact absurd hy (lt_irrefl 0)
  rw [val_div hne, hx]
  cases hvy : val y with
  | nan => exact absurd hvy hnan
  | num q =>
    rw [zero_lt_iff_of_val hvy] at hy
    show (if q = 0 then _ else ExtRat.num (0 / q)).rounded (round F) = _
    rw [if_neg hy.ne', zero_div]
    exact hzero
  | negInf => exact hzero
  | posInf => exact hzero

/-- A number that is not negative is an exact one or infinity. -/
theorem nonneg_cases (h : Floating.le (Floating.ofNat 0) x = true) :
    (∃ q, 0 ≤ q ∧ val x = .num q) ∨ val x = .posInf := by
  cases hx : val x with
  | nan => exact absurd hx (le_iff.1 h).2.1
  | num q => exact Or.inl ⟨q, (zero_le_iff_of_val hx).1 h, rfl⟩
  | negInf =>
    have hord := (le_iff.1 h).2.2
    rw [ord, ord, val_zero, hx] at hord
    exact absurd hord (not_le.2 (WithBot.bot_lt_coe _))
  | posInf => exact Or.inr rfl

/-- A part of a positive whole is between 0 and 1. -/
theorem part_of_whole (hx : Floating.le (Floating.ofNat 0) x = true)
    (hxy : Floating.le x y = true) (hy : Floating.isFinite y = true)
    (hpos : Floating.lt (Floating.ofNat 0) y = true) :
    Floating.le (Floating.ofNat 0) (x / y) = true ∧
      Floating.le (x / y) (Floating.ofNat 1) = true := by
  rcases isFinite_iff.1 hy with ⟨q, hq⟩
  have hq0 : 0 < q := (zero_lt_iff_of_val hq).1 hpos
  rcases nonneg_cases hx with ⟨p, hp0, hp⟩ | hinf
  · have hpq : p ≤ q := by
      rw [le_val, hp, hq, ExtRat.le_num, decide_eq_true_eq] at hxy
      exact hxy
    have hne : val y ≠ .num 0 := by
      rw [hq]
      exact fun h => hq0.ne' (ExtRat.num.inj h)
    have hval : val (x / y) = round F (p / q) := by
      rw [val_div hne, hp, hq]
      show (if q = 0 then _ else ExtRat.num (p / q)).rounded (round F) = _
      rw [if_neg hq0.ne']
      rfl
    have hzero : round F 0 = .num 0 := round_val (val_zero (F := F))
    have hone : round F 1 = .num 1 := round_val (val_one (F := F))
    constructor
    · rw [le_val, hval, val_zero, ← hzero]
      exact round_mono (div_nonneg hp0 hq0.le)
    · rw [le_val, hval, val_one, ← hone]
      exact round_mono (div_le_one_of_le₀ hpq hq0.le)
  · rw [le_val, hinf, hq] at hxy
    exact absurd hxy Bool.false_ne_true

/-- The reciprocal of a positive number is positive. -/
theorem one_div_pos (hx : val x = .num 1) (hy : Floating.isFinite y = true)
    (hpos : Floating.lt (Floating.ofNat 0) y = true) :
    Floating.lt (Floating.ofNat 0) (x / y) = true := by
  rcases isFinite_iff.1 hy with ⟨q, hq⟩
  have hq0 : 0 < q := (zero_lt_iff_of_val hq).1 hpos
  have hne : val y ≠ .num 0 := by
    rw [hq]
    exact fun h => hq0.ne' (ExtRat.num.inj h)
  have hval : val (x / y) = round F (1 / q) := by
    rw [val_div hne, hx, hq]
    show (if q = 0 then _ else ExtRat.num (1 / q)).rounded (round F) = _
    rw [if_neg hq0.ne']
    rfl
  rw [lt_val, hval, val_zero]
  exact round_inv_pos hq hq0

/-! ## Sums -/

theorem isFinite_of_add (h : Floating.isFinite (x + y) = true) :
    Floating.isFinite x = true ∧ Floating.isFinite y = true := by
  rw [isFinite_val, val_add] at h
  cases hx : val x with
  | num p =>
    cases hy : val y with
    | num q => exact ⟨isFinite_iff.2 ⟨p, hx⟩, isFinite_iff.2 ⟨q, hy⟩⟩
    | _ =>
      rw [hx, hy] at h
      exact absurd h Bool.false_ne_true
  | _ =>
    rw [hx] at h
    cases hy : val y with
    | _ =>
      rw [hy] at h
      exact absurd h Bool.false_ne_true

theorem isFinite_of_foldl_add {l : List F} {acc : F}
    (h : Floating.isFinite (l.foldl (· + ·) acc) = true) :
    Floating.isFinite acc = true ∧ ∀ x ∈ l, Floating.isFinite x = true := by
  induction l generalizing acc with
  | nil => exact ⟨h, nofun⟩
  | cons x l ih =>
    obtain ⟨hsum, hl⟩ := ih h
    obtain ⟨hacc, hx⟩ := isFinite_of_add hsum
    exact ⟨hacc, List.forall_mem_cons.2 ⟨hx, hl⟩⟩

/-- A sum of two numbers that are not negative is at least each of them. -/
theorem le_add (hx : Floating.le (Floating.ofNat 0) x = true)
    (hy : Floating.le (Floating.ofNat 0) y = true) :
    Floating.le x (x + y) = true ∧ Floating.le y (x + y) = true := by
  have hxsum : Floating.le x (x + y) = Floating.le (val x) (val (x + y)) := le_val
  have hysum : Floating.le y (x + y) = Floating.le (val y) (val (x + y)) := le_val
  rw [hxsum, hysum, val_add]
  rcases nonneg_cases hx with ⟨p, hp0, hp⟩ | hx'
  · rcases nonneg_cases hy with ⟨q, hq0, hq⟩ | hy'
    · rw [hp, hq]
      have hpsum : Floating.le (round F p) (round F (p + q)) = true :=
        round_mono (le_add_of_nonneg_right hq0)
      have hqsum : Floating.le (round F q) (round F (p + q)) = true :=
        round_mono (le_add_of_nonneg_left hp0)
      rw [round_val hp] at hpsum
      rw [round_val hq] at hqsum
      exact ⟨hpsum, hqsum⟩
    · rw [hp, hy']
      exact ⟨rfl, rfl⟩
  · rcases nonneg_cases hy with ⟨q, hq0, hq⟩ | hy'
    · rw [hx', hq]
      exact ⟨rfl, rfl⟩
    · rw [hx', hy']
      exact ⟨rfl, rfl⟩

/-- A sum of numbers that are not negative is at least each of them. -/
theorem le_foldl_add {l : List F} {acc : F} (hacc : Floating.le (Floating.ofNat 0) acc = true)
    (hl : ∀ x ∈ l, Floating.le (Floating.ofNat 0) x = true) :
    Floating.le acc (l.foldl (· + ·) acc) = true ∧
      ∀ x ∈ l, Floating.le x (l.foldl (· + ·) acc) = true := by
  induction l generalizing acc with
  | nil =>
    refine ⟨le_iff.2 ⟨?_, ?_, le_refl _⟩, nofun⟩
    · exact (le_iff.1 hacc).2.1
    · exact (le_iff.1 hacc).2.1
  | cons x l ih =>
    obtain ⟨hx, hrest⟩ := List.forall_mem_cons.1 hl
    obtain ⟨hleft, hright⟩ := le_add hacc hx
    obtain ⟨hsum, hmem⟩ := ih (le_trans' hacc hleft) hrest
    exact ⟨le_trans' hleft hsum, List.forall_mem_cons.2 ⟨le_trans' hright hsum, hmem⟩⟩

/-! ## Finite numbers that are not negative -/

/-- A finite number that is not negative. -/
def NonNegative (x : F) : Prop := ∃ q : Rat, 0 ≤ q ∧ val x = .num q

theorem NonNegative.le (h : NonNegative x) : Floating.le (Floating.ofNat 0) x = true := by
  obtain ⟨q, hq, hval⟩ := h
  exact (zero_le_iff_of_val hval).2 hq

theorem not_isNan_of_nonneg (h : Floating.le (Floating.ofNat 0) x = true) : ¬IsNan x :=
  (le_iff.1 h).2.1

theorem nonNegative_ofNat {n : Nat} (h : n < 2 ^ 53) : NonNegative (Floating.ofNat n : F) :=
  ⟨n, Nat.cast_nonneg n, val_ofNat h⟩

/-- What is not negative and at most a finite number is finite. -/
theorem NonNegative.of_le (hx : Floating.le (Floating.ofNat 0) x = true)
    (hxy : Floating.le x y = true) (hy : NonNegative y) : NonNegative x := by
  obtain ⟨q, -, hval⟩ := hy
  rcases nonneg_cases hx with hnum | hinf
  · exact hnum
  · rw [le_val, hinf, hval] at hxy
    exact absurd hxy Bool.false_ne_true

theorem round_zero : round F 0 = .num 0 := round_val (val_zero (F := F))

/-- Rounding keeps the order with the numbers of the type. -/
theorem le_of_val_round {p q : Rat} (hx : val x = .num p) (hy : val y = round F q) (h : p ≤ q) :
    Floating.le x y = true := by
  rw [le_val, hx, hy, ← round_val hx]
  exact round_mono h

theorem le_of_round_val {p q : Rat} (hx : val x = round F p) (hy : val y = .num q) (h : p ≤ q) :
    Floating.le x y = true := by
  rw [le_val, hx, hy, ← round_val hy]
  exact round_mono h

/-- A part of a whole, which may be infinite. -/
theorem NonNegative.div (hx : NonNegative x) (hxy : Floating.le x y = true)
    (hpos : Floating.lt (Floating.ofNat 0) y = true) : NonNegative (x / y) := by
  by_cases hfinite : Floating.isFinite y = true
  · obtain ⟨hlow, hhigh⟩ := part_of_whole hx.le hxy hfinite hpos
    exact .of_le hlow hhigh (nonNegative_ofNat (by norm_num))
  · obtain ⟨p, -, hval⟩ := hx
    rcases nonneg_cases (le_of_lt hpos) with ⟨q, -, hq⟩ | hinf
    · exact absurd (isFinite_iff.2 ⟨q, hq⟩) hfinite
    · refine ⟨0, le_rfl, ?_⟩
      rw [val_div (by rw [hinf]; exact nofun), hval, hinf]
      exact round_zero

/-- A share of a number. -/
theorem NonNegative.mul_unit (hx : NonNegative x) (hy : Floating.le (Floating.ofNat 0) y = true)
    (hone : Floating.le y (Floating.ofNat 1) = true) : NonNegative (x * y) := by
  obtain ⟨q, hq, hyq⟩ : NonNegative y := .of_le hy hone (nonNegative_ofNat (by norm_num))
  obtain ⟨p, hp, hxp⟩ := hx
  have hq1 : q ≤ 1 := by
    rw [le_val, hyq, val_one, ExtRat.le_num, decide_eq_true_eq] at hone
    exact hone
  have hval : val (x * y) = round F (p * q) := by
    rw [val_mul, hxp, hyq]
    rfl
  refine .of_le (le_of_val_round val_zero hval (mul_nonneg hp hq))
    (le_of_round_val hval hxp (mul_le_of_le_one_right hp hq1)) ⟨p, hp, hxp⟩

theorem val_mul_zero (hx : NonNegative x) (hy : val y = .num 0) : val (x * y) = .num 0 := by
  obtain ⟨p, -, hp⟩ := hx
  rw [val_mul, hp, hy]
  show round F (p * 0) = _
  rw [mul_zero, round_zero]

/-- To add zero changes nothing but the sign of a zero. -/
theorem val_add_zero (hy : val y = .num 0) : val (x + y) = val x := by
  rw [val_add, hy]
  cases hx : val x with
  | num q =>
    show round F (q + 0) = _
    rw [add_zero, round_val hx]
  | _ => rfl

theorem val_zero_add (hx : val x = .num 0) : val (x + y) = val y := by
  have hcomm : val (x + y) = val (y + x) := by
    rw [val_add, val_add, ExtRat.add_comm']
  rw [hcomm, val_add_zero hx]

end RoundedFloating

end HierKvGateway
