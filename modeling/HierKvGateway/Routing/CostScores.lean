import HierKvGateway.Routing.Exclusion
import Mathlib.Algebra.Order.Field.Basic

/-!
# Routing.CostScores — scores made of costs

Most strategies turn a cost into the score `1 / (1 + cost)`. A cost is a number that is not
negative, or infinite (`ExtRat.IsCost`): then the score is between 0 and 1, and the cheaper of two
candidates has the higher score (`ExtRat.le_reciprocal_iff`).
-/

namespace HierKvGateway

namespace ExtRat

/-- A number that is not negative, or infinity. -/
def IsCost (x : ExtRat) : Prop := x = posInf ∨ x.NonNegative

/-- The score of a cost. -/
def reciprocal (x : ExtRat) : ExtRat := Floating.ofNat 1 / (Floating.ofNat 1 + x)

variable {x y : ExtRat}

theorem NonNegative.isCost (h : x.NonNegative) : x.IsCost := Or.inr h

theorem IsCost.cases (h : x.IsCost) : x = .posInf ∨ ∃ q, x = .num q := by
  rcases h with rfl | ⟨q, -, rfl⟩
  · exact Or.inl rfl
  · exact Or.inr ⟨q, rfl⟩

theorem IsCost.add (hx : x.IsCost) (hy : y.IsCost) : (x + y).IsCost := by
  rcases hx with rfl | ⟨p, hp, rfl⟩
  · rcases hy with rfl | ⟨q, -, rfl⟩
    · exact Or.inl rfl
    · exact Or.inl rfl
  · rcases hy with rfl | ⟨q, hq, rfl⟩
    · exact Or.inl rfl
    · exact Or.inr ⟨p + q, add_nonneg hp hq, rfl⟩

/-- A positive multiple of a cost. -/
theorem IsCost.mul {w : Rat} (hw : 0 < w) (hx : x.IsCost) : (num w * x).IsCost := by
  rcases hx with rfl | ⟨q, hq, rfl⟩
  · exact Or.inl (if_pos hw)
  · exact Or.inr ⟨w * q, mul_nonneg hw.le hq, rfl⟩

/-- A part of a cost is a multiple of it. -/
theorem IsCost.div_eq_mul {w : Rat} (hw : 0 < w) (hx : x.IsCost) :
    x / num w = num (1 / w) * x := by
  rcases hx with rfl | ⟨q, -, rfl⟩
  · have hdiv : (posInf / num w : ExtRat) = posInf := if_pos hw.le
    have hmul : (num (1 / w) * posInf : ExtRat) = posInf := if_pos (one_div_pos.2 hw)
    rw [hdiv, hmul]
  · rw [num_div q w hw.ne', num_mul, one_div_mul_eq_div]

/-- The greater of anything and zero is a cost. -/
theorem isCost_max_zero (x : ExtRat) : (Floating.max x (Floating.ofNat 0)).IsCost := by
  rw [ofNat_eq, Nat.cast_zero]
  cases x with
  | nan => exact Or.inr ⟨0, le_rfl, rfl⟩
  | negInf => exact Or.inr ⟨0, le_rfl, rfl⟩
  | num q => exact Or.inr ⟨max q 0, le_max_right q 0, max_num q 0⟩
  | posInf => exact Or.inl rfl

/-! ## Comparing costs -/

theorem IsCost.le_posInf (hx : x.IsCost) : Floating.le x posInf = true := by
  rcases hx with rfl | ⟨q, -, rfl⟩
  · rfl
  · rfl

theorem not_posInf_le_num (q : Rat) : ¬Floating.le posInf (num q) = true := Bool.false_ne_true

theorem IsCost.le_refl (hx : x.IsCost) : Floating.le x x = true := by
  rcases hx with rfl | ⟨q, -, rfl⟩
  · rfl
  · exact (le_num q q).trans (decide_eq_true le_rfl)

/-- Positive multiples are in the same order. -/
theorem mul_le_mul_iff {w : Rat} (hw : 0 < w) (hx : x.IsCost) (hy : y.IsCost) :
    Floating.le (num w * x) (num w * y) = true ↔ Floating.le x y = true := by
  have hinf : num w * posInf = posInf := if_pos hw
  rcases hx with rfl | ⟨p, -, rfl⟩
  · rcases hy with rfl | ⟨q, -, rfl⟩
    · rw [hinf]
    · rw [hinf, num_mul]
      exact Iff.rfl
  · rcases hy with rfl | ⟨q, -, rfl⟩
    · rw [hinf, num_mul]
      exact Iff.rfl
    · rw [num_mul, num_mul, le_num, le_num, decide_eq_true_eq, decide_eq_true_eq]
      exact mul_le_mul_iff_right₀ hw

/-- A cost that is not above another one. -/
structure NoDearer (x y : ExtRat) : Prop where
  left : x.IsCost
  right : y.IsCost
  le : Floating.le x y = true

theorem NoDearer.refl (hx : x.IsCost) : x.NoDearer x := ⟨hx, hx, hx.le_refl⟩

theorem NoDearer.num {p q : Rat} (hp : 0 ≤ p) (hle : p ≤ q) : NoDearer (num p) (num q) :=
  ⟨Or.inr ⟨p, hp, rfl⟩, Or.inr ⟨q, hp.trans hle, rfl⟩, (le_num p q).trans (decide_eq_true hle)⟩

theorem NoDearer.ofNat {m n : Nat} (h : m ≤ n) :
    NoDearer (Floating.ofNat m) (Floating.ofNat n) := by
  rw [ofNat_eq, ofNat_eq]
  exact NoDearer.num (Nat.cast_nonneg m) (Nat.cast_le.2 h)

/-- Below a number there is a number. -/
theorem NoDearer.exists_num {q : Rat} (h : x.NoDearer (.num q)) :
    ∃ p, x = .num p ∧ 0 ≤ p ∧ p ≤ q := by
  rcases h with ⟨rfl | ⟨p, hp, rfl⟩, -, hle⟩
  · exact absurd hle (not_posInf_le_num q)
  · exact ⟨p, rfl, hp, of_decide_eq_true ((le_num p q).symm.trans hle)⟩

theorem NoDearer.mul {w : Rat} (hw : 0 < w) (h : x.NoDearer y) :
    (ExtRat.num w * x).NoDearer (ExtRat.num w * y) :=
  ⟨h.left.mul hw, h.right.mul hw, (mul_le_mul_iff hw h.left h.right).2 h.le⟩

theorem NoDearer.add {z w : ExtRat} (h : x.NoDearer y) (h' : z.NoDearer w) :
    (x + z).NoDearer (y + w) := by
  refine ⟨h.left.add h'.left, h.right.add h'.right, ?_⟩
  rcases h.right with rfl | ⟨q, hq, rfl⟩
  · have hinf : posInf + w = posInf := by
      rcases h'.right with rfl | ⟨q, -, rfl⟩
      · rfl
      · rfl
    rw [hinf]
    exact (h.left.add h'.left).le_posInf
  · rcases h'.right with rfl | ⟨r, hr, rfl⟩
    · exact (h.left.add h'.left).le_posInf
    · rcases h.exists_num with ⟨p, rfl, -, hp⟩
      rcases h'.exists_num with ⟨t, rfl, -, ht⟩
      rw [num_add, num_add, le_num, decide_eq_true_eq]
      exact add_le_add hp ht

/-! ## The scores -/

theorem reciprocal_posInf : reciprocal posInf = num 0 := by
  unfold reciprocal
  rw [ofNat_eq]
  rfl

theorem reciprocal_num {q : Rat} (hq : 0 ≤ q) : reciprocal (num q) = num (1 / (1 + q)) := by
  have hne : 1 + q ≠ 0 := (add_pos_of_pos_of_nonneg zero_lt_one hq).ne'
  unfold reciprocal
  rw [ofNat_eq, Nat.cast_one, num_add, num_div _ _ hne]

/-- The score of a cost is a number between 0 and 1. -/
theorem IsCost.isRate_reciprocal (hx : x.IsCost) : (reciprocal x).IsRate := by
  rcases hx with rfl | ⟨q, hq, rfl⟩
  · exact ⟨0, reciprocal_posInf, le_rfl, zero_le_one⟩
  · have hpos : 0 < 1 + q := add_pos_of_pos_of_nonneg zero_lt_one hq
    exact ⟨_, reciprocal_num hq, (one_div_pos.2 hpos).le,
      div_le_one_of_le₀ (le_add_of_nonneg_right hq) hpos.le⟩

/-- The cheaper one scores higher. -/
theorem le_reciprocal_iff (hx : x.IsCost) (hy : y.IsCost) :
    Floating.le (reciprocal y) (reciprocal x) = true ↔ Floating.le x y = true := by
  rcases hx with rfl | ⟨p, hp, rfl⟩
  · rcases hy with rfl | ⟨q, hq, rfl⟩
    · rw [reciprocal_posInf, le_num, decide_eq_true_eq]
      exact iff_of_true le_rfl rfl
    · have hpos : 0 < 1 / (1 + q) := one_div_pos.2 (add_pos_of_pos_of_nonneg zero_lt_one hq)
      rw [reciprocal_posInf, reciprocal_num hq, le_num, decide_eq_true_eq]
      exact iff_of_false (not_le.2 hpos) (not_posInf_le_num q)
  · have hppos : 0 < 1 + p := add_pos_of_pos_of_nonneg zero_lt_one hp
    rcases hy with rfl | ⟨q, hq, rfl⟩
    · rw [reciprocal_posInf, reciprocal_num hp, le_num, decide_eq_true_eq]
      exact iff_of_true (one_div_pos.2 hppos).le rfl
    · have hqpos : 0 < 1 + q := add_pos_of_pos_of_nonneg zero_lt_one hq
      rw [reciprocal_num hp, reciprocal_num hq, le_num, le_num, decide_eq_true_eq,
        decide_eq_true_eq, one_div_le_one_div hqpos hppos]
      exact add_le_add_iff_left 1

end ExtRat

end HierKvGateway
