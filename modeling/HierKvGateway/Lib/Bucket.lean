import Mathlib.Algebra.Order.Field.Basic
import Mathlib.Tactic.Linarith
import Mathlib.Tactic.Ring

/-!
# Lib.Bucket — token buckets

Tokens come into a bucket at a constant rate, up to a capacity, and are taken out. A time before
the last refill brings none and takes none away.

`Bucket.granted_mul_add_le` is the bound on what is taken out: whatever the times are, at most what
was in the bucket and what came in since.
-/

/-- The tokens in a bucket and the time of the last refill. -/
structure Bucket (K : Type*) where
  tokens : K
  last : K

namespace Bucket

variable {K : Type*} [Field K] [LinearOrder K]

/-- The bucket at a time. -/
def refill (rate capacity now : K) (b : Bucket K) : Bucket K :=
  if b.last < now then ⟨min (b.tokens + (now - b.last) * rate) capacity, now⟩ else b

/-- Take `n` tokens at a time, if they are there. -/
def take (rate capacity n now : K) (b : Bucket K) : Bool × Bucket K :=
  let b := b.refill rate capacity now
  if n ≤ b.tokens then (true, { b with tokens := b.tokens - n }) else (false, b)

/-- The bucket after taking `n` tokens at each of the times. -/
def after (rate capacity n : K) (times : List K) (b : Bucket K) : Bucket K :=
  times.foldl (fun b now => (b.take rate capacity n now).2) b

/-- How often the tokens were there. -/
def granted (rate capacity n : K) : List K → Bucket K → Nat
  | [], _ => 0
  | now :: times, b =>
    (if (b.take rate capacity n now).1 then 1 else 0) +
      granted rate capacity n times (b.take rate capacity n now).2

/-- The tokens are between none and the capacity. -/
def Within (capacity : K) (b : Bucket K) : Prop := 0 ≤ b.tokens ∧ b.tokens ≤ capacity

variable {rate capacity n now : K} {b : Bucket K}

/-- The last refill is at the latest time. -/
theorem last_refill : (b.refill rate capacity now).last = max b.last now := by
  unfold refill
  split
  · rename_i h
    exact (max_eq_right h.le).symm
  · rename_i h
    exact (max_eq_left (not_lt.1 h)).symm

theorem last_take : (b.take rate capacity n now).2.last = max b.last now := by
  unfold take
  dsimp only
  split
  · exact last_refill
  · exact last_refill

/-- The tokens are there once what was missing has come in. The capacity must be enough for them. -/
theorem take_iff (hcapacity : n ≤ capacity) (h : b.last < now) :
    (b.take rate capacity n now).1 = true ↔ n ≤ b.tokens + (now - b.last) * rate := by
  have hrefill : (b.refill rate capacity now).tokens =
      min (b.tokens + (now - b.last) * rate) capacity := by
    unfold refill
    rw [if_pos h]
  have henough : n ≤ (b.refill rate capacity now).tokens ↔
      n ≤ b.tokens + (now - b.last) * rate := by
    rw [hrefill, le_min_iff, and_iff_left hcapacity]
  rw [← henough]
  unfold take
  dsimp only
  split
  · rename_i hle
    exact iff_of_true rfl hle
  · rename_i hle
    exact iff_of_false Bool.false_ne_true hle

theorem last_after (times : List K) :
    (b.after rate capacity n times).last = times.foldl max b.last := by
  induction times generalizing b with
  | nil => rfl
  | cons now times ih =>
    show ((b.take rate capacity n now).2.after rate capacity n times).last = _
    rw [ih, last_take, List.foldl_cons]

variable (rate capacity now b) in
/-- What comes in is the rate times the time that has passed, or less. -/
theorem tokens_refill_le : (b.refill rate capacity now).tokens ≤
    b.tokens + rate * ((b.refill rate capacity now).last - b.last) := by
  unfold refill
  split
  · show min (b.tokens + (now - b.last) * rate) capacity ≤ b.tokens + rate * (now - b.last)
    rw [mul_comm rate]
    exact min_le_left _ _
  · rw [sub_self, mul_zero, add_zero]

variable (rate capacity n now b) in
theorem tokens_take_le :
    (if (b.take rate capacity n now).1 then 1 else 0 : Nat) * n +
        (b.take rate capacity n now).2.tokens ≤
      b.tokens + rate * ((b.take rate capacity n now).2.last - b.last) := by
  have hrefill := tokens_refill_le rate capacity now b
  unfold take
  dsimp only
  split
  · rw [if_pos rfl, Nat.cast_one, one_mul, add_sub_cancel]
    exact hrefill
  · rw [if_neg Bool.false_ne_true, Nat.cast_zero, zero_mul, zero_add]
    exact hrefill

variable [IsStrictOrderedRing K]

theorem within_refill (now : K) (hrate : 0 ≤ rate) (h : b.Within capacity) :
    (b.refill rate capacity now).Within capacity := by
  unfold refill
  split
  · rename_i hlt
    have hnew : 0 ≤ (now - b.last) * rate := mul_nonneg (sub_nonneg.2 hlt.le) hrate
    constructor
    · exact le_min (add_nonneg h.1 hnew) (h.1.trans h.2)
    · exact min_le_right _ _
  · exact h

theorem within_take (hrate : 0 ≤ rate) (hn : 0 ≤ n) (h : b.Within capacity) :
    (b.take rate capacity n now).2.Within capacity := by
  have hrefill := within_refill now hrate h
  unfold take
  dsimp only
  split
  · rename_i hle
    constructor
    · exact sub_nonneg.2 hle
    · exact (sub_le_self _ hn).trans hrefill.2
  · exact hrefill

theorem within_after (hrate : 0 ≤ rate) (hn : 0 ≤ n) (times : List K) (h : b.Within capacity) :
    (b.after rate capacity n times).Within capacity := by
  induction times generalizing b with
  | nil => exact h
  | cons now times ih => exact ih (within_take hrate hn h)

variable (rate capacity n) in
/-- What is taken out, with what is left, is at most what was there and what came in. -/
theorem granted_mul_add_le (times : List K) (b : Bucket K) :
    granted rate capacity n times b * n + (b.after rate capacity n times).tokens ≤
      b.tokens + rate * ((b.after rate capacity n times).last - b.last) := by
  induction times generalizing b with
  | nil =>
    show ((0 : Nat) : K) * n + b.tokens ≤ b.tokens + rate * (b.last - b.last)
    rw [Nat.cast_zero, zero_mul, zero_add, sub_self, mul_zero, add_zero]
  | cons now times ih =>
    have hstep := tokens_take_le rate capacity n now b
    have hrest := ih (b.take rate capacity n now).2
    show ((_ + granted rate capacity n times (b.take rate capacity n now).2 : Nat) : K) * n +
        ((b.take rate capacity n now).2.after rate capacity n times).tokens ≤
      b.tokens + rate * (((b.take rate capacity n now).2.after rate capacity n times).last - b.last)
    rw [Nat.cast_add]
    linarith

end Bucket
