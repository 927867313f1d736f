import Mathlib.Algebra.GroupWithZero.Nat

/-!
# Lib.Saturating — counters of a fixed width

`saturating_add(1)` and `saturating_sub` on machine words. On a count that fits they do what
addition and truncated subtraction do on natural numbers.
-/

namespace Saturating

variable {w : ℕ}

/-- `saturating_add(1)`. -/
def succ (n : BitVec w) : BitVec w := if n = BitVec.allOnes w then n else n + 1

/-- `saturating_sub`. -/
def sub (n m : BitVec w) : BitVec w := if n.toNat ≤ m.toNat then 0 else n - m

theorem ofNat_succ {n : ℕ} (h : n + 1 < 2 ^ w) :
    BitVec.ofNat w (n + 1) = succ (BitVec.ofNat w n) := by
  have hne : BitVec.ofNat w n ≠ BitVec.allOnes w := by
    intro heq
    have hnat := congrArg BitVec.toNat heq
    rw [BitVec.toNat_ofNat, BitVec.toNat_allOnes, Nat.mod_eq_of_lt (by omega)] at hnat
    omega
  unfold succ
  rw [if_neg hne]
  exact BitVec.ofNat_add n 1

theorem ofNat_sub {n m : ℕ} (h : n < 2 ^ w) (hle : m ≤ n) :
    BitVec.ofNat w (n - m) = sub (BitVec.ofNat w n) (BitVec.ofNat w m) := by
  have hn : (BitVec.ofNat w n).toNat = n := by rw [BitVec.toNat_ofNat, Nat.mod_eq_of_lt h]
  have hm : (BitVec.ofNat w m).toNat = m := by
    rw [BitVec.toNat_ofNat, Nat.mod_eq_of_lt (by omega)]
  unfold sub
  rw [hn, hm]
  split
  · rw [Nat.sub_eq_zero_of_le ‹_›]
    rfl
  · exact (BitVec.ofNat_sub_ofNat_of_le n m (by omega) hle).symm

/-- A count that fits is found to be zero. -/
theorem ofNat_eq_zero_iff {n : ℕ} (h : n < 2 ^ w) : BitVec.ofNat w n = 0 ↔ n = 0 := by
  constructor
  · intro heq
    have hnat := congrArg BitVec.toNat heq
    rw [BitVec.toNat_ofNat, Nat.mod_eq_of_lt h] at hnat
    exact hnat
  · rintro rfl
    rfl

end Saturating
