import HierKvGateway.Core.Error

/-!
# Connector.RetryPolicy — the delay between two attempts

`RetryPolicy::backoff` (`resilience.rs`) doubles the base delay with every attempt, up to a
maximum. It computes in 64 bits: a shift by 64 or more and a product that is too large both give
the largest number.

`backoff_exact`: the result is the one over the unbounded integers. The largest number is never
below the maximum, so the cap hides where the computation stopped.
-/

namespace HierKvGateway

/-- The largest `u64`. -/
def u64Max : BitVec 64 := BitVec.allOnes 64

/-- `u64::checked_shl`: only the amount of the shift is checked. -/
def checkedShl (x : BitVec 64) (amount : BitVec 32) : Option (BitVec 64) :=
  if amount.toNat < 64 then some (x <<< amount.toNat) else none

/-- `u64::saturating_mul`. -/
def saturatingMul (a b : BitVec 64) : BitVec 64 :=
  if a.toNat * b.toNat < 2 ^ 64 then a * b else u64Max

/-- `Duration::as_millis` as a `u64`. -/
def Duration.asMillisU64 (d : Duration) : BitVec 64 := BitVec.ofNat 64 d.asMillis

/-- Exponential backoff with an upper bound. -/
structure RetryPolicy where
  base : Duration
  max : Duration

namespace RetryPolicy

def new (base max : Duration) : RetryPolicy := ⟨base, max⟩

/-- The delay after the attempt with this index, which has failed. -/
def backoff (policy : RetryPolicy) (attempt : BitVec 32) : Duration :=
  let factor := (checkedShl 1 attempt).getD u64Max
  let baseMs := policy.base.asMillisU64
  let delayMs := saturatingMul baseMs factor
  let maxMs := policy.max.asMillisU64
  let capped := if delayMs ≤ maxMs then delayMs else maxMs
  .fromMillis capped

/-- The policy of the default configuration: 50 and 1000 milliseconds. -/
def default : RetryPolicy := new (.fromMillis 50) (.fromMillis 1000)

/-! ## Arithmetic -/

theorem asMillis_fromMillis (ms : BitVec 64) : (Duration.fromMillis ms).asMillis = ms.toNat := by
  unfold Duration.fromMillis Duration.asMillis
  dsimp only
  omega

theorem asMillisU64_fromMillis (ms : BitVec 64) : (Duration.fromMillis ms).asMillisU64 = ms := by
  rw [Duration.asMillisU64, asMillis_fromMillis, BitVec.ofNat_toNat, BitVec.setWidth_eq]

theorem toNat_saturatingMul (a b : BitVec 64) :
    (saturatingMul a b).toNat = min (a.toNat * b.toNat) (2 ^ 64 - 1) := by
  unfold saturatingMul
  split
  · rename_i hlt
    rw [BitVec.toNat_mul, Nat.mod_eq_of_lt hlt]
    omega
  · rename_i hge
    rw [u64Max, BitVec.toNat_allOnes]
    omega

/-- The factor is a power of two as long as that is a `u64`, then the largest one. -/
theorem toNat_factor (attempt : BitVec 32) :
    ((checkedShl 1 attempt).getD u64Max).toNat = min (2 ^ attempt.toNat) (2 ^ 64 - 1) := by
  unfold checkedShl
  split
  · rename_i hlt
    have hpow : 2 ^ attempt.toNat < 2 ^ 64 := Nat.pow_lt_pow_right (by decide) hlt
    have hshift : ((1 : BitVec 64) <<< attempt.toNat).toNat = 2 ^ attempt.toNat := by
      rw [BitVec.toNat_shiftLeft, Nat.shiftLeft_eq]
      show 1 * 2 ^ attempt.toNat % 2 ^ 64 = _
      rw [Nat.one_mul, Nat.mod_eq_of_lt hpow]
    rw [Option.getD_some, hshift]
    omega
  · rename_i hge
    have hpow : 2 ^ 64 ≤ 2 ^ attempt.toNat :=
      Nat.pow_le_pow_right (by decide) (Nat.le_of_not_lt hge)
    rw [Option.getD_none, u64Max, BitVec.toNat_allOnes]
    omega

/-- Saturating the factor and the product does not show below a cap that is not above the bound. -/
theorem min_saturated {bound cap : Nat} (hcap : cap ≤ bound) (base factor : Nat) :
    min (min (base * min factor bound) bound) cap = min (base * factor) cap := by
  rcases Nat.le_total factor bound with hfactor | hfactor
  · rw [Nat.min_eq_left hfactor]
    omega
  · rw [Nat.min_eq_right hfactor]
    rcases Nat.eq_zero_or_pos base with rfl | hbase
    · rw [Nat.zero_mul, Nat.zero_mul]
      omega
    · -- both products reach the bound
      have hbound : bound ≤ base * bound := Nat.le_mul_of_pos_left bound hbase
      have hexact : bound ≤ base * factor :=
        Nat.le_trans hbound (Nat.mul_le_mul_left base hfactor)
      omega

/-! ## The delay -/

theorem asMillis_backoff (base max : BitVec 64) (attempt : BitVec 32) :
    ((new (.fromMillis base) (.fromMillis max)).backoff attempt).asMillis =
      min (base.toNat * 2 ^ attempt.toNat) max.toNat := by
  have hcap : max.toNat ≤ 2 ^ 64 - 1 := Nat.le_sub_one_of_lt max.isLt
  rw [← min_saturated hcap, ← toNat_factor, ← toNat_saturatingMul]
  unfold backoff new
  dsimp only
  rw [asMillis_fromMillis, asMillisU64_fromMillis, asMillisU64_fromMillis]
  split
  · rename_i hle
    rw [Nat.min_eq_left (BitVec.le_def.1 hle)]
  · rename_i hgt
    rw [Nat.min_eq_right (Nat.le_of_not_le (mt BitVec.le_def.2 hgt))]

/-- For every base, every maximum and every attempt. -/
theorem backoff_exact (base max : BitVec 64) (attempt : BitVec 32) :
    let policy := new (.fromMillis base) (.fromMillis max)
    (policy.backoff attempt).asMillis = min (base.toNat * 2 ^ attempt.toNat) max.toNat ∧
    policy.backoff attempt =
      .fromMillis (BitVec.ofNat 64 (min (base.toNat * 2 ^ attempt.toNat) max.toNat)) ∧
    (policy.backoff attempt).asMillis ≤ max.toNat ∧
    ∀ later, attempt ≤ later →
      (policy.backoff attempt).asMillis ≤ (policy.backoff later).asMillis := by
  intro policy
  have hexact := asMillis_backoff base max
  refine ⟨hexact attempt, ?_, ?_, ?_⟩
  · rw [← hexact]
    exact congrArg Duration.fromMillis (asMillisU64_fromMillis _).symm
  · rw [hexact]
    exact Nat.min_le_right _ _
  · intro later hle
    have hpow : 2 ^ attempt.toNat ≤ 2 ^ later.toNat :=
      Nat.pow_le_pow_right (by decide) (BitVec.le_def.1 hle)
    have hmul : base.toNat * 2 ^ attempt.toNat ≤ base.toNat * 2 ^ later.toNat :=
      Nat.mul_le_mul_left _ hpow
    rw [hexact, hexact]
    omega

/-- At the shift that is no longer one: attempt 64 waits as long as the maximum allows. -/
theorem backoff_exact_sixtyFour :
    ((new (.fromMillis 50) (.fromMillis 1000)).backoff 63).asMillis ≤
      ((new (.fromMillis 50) (.fromMillis 1000)).backoff 64).asMillis :=
  (backoff_exact 50 1000 63).2.2.2 64 (by decide)

example : (List.range 7).map (fun k => (default.backoff (BitVec.ofNat 32 k)).asMillis) =
    [50, 100, 200, 400, 800, 1000, 1000] := by decide

end RetryPolicy

end HierKvGateway
