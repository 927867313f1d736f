import Mathlib.Data.BitVec
import Mathlib.Tactic.FinCases
import Mathlib.Tactic.Abel
import HierKvGateway.Core.KvEvent
import HierKvGateway.Lib.Cuckoo

/-!
# Metadata.CuckooFilter — packed buckets and partial-key addressing

The stateless primitives of `cuckoo_filter.rs`: a `u64` packs four 16-bit
fingerprints, slot 0 in the low bits, and the value 0 marks an empty slot. The
second half of the file reads a packed bucket as the multiset `fps` of its
non-empty slots, which is what the rest of the development reasons about:
`try_insert`, `try_delete` and an eviction are one-element updates of it, and
the SWAR test `bucket_contains` decides membership.
-/

namespace HierKvGateway

/-- Number of fingerprints per bucket. -/
abbrev fpPerBucket : Nat := 4

/-- Fingerprint width in bits. -/
abbrev fingerprintBits : Nat := 16

/-- Maximum number of evictions per insertion. -/
abbrev maxKicks : Nat := 500

/-- Number of buckets per lane. -/
abbrev bucketsPerLane : Nat := 65536

/-- Bitmask corresponding to the bucket count. -/
abbrev bucketMask : Nat := bucketsPerLane - 1

/-- Fingerprint; 0 is the "empty slot" sentinel. -/
abbrev Fp := BitVec 16

/-- Four fingerprints packed in a `u64`. -/
abbrev PackedBucket := BitVec 64

/-- Index of a bucket within a lane. -/
abbrev BucketIdx := Fin bucketsPerLane

/-- Slot of a packed bucket. -/
abbrev Slot := Fin fpPerBucket

/-- The buckets of one lane. -/
abbrev Lane := BucketIdx → PackedBucket

/-- `xxh3_64_with_seed` of the third-party `xxhash_rust` package: the hashed
bytes and the seed. The development is parametric in it. -/
abbrev Xxh3 := List (BitVec 8) → BitVec 64 → BitVec 64

/-- `to_le_bytes` of an `n`-byte word. -/
def toLeBytes (n : Nat) {w : Nat} (x : BitVec w) : List (BitVec 8) :=
  (List.range n).map fun k => (x >>> (8 * k)).setWidth 8

/-- Mixing constant of `alt_index`. -/
def altMixDomain : BitVec 64 := 0x9E3779B97F4A7C15#64

theorem and_bucketMask_lt (n : Nat) : n &&& bucketMask < bucketsPerLane :=
  Nat.lt_of_le_of_lt Nat.and_le_right (by decide)

/-- The distance between the two candidate buckets of a fingerprint; a zero
hash is replaced by 1 so that the two buckets never coincide. -/
def altDelta (H : Xxh3) (fp : Fp) : Nat :=
  let mixed := H (toLeBytes 2 fp) altMixDomain
  let delta := mixed.toNat &&& bucketMask
  if delta = 0 then 1 else delta

/-- The alternate bucket index of a fingerprint. -/
def altIndex (H : Xxh3) (idx : BucketIdx) (fp : Fp) : BucketIdx :=
  ⟨(idx.val ^^^ altDelta H fp) &&& bucketMask, and_bucketMask_lt _⟩

/-- The fingerprint and primary bucket index of a block hash. -/
def probe (H : Xxh3) (hash : BlockHash) : Fp × BucketIdx :=
  let mixed := H (toLeBytes 8 hash) 0
  let fp : Fp := mixed.setWidth 16 ||| 1
  (fp, ⟨(mixed >>> 16).toNat &&& bucketMask, and_bucketMask_lt _⟩)

/-- The fingerprint in the specified slot of the bucket. -/
def slot (bucket : PackedBucket) (slotIdx : Slot) : Fp :=
  (bucket >>> (slotIdx.val * fingerprintBits)).setWidth 16

/-- Write the fingerprint into the specified slot. -/
def withSlot (bucket : PackedBucket) (slotIdx : Slot) (fp : Fp) : PackedBucket :=
  let shift := slotIdx.val * fingerprintBits
  let mask : BitVec 64 := 0xFFFF#64 <<< shift
  (bucket &&& ~~~mask) ||| (fp.setWidth 64 <<< shift)

/-- Whether the bucket contains the fingerprint, all four slots at once. -/
def bucketContains (bucket : PackedBucket) (fp : Fp) : Bool :=
  let repeated := fp.setWidth 64 * 0x0001000100010001#64
  let different := bucket ^^^ repeated
  let highBits := 0x8000800080008000#64
  (different - 0x0001000100010001#64) &&& ~~~different &&& highBits != 0

/-- The first slot equal to `fp`. -/
def firstMatch (bucket : PackedBucket) (fp : Fp) : Option Slot :=
  (List.finRange fpPerBucket).find? fun i => slot bucket i == fp

/-- The first empty slot. -/
def firstEmpty (bucket : PackedBucket) : Option Slot :=
  (List.finRange fpPerBucket).find? fun i => slot bucket i == 0#16

/-- Write `fp` into an empty slot; `false` if the bucket is full. -/
def tryInsert (bucket : PackedBucket) (fp : Fp) : PackedBucket × Bool :=
  match firstEmpty bucket with
  | some i => (withSlot bucket i fp, true)
  | none => (bucket, false)

/-- Zero a slot equal to `fp`; `false` if there is none. -/
def tryDelete (bucket : PackedBucket) (fp : Fp) : PackedBucket × Bool :=
  match firstMatch bucket fp with
  | some i => (withSlot bucket i 0#16, true)
  | none => (bucket, false)

/-- A full snapshot: the value of every bucket in index order. -/
structure CkfSnapshot where
  sequence : BitVec 64
  buckets : List PackedBucket

/-- A delta: the buckets changed since `prevSequence`. -/
structure CkfDelta where
  sequence : BitVec 64
  prevSequence : BitVec 64
  buckets : List (Nat × PackedBucket)

/-! ## Addressing -/

theorem altDelta_pos (H : Xxh3) (fp : Fp) : 0 < altDelta H fp := by
  simp only [altDelta]
  split <;> omega

theorem altDelta_lt (H : Xxh3) (fp : Fp) : altDelta H fp < bucketsPerLane := by
  simp only [altDelta]
  split
  · decide
  · exact and_bucketMask_lt _

theorem altIndex_val (H : Xxh3) (idx : BucketIdx) (fp : Fp) :
    (altIndex H idx fp).val = idx.val ^^^ altDelta H fp := by
  have hlt : idx.val ^^^ altDelta H fp < 2 ^ 16 :=
    Nat.xor_lt_two_pow idx.isLt (altDelta_lt H fp)
  show (idx.val ^^^ altDelta H fp) &&& (2 ^ 16 - 1) = _
  rw [Nat.and_two_pow_sub_one_eq_mod, Nat.mod_eq_of_lt hlt]

theorem altIndex_altIndex (H : Xxh3) (idx : BucketIdx) (fp : Fp) :
    altIndex H (altIndex H idx fp) fp = idx := by
  apply Fin.ext
  rw [altIndex_val, altIndex_val, Nat.xor_assoc, Nat.xor_self, Nat.xor_zero]

theorem altIndex_ne (H : Xxh3) (idx : BucketIdx) (fp : Fp) : altIndex H idx fp ≠ idx := by
  intro heq
  have hval := congrArg Fin.val heq
  rw [altIndex_val] at hval
  have hzero : altDelta H fp = 0 := by
    have := congrArg (idx.val ^^^ ·) hval
    simpa [← Nat.xor_assoc] using this
  exact absurd hzero (altDelta_pos H fp).ne'

/-- The addressing scheme of the filter. -/
def addressing (H : Xxh3) : Cuckoo.Addressing BucketIdx Fp where
  alt := altIndex H
  alt_alt := altIndex_altIndex H
  alt_ne := altIndex_ne H

@[simp] theorem addressing_alt (H : Xxh3) : (addressing H).alt = altIndex H := rfl

/-- The lowest bit of a fingerprint is set, so it is never the empty sentinel. -/
theorem probe_fp_ne_zero (H : Xxh3) (hash : BlockHash) : (probe H hash).1 ≠ 0#16 := by
  intro h0
  have hbit := congrArg (fun x : Fp => x.getLsbD 0) h0
  simp [probe] at hbit

/-! ## Slots of a packed bucket -/

theorem getLsbD_slot (b : PackedBucket) (i : Slot) (k : Nat) (hk : k < 16) :
    (slot b i).getLsbD k = b.getLsbD (i.val * 16 + k) := by
  simp [slot, hk]

private theorem getLsbD_mask (m : Nat) : (0xFFFF#64).getLsbD m = decide (m < 16) := by
  have hones : 0xFFFF#64 = (BitVec.allOnes 16).setWidth 64 := by decide
  rw [hones, BitVec.getLsbD_setWidth, BitVec.getLsbD_allOnes]
  grind

/-- The bits of a written bucket: the slot's sixteen come from `fp`, the others
are untouched. -/
theorem getLsbD_withSlot (b : PackedBucket) (i : Slot) (fp : Fp) (m : Nat) (hm : m < 64) :
    (withSlot b i fp).getLsbD m =
      if i.val * 16 ≤ m ∧ m < i.val * 16 + 16 then fp.getLsbD (m - i.val * 16)
      else b.getLsbD m := by
  have hfp : ∀ k, 16 ≤ k → fp.getLsbD k = false := fun k hk => BitVec.getLsbD_of_ge _ _ hk
  simp only [withSlot, BitVec.getLsbD_or, BitVec.getLsbD_and, BitVec.getLsbD_not,
    BitVec.getLsbD_shiftLeft, BitVec.getLsbD_setWidth, getLsbD_mask, fingerprintBits]
  grind

theorem slot_withSlot (b : PackedBucket) (i j : Slot) (fp : Fp) :
    slot (withSlot b i fp) j = if j = i then fp else slot b j := by
  apply BitVec.eq_of_getLsbD_eq
  intro k hk
  have hj : j.val < 4 := j.isLt
  rw [getLsbD_slot _ _ _ hk, getLsbD_withSlot _ _ _ _ (by omega)]
  by_cases hji : j = i
  · subst hji
    have hin : j.val * 16 ≤ j.val * 16 + k ∧ j.val * 16 + k < j.val * 16 + 16 := by omega
    rw [if_pos hin, if_pos rfl, Nat.add_sub_cancel_left]
  · have hne : j.val ≠ i.val := fun h => hji (Fin.ext h)
    have hout : ¬ (i.val * 16 ≤ j.val * 16 + k ∧ j.val * 16 + k < i.val * 16 + 16) := by omega
    rw [if_neg hout, if_neg hji, getLsbD_slot _ _ _ hk]

theorem firstMatch_eq_some {b : PackedBucket} {fp : Fp} {i : Slot}
    (h : firstMatch b fp = some i) : slot b i = fp := by
  have := List.find?_some h
  simpa using this

theorem firstMatch_eq_none {b : PackedBucket} {fp : Fp} :
    firstMatch b fp = none ↔ ∀ i, slot b i ≠ fp := by
  simp [firstMatch, List.find?_eq_none, List.mem_finRange]

/-! ## The SWAR membership test

`bucket_contains` xors the bucket with four copies of the fingerprint and tests
whether some 16-bit lane of the result is zero. The test subtracts 1 from every
lane at once; borrows only start at a zero lane, so the lowest zero lane is
always seen, and without a zero lane there is no borrow and nothing is seen. -/

theorem toNat_slot (b : PackedBucket) (i : Slot) :
    (slot b i).toNat = b.toNat / 2 ^ (i.val * 16) % 65536 := by
  simp [slot, Nat.shiftRight_eq_div_pow]

theorem slot_xor (x y : PackedBucket) (i : Slot) :
    slot (x ^^^ y) i = slot x i ^^^ slot y i := by
  apply BitVec.eq_of_getLsbD_eq
  intro k hk
  rw [BitVec.getLsbD_xor, getLsbD_slot _ _ _ hk, getLsbD_slot _ _ _ hk, getLsbD_slot _ _ _ hk,
    BitVec.getLsbD_xor]

/-- Multiplying by `0x0001000100010001` copies the fingerprint into every slot. -/
theorem slot_repeated (fp : Fp) (i : Slot) :
    slot (fp.setWidth 64 * 0x0001000100010001#64) i = fp := by
  have hfp : fp.toNat < 65536 := fp.isLt
  apply BitVec.eq_of_toNat_eq
  have hmul : (fp.setWidth 64 * 0x0001000100010001#64).toNat =
      fp.toNat * 0x0001000100010001 := by
    rw [BitVec.toNat_mul, BitVec.toNat_setWidth, BitVec.toNat_ofNat]
    omega
  have h1 : fp.toNat * 0x0001000100010001 / 65536 = fp.toNat * 0x100010001 := by omega
  have h2 : fp.toNat * 0x0001000100010001 / 4294967296 = fp.toNat * 0x10001 := by omega
  have h3 : fp.toNat * 0x0001000100010001 / 281474976710656 = fp.toNat := by omega
  rw [toNat_slot, hmul]
  fin_cases i <;> simp [h1, h2, h3] <;> omega

/-- The lane arithmetic behind the test, over the integers. -/
private theorem zero_lane_nat (a b c d : Nat) (ha : a < 65536) (hb : b < 65536)
    (hc : c < 65536) (hd : d < 65536) {X Y : Nat}
    (hX : X = a + 65536 * b + 65536 ^ 2 * c + 65536 ^ 3 * d)
    (hY : Y = (2 ^ 64 - 0x0001000100010001 + X) % 2 ^ 64) :
    ((Y / 2 ^ 15 % 2 = 1 ∧ X / 2 ^ 15 % 2 = 0) ∨ (Y / 2 ^ 31 % 2 = 1 ∧ X / 2 ^ 31 % 2 = 0) ∨
      (Y / 2 ^ 47 % 2 = 1 ∧ X / 2 ^ 47 % 2 = 0) ∨ (Y / 2 ^ 63 % 2 = 1 ∧ X / 2 ^ 63 % 2 = 0)) ↔
    (a = 0 ∨ b = 0 ∨ c = 0 ∨ d = 0) := by
  constructor
  · intro h
    by_contra hcon
    push Not at hcon
    -- no zero lane: every lane is decremented on its own
    have hlanes : Y = (a - 1) + 65536 * (b - 1) + 65536 ^ 2 * (c - 1) + 65536 ^ 3 * (d - 1) := by
      omega
    rw [hlanes] at h
    omega
  · intro h
    -- the lowest zero lane receives no borrow and turns into 0xFFFF
    by_cases h0 : a = 0
    · left; omega
    by_cases h1 : b = 0
    · right; left; omega
    by_cases h2 : c = 0
    · right; right; left; omega
    have h3 : d = 0 := by omega
    right; right; right; omega

private theorem highBits_getLsbD (k : Nat) (hk : k < 64) :
    (0x8000800080008000#64).getLsbD k = true ↔ k = 15 ∨ k = 31 ∨ k = 47 ∨ k = 63 := by
  revert k
  decide

/-- The zero-lane test sees exactly the empty slots of a word. -/
theorem zeroLane_iff (x : PackedBucket) :
    ((x - 0x0001000100010001#64) &&& ~~~x &&& 0x8000800080008000#64 != 0) = true ↔
      ∃ i, slot x i = 0#16 := by
  -- the test as a statement about the four high bits
  have hbits : ((x - 0x0001000100010001#64) &&& ~~~x &&& 0x8000800080008000#64 != 0) = true ↔
      ∃ k < 64, (0x8000800080008000#64).getLsbD k = true ∧
        (x - 0x0001000100010001#64).getLsbD k = true ∧ x.getLsbD k = false := by
    rw [bne_iff_ne, Ne, BitVec.eq_of_getLsbD_eq_iff]
    push Not
    refine exists_congr fun k => and_congr_right fun hk => ?_
    simp [hk]
    tauto
  -- the slots as digits in base 65536
  have hslots : (∃ i, slot x i = 0#16) ↔
      x.toNat % 65536 = 0 ∨ x.toNat / 65536 % 65536 = 0 ∨ x.toNat / 65536 ^ 2 % 65536 = 0 ∨
        x.toNat / 65536 ^ 3 % 65536 = 0 := by
    simp only [← BitVec.toNat_inj, toNat_slot, Fin.exists_fin_succ]
    simp [fpPerBucket]
  have hlt := x.isLt
  rw [hbits, hslots, ← zero_lane_nat (X := x.toNat)
    (Y := (x - 0x0001000100010001#64).toNat) _ _ _ _ (by omega) (by omega) (by omega)
    (by omega) (by omega) (by rw [BitVec.toNat_sub]; rfl)]
  simp only [BitVec.getLsbD, Nat.testBit_eq_decide_div_mod_eq (x := (x - _).toNat),
    Nat.testBit_eq_decide_div_mod_eq (x := x.toNat), decide_eq_true_eq, decide_eq_false_iff_not]
  constructor
  · rintro ⟨k, hk, hhigh, h1, h2⟩
    rcases (highBits_getLsbD k hk).1 hhigh with rfl | rfl | rfl | rfl
    · left; omega
    · right; left; omega
    · right; right; left; omega
    · right; right; right; omega
  · rintro (⟨h1, h2⟩ | ⟨h1, h2⟩ | ⟨h1, h2⟩ | ⟨h1, h2⟩)
    · exact ⟨15, by omega, by decide, h1, by omega⟩
    · exact ⟨31, by omega, by decide, h1, by omega⟩
    · exact ⟨47, by omega, by decide, h1, by omega⟩
    · exact ⟨63, by omega, by decide, h1, by omega⟩

/-- `bucket_contains` is slot-wise membership. -/
theorem bucketContains_iff_slot (b : PackedBucket) (fp : Fp) :
    bucketContains b fp = true ↔ ∃ i, slot b i = fp := by
  unfold bucketContains
  rw [zeroLane_iff]
  refine exists_congr fun i => ?_
  rw [slot_xor, slot_repeated]
  exact BitVec.xor_eq_zero_iff

/-! ## A bucket as a multiset of fingerprints -/

/-- The fingerprint of one slot, or nothing if the slot is empty. -/
def occupant (fp : Fp) : Multiset Fp := if fp = 0#16 then 0 else {fp}

/-- The fingerprints stored in a bucket. -/
def fps (b : PackedBucket) : Multiset Fp := ∑ i : Slot, occupant (slot b i)

@[simp] theorem occupant_zero : occupant 0#16 = 0 := rfl

theorem occupant_of_ne {fp : Fp} (h : fp ≠ 0#16) : occupant fp = {fp} := if_neg h

theorem mem_fps {b : PackedBucket} {fp : Fp} : fp ∈ fps b ↔ fp ≠ 0#16 ∧ ∃ i, slot b i = fp := by
  rw [fps, Multiset.mem_sum]
  constructor
  · rintro ⟨i, _, hi⟩
    by_cases h0 : slot b i = 0#16
    · simp [h0] at hi
    · rw [occupant_of_ne h0, Multiset.mem_singleton] at hi
      exact ⟨hi ▸ h0, i, hi.symm⟩
  · rintro ⟨h0, i, rfl⟩
    exact ⟨i, Finset.mem_univ i, by rw [occupant_of_ne h0]; exact Multiset.mem_singleton_self _⟩

@[simp] theorem fps_zero : fps 0 = 0 := by decide

/-- Writing a slot exchanges its old occupant for the new one. -/
theorem fps_withSlot (b : PackedBucket) (i : Slot) (fp : Fp) :
    fps (withSlot b i fp) + occupant (slot b i) = fps b + occupant fp := by
  have h1 := Finset.add_sum_erase Finset.univ
    (fun j => occupant (slot (withSlot b i fp) j)) (Finset.mem_univ i)
  have h2 := Finset.add_sum_erase Finset.univ (fun j => occupant (slot b j)) (Finset.mem_univ i)
  have hrest : ∑ j ∈ Finset.univ.erase i, occupant (slot (withSlot b i fp) j) =
      ∑ j ∈ Finset.univ.erase i, occupant (slot b j) :=
    Finset.sum_congr rfl fun j hj => by
      rw [slot_withSlot, if_neg (Finset.ne_of_mem_erase hj)]
  have hi : slot (withSlot b i fp) i = fp := by rw [slot_withSlot, if_pos rfl]
  simp only [hi] at h1
  rw [fps, fps, ← h1, ← h2, hrest]
  abel

/-- The number of stored fingerprints is the number of non-zero slots. -/
theorem card_fps (b : PackedBucket) :
    (fps b).card = (Finset.univ.filter fun i : Slot => slot b i ≠ 0#16).card := by
  rw [fps, Multiset.card_sum, Finset.card_filter]
  refine Finset.sum_congr rfl fun i _ => ?_
  by_cases h0 : slot b i = 0#16
  · simp [h0]
  · rw [occupant_of_ne h0, if_pos h0, Multiset.card_singleton]

/-- `bucket_contains` decides whether the bucket stores the fingerprint. -/
theorem bucketContains_iff {b : PackedBucket} {fp : Fp} (hfp : fp ≠ 0#16) :
    bucketContains b fp = true ↔ fp ∈ fps b := by
  rw [bucketContains_iff_slot, mem_fps]
  exact (and_iff_right hfp).symm

/-! ## Insertion and deletion in one bucket -/

/-- A bucket is full when `try_insert` finds no empty slot in it. -/
def Full (b : PackedBucket) : Prop := firstEmpty b = none

instance (b : PackedBucket) : Decidable (Full b) := inferInstanceAs (Decidable (_ = _))

theorem full_iff {b : PackedBucket} : Full b ↔ ∀ i, slot b i ≠ 0#16 := firstMatch_eq_none

theorem tryInsert_snd (b : PackedBucket) (fp : Fp) :
    (tryInsert b fp).2 = true ↔ ¬ Full b := by
  unfold tryInsert Full
  cases firstEmpty b <;> simp

theorem tryInsert_of_full {b : PackedBucket} (h : Full b) (fp : Fp) :
    tryInsert b fp = (b, false) := by
  unfold tryInsert
  rw [show firstEmpty b = none from h]

/-- `try_insert` adds exactly its fingerprint. -/
theorem fps_tryInsert {b : PackedBucket} (h : ¬ Full b) {fp : Fp} (hfp : fp ≠ 0#16) :
    fps (tryInsert b fp).1 = fps b + {fp} := by
  unfold tryInsert
  cases hi : firstEmpty b with
  | none => exact absurd hi h
  | some i =>
    have h0 : slot b i = 0#16 := firstMatch_eq_some hi
    have := fps_withSlot b i fp
    rwa [h0, occupant_zero, add_zero, occupant_of_ne hfp] at this

theorem tryDelete_snd (b : PackedBucket) {fp : Fp} (hfp : fp ≠ 0#16) :
    (tryDelete b fp).2 = true ↔ fp ∈ fps b := by
  rw [mem_fps]
  unfold tryDelete
  cases hi : firstMatch b fp with
  | none =>
    simpa using fun _ => firstMatch_eq_none.1 hi
  | some i => simpa using ⟨hfp, i, firstMatch_eq_some hi⟩

theorem tryDelete_of_not_mem {b : PackedBucket} {fp : Fp} (hfp : fp ≠ 0#16) (h : fp ∉ fps b) :
    tryDelete b fp = (b, false) := by
  have hnone : firstMatch b fp = none := by
    rw [firstMatch_eq_none]
    intro i hi
    exact h (mem_fps.2 ⟨hfp, i, hi⟩)
  unfold tryDelete
  rw [hnone]

/-- `try_delete` takes out exactly one copy of its fingerprint. -/
theorem fps_tryDelete {b : PackedBucket} {fp : Fp} (h : fp ∈ fps b) :
    fps (tryDelete b fp).1 + {fp} = fps b := by
  have hfp := (mem_fps.1 h).1
  unfold tryDelete
  cases hi : firstMatch b fp with
  | none =>
    obtain ⟨_, j, hj⟩ := mem_fps.1 h
    exact absurd hj (firstMatch_eq_none.1 hi j)
  | some i =>
    have := fps_withSlot b i 0#16
    rwa [firstMatch_eq_some hi, occupant_zero, add_zero, occupant_of_ne hfp] at this

theorem firstMatch_isSome {b : PackedBucket} {fp : Fp} :
    (firstMatch b fp).isSome = true ↔ ∃ i, slot b i = fp := by
  rw [Option.isSome_iff_ne_none, Ne, firstMatch_eq_none]
  push Not
  rfl

/-- For all buckets and all fingerprints but the empty sentinel. -/
theorem packedBucket_exact (b : PackedBucket) {fp : Fp} (hfp : fp ≠ 0#16) :
    (bucketContains b fp = true ↔ ∃ i, slot b i = fp) ∧
    ((firstMatch b fp).isSome = true ↔ ∃ i, slot b i = fp) ∧
    (∀ i j new, slot (withSlot b i new) j = if j = i then new else slot b j) ∧
    ((tryInsert b fp).2 = true ↔ ∃ i, slot b i = 0#16) ∧
    (if (tryInsert b fp).2 then fps (tryInsert b fp).1 = fps b + {fp}
      else (tryInsert b fp).1 = b) ∧
    ((tryDelete b fp).2 = true ↔ bucketContains b fp = true) ∧
    (if (tryDelete b fp).2 then fps (tryDelete b fp).1 + {fp} = fps b
      else (tryDelete b fp).1 = b) := by
  refine ⟨bucketContains_iff_slot b fp, firstMatch_isSome, slot_withSlot b, ?_, ?_, ?_, ?_⟩
  · rw [tryInsert_snd, full_iff]
    push Not
    rfl
  · split
    · rename_i hroom
      exact fps_tryInsert ((tryInsert_snd b fp).1 hroom) hfp
    · rename_i hfull
      rw [tryInsert_of_full (not_not.1 (mt (tryInsert_snd b fp).2 hfull))]
  · rw [tryDelete_snd b hfp, bucketContains_iff hfp]
  · split
    · rename_i hfound
      exact fps_tryDelete ((tryDelete_snd b hfp).1 hfound)
    · rename_i hmissing
      rw [tryDelete_of_not_mem hfp (mt (tryDelete_snd b hfp).2 hmissing)]

/-- Taking the only fingerprint out of a bucket. -/
theorem packedBucket_exact_seven :
    bucketContains 7#64 7#16 = true ∧ fps (tryDelete 7#64 7#16).1 + {7#16} = fps 7#64 := by
  rcases packedBucket_exact 7#64 (show 7#16 ≠ 0#16 by decide) with
    ⟨hcontains, -, -, -, -, -, hdelete⟩
  rw [if_pos (by decide)] at hdelete
  exact ⟨hcontains.2 ⟨0, by decide⟩, hdelete⟩

/-! ## A lane as a cuckoo table -/

/-- The fingerprints of every bucket of a lane. -/
def table (lane : Lane) : Cuckoo.Table BucketIdx Fp := fun i => fps (lane i)

@[simp] theorem table_apply (lane : Lane) (i : BucketIdx) : table lane i = fps (lane i) := rfl

/-- Storing one bucket is one bucket update of the table. -/
theorem replaced_update {lane : Lane} {i : BucketIdx} {b : PackedBucket} {out into : Multiset Fp}
    (h : fps b + out = fps (lane i) + into) :
    Cuckoo.Replaced (table lane) (table (Function.update lane i b)) i out into where
  bucket := by simpa using h
  frame j hj := by simp [hj]

theorem replaced_tryInsert {lane : Lane} {i : BucketIdx} {fp : Fp} (h : ¬ Full (lane i))
    (hfp : fp ≠ 0#16) :
    Cuckoo.Replaced (table lane)
      (table (Function.update lane i (tryInsert (lane i) fp).1)) i 0 {fp} :=
  replaced_update (by rw [fps_tryInsert h hfp, add_zero])

theorem replaced_tryDelete {lane : Lane} {i : BucketIdx} {fp : Fp} (h : fp ∈ fps (lane i)) :
    Cuckoo.Replaced (table lane)
      (table (Function.update lane i (tryDelete (lane i) fp).1)) i {fp} 0 :=
  replaced_update (by rw [fps_tryDelete h, add_zero])

/-- Evicting an occupied slot. -/
theorem replaced_withSlot {lane : Lane} {i : BucketIdx} {k : Slot} {fp : Fp}
    (hk : slot (lane i) k ≠ 0#16) (hfp : fp ≠ 0#16) :
    Cuckoo.Replaced (table lane) (table (Function.update lane i (withSlot (lane i) k fp))) i
      {slot (lane i) k} {fp} :=
  replaced_update (by
    have := fps_withSlot (lane i) k fp
    rwa [occupant_of_ne hk, occupant_of_ne hfp] at this)

end HierKvGateway
