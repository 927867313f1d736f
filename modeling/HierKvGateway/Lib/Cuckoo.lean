import Mathlib.Data.Multiset.Count
import Mathlib.Data.Multiset.AddSub
import Mathlib.Algebra.BigOperators.Group.Finset.Basic
import Mathlib.Algebra.BigOperators.Group.Finset.Piecewise
import Mathlib.Data.Fintype.BigOperators
import Mathlib.Data.Sym.Sym2

/-!
# Lib.Cuckoo — partial-key cuckoo tables

A cuckoo table stores fingerprints `φ` in buckets indexed by `ι`. With
partial-key addressing a fingerprint may sit in one of two buckets, and each of
them is computed from the other and the fingerprint alone, so the pair of
candidate buckets of a fingerprint never changes while it is kicked around.

Everything here is about multisets per bucket: no slot order, no packing. The
two quantities that matter are `held`, the number of copies of a fingerprint in
a candidate pair, and `size`, the number of stored fingerprints. `Replaced`
describes one bucket update, and `InHand` is the loop invariant of an eviction
chain: one fingerprint has been taken out and still has to be placed. `stored` is
everything a table holds, each fingerprint with its pair (`Inserted.stored`).
-/

namespace Cuckoo

/-- Partial-key addressing: for each fingerprint, `alt` exchanges the two
candidate buckets, which are always different. -/
structure Addressing (ι φ : Type*) where
  alt : ι → φ → ι
  alt_alt : ∀ i f, alt (alt i f) f = i
  alt_ne : ∀ i f, alt i f ≠ i

attribute [simp] Addressing.alt_alt Addressing.alt_ne

/-- The contents of every bucket. -/
abbrev Table (ι φ : Type*) := ι → Multiset φ

variable {ι φ : Type*}

namespace Addressing

variable (A : Addressing ι φ)

/-- `i` and `j` belong to the same candidate pair of the fingerprint `f`. -/
def SamePair (f : φ) (i j : ι) : Prop := j = i ∨ j = A.alt i f

instance [DecidableEq ι] (f : φ) (i j : ι) : Decidable (A.SamePair f i j) :=
  inferInstanceAs (Decidable (_ ∨ _))

variable {A} {f : φ} {i j k : ι}

@[simp] theorem samePair_refl : A.SamePair f i i := Or.inl rfl

@[simp] theorem samePair_alt : A.SamePair f i (A.alt i f) := Or.inr rfl

theorem SamePair.symm (h : A.SamePair f i j) : A.SamePair f j i := by
  rcases h with rfl | rfl
  · exact Or.inl rfl
  · exact Or.inr (A.alt_alt i f).symm

theorem SamePair.trans (hij : A.SamePair f i j) (hjk : A.SamePair f j k) :
    A.SamePair f i k := by
  rcases hij with rfl | rfl
  · exact hjk
  · rcases hjk with rfl | rfl
    · exact Or.inr rfl
    · exact Or.inl (A.alt_alt i f)

/-- Seen from the other bucket of the pair, the pair is the same. -/
theorem samePair_alt_left : A.SamePair f (A.alt i f) j ↔ A.SamePair f i j :=
  ⟨fun h => samePair_alt.trans h, fun h => samePair_alt.symm.trans h⟩

end Addressing

/-! ## Copies held by a candidate pair -/

variable [DecidableEq φ]

/-- The number of copies of `f` in the candidate pair of bucket `i`. -/
def held (A : Addressing ι φ) (T : Table ι φ) (i : ι) (f : φ) : ℕ :=
  (T i).count f + (T (A.alt i f)).count f

variable {A : Addressing ι φ} {T T' T₀ : Table ι φ} {i j : ι} {f g h : φ}

theorem held_pos : 0 < held A T i f ↔ f ∈ T i ∨ f ∈ T (A.alt i f) := by
  rw [held, Nat.add_pos_iff_pos_or_pos, Multiset.count_pos, Multiset.count_pos]

variable [DecidableEq ι]

/-- The contribution of one copy of `f`, stored in the pair of `i`, to
`held A T j h`. -/
def copy (A : Addressing ι φ) (i : ι) (f : φ) (j : ι) (h : φ) : ℕ :=
  if h = f ∧ A.SamePair f i j then 1 else 0

@[simp] theorem copy_self : copy A i f i f = 1 := by simp [copy]

theorem copy_alt : copy A (A.alt i f) f j h = copy A i f j h := by
  simp only [copy, Addressing.samePair_alt_left]

theorem copy_congr (hij : A.SamePair f i j) (k : ι) (h : φ) :
    copy A j f k h = copy A i f k h := by
  rcases hij with rfl | rfl
  · rfl
  · exact copy_alt

/-- Two different fingerprints, or two different pairs, do not count for each
other. -/
theorem copy_eq_zero (hne : ¬ (h = f ∧ A.SamePair f i j)) : copy A i f j h = 0 :=
  if_neg hne

/-! ## One bucket update -/

/-- `T'` is `T` with the fingerprints `out` taken from bucket `i` and `into`
added to it. -/
structure Replaced (T T' : Table ι φ) (i : ι) (out into : Multiset φ) : Prop where
  bucket : T' i + out = T i + into
  frame : ∀ j, j ≠ i → T' j = T j

omit [DecidableEq ι] in
theorem Replaced.count_bucket {out into : Multiset φ} (hr : Replaced T T' i out into)
    (h : φ) : (T' i).count h + out.count h = (T i).count h + into.count h := by
  have := congrArg (Multiset.count h) hr.bucket
  rwa [Multiset.count_add, Multiset.count_add] at this

/-- One bucket update changes `held` by the copies that left and entered. -/
theorem Replaced.held {out into : Multiset φ} (hr : Replaced T T' i out into) (j : ι) (h : φ) :
    held A T' j h + (if A.SamePair h i j then out.count h else 0) =
      held A T j h + (if A.SamePair h i j then into.count h else 0) := by
  have hcount := hr.count_bucket h
  unfold Cuckoo.held
  by_cases hji : j = i
  · -- the updated bucket is the first of the pair
    subst hji
    have halt : T' (A.alt j h) = T (A.alt j h) := hr.frame _ (A.alt_ne j h)
    rw [halt, if_pos Addressing.samePair_refl, if_pos Addressing.samePair_refl]
    omega
  · rw [hr.frame j hji]
    by_cases hai : A.alt j h = i
    · -- the updated bucket is the second of the pair
      have hpair : A.SamePair h i j := by
        subst hai
        exact Addressing.samePair_alt.symm
      rw [hai, if_pos hpair, if_pos hpair]
      omega
    · have hpair : ¬ A.SamePair h i j := by
        rintro (rfl | rfl)
        · exact hji rfl
        · exact hai (A.alt_alt i h)
      rw [hr.frame _ hai, if_neg hpair, if_neg hpair]

/-- A fingerprint that is not taken out of the updated bucket stays where it is. -/
theorem Replaced.mem {out into : Multiset φ} (hr : Replaced T T' i out into) {j : ι}
    (hmem : h ∈ T j) (hout : j = i → h ∉ out) : h ∈ T' j := by
  by_cases hji : j = i
  · subst hji
    have hc := hr.count_bucket h
    have h0 : out.count h = 0 := Multiset.count_eq_zero.2 (hout rfl)
    have h1 : 0 < (T j).count h := Multiset.count_pos.2 hmem
    exact Multiset.count_pos.1 (by omega)
  · rw [hr.frame j hji]
    exact hmem

/-! ## Number of stored fingerprints -/

section Size

variable [Fintype ι]

/-- The number of stored fingerprints. -/
def size (T : Table ι φ) : ℕ := ∑ i, (T i).card

omit [DecidableEq φ] in
theorem Replaced.size {out into : Multiset φ} (hr : Replaced T T' i out into) :
    size T' + out.card = size T + into.card := by
  have hcard := congrArg Multiset.card hr.bucket
  rw [Multiset.card_add, Multiset.card_add] at hcard
  have h1 := Finset.add_sum_erase Finset.univ (fun j => (T' j).card) (Finset.mem_univ i)
  have h2 := Finset.add_sum_erase Finset.univ (fun j => (T j).card) (Finset.mem_univ i)
  have hrest : ∑ j ∈ Finset.univ.erase i, (T' j).card = ∑ j ∈ Finset.univ.erase i, (T j).card :=
    Finset.sum_congr rfl fun j hj => by rw [hr.frame j (Finset.ne_of_mem_erase hj)]
  unfold Cuckoo.size
  omega

end Size

/-! ## Insertions, deletions and eviction chains -/

section Chain

variable [Fintype ι]

/-- `T'` holds exactly one more fingerprint than `T`: a copy of `f` in the pair
of `i`, wherever the copies have been moved to. -/
structure Inserted (A : Addressing ι φ) (T T' : Table ι φ) (i : ι) (f : φ) : Prop where
  held : ∀ j h, held A T' j h = held A T j h + copy A i f j h
  size : size T' = size T + 1

/-- `T'` holds exactly one fingerprint less than `T`: a copy of `f` from the
pair of `i`. -/
structure Deleted (A : Addressing ι φ) (T T' : Table ι φ) (i : ι) (f : φ) : Prop where
  held : ∀ j h, Cuckoo.held A T' j h + copy A i f j h = Cuckoo.held A T j h
  size : Cuckoo.size T' + 1 = Cuckoo.size T

/-- The invariant of an eviction chain that started from `T₀` to place `f` in
the pair of `i`: the table `T`, together with the fingerprint `g` in hand for
bucket `j`, accounts for everything. -/
structure InHand (A : Addressing ι φ) (T₀ : Table ι φ) (i : ι) (f : φ)
    (T : Table ι φ) (j : ι) (g : φ) : Prop where
  held : ∀ k h, Cuckoo.held A T k h + copy A j g k h = Cuckoo.held A T₀ k h + copy A i f k h
  size : Cuckoo.size T = Cuckoo.size T₀

omit [Fintype ι] in
private theorem single_count (i j : ι) (f h : φ) :
    (if A.SamePair h i j then Multiset.count h {f} else 0) = copy A i f j h := by
  by_cases hf : h = f
  · subst hf
    simp [copy]
  · simp [copy, hf]

theorem InHand.start : InHand A T i f T i f := ⟨fun _ _ => rfl, rfl⟩

/-- The chain may start at either bucket of the pair. -/
theorem InHand.start_alt : InHand A T i f T (A.alt i f) f :=
  ⟨fun _ _ => by rw [copy_alt], rfl⟩

/-- One kick: the fingerprint in hand replaces `e` in its bucket, and `e` is
now in hand for its other bucket. -/
theorem InHand.kick {e : φ} (hc : InHand A T₀ i f T j g) (hr : Replaced T T' j {e} {g}) :
    InHand A T₀ i f T' (A.alt j e) e where
  held k h := by
    have h1 := hc.held k h
    have h2 := hr.held (A := A) k h
    rw [single_count, single_count] at h2
    rw [copy_alt]
    omega
  size := by
    have h2 := hr.size
    simp only [Multiset.card_singleton] at h2
    have h1 := hc.size
    omega

/-- The chain ends when the fingerprint in hand finds an empty slot. -/
theorem InHand.place (hc : InHand A T₀ i f T j g) (hr : Replaced T T' j 0 {g}) :
    Inserted A T₀ T' i f where
  held k h := by
    have h1 := hc.held k h
    have h2 := hr.held (A := A) k h
    rw [single_count] at h2
    simp only [Multiset.count_zero, ite_self, Nat.add_zero] at h2
    omega
  size := by
    have h2 := hr.size
    simp only [Multiset.card_singleton, Multiset.card_zero, Nat.add_zero] at h2
    have h1 := hc.size
    omega

/-- Taking one copy of `f` out of a bucket of the pair of `i`. -/
theorem Deleted.of_replaced (hij : A.SamePair f i j) (hr : Replaced T T' j {f} 0) :
    Deleted A T T' i f where
  held k h := by
    have h2 := hr.held (A := A) k h
    rw [single_count] at h2
    simp only [Multiset.count_zero, ite_self, Nat.add_zero] at h2
    rw [← copy_congr hij]
    exact h2
  size := by
    have h2 := hr.size
    simpa using h2

end Chain

/-! ## What is stored -/

section Stored

/-- The candidate pair of bucket `i` for a fingerprint, without its order. -/
def Addressing.pair (A : Addressing ι φ) (i : ι) (f : φ) : Sym2 ι := s(i, A.alt i f)

omit [DecidableEq φ] [DecidableEq ι] in
theorem Addressing.pair_eq_iff : A.pair j f = A.pair i f ↔ A.SamePair f i j := by
  unfold Addressing.pair Addressing.SamePair
  rw [Sym2.eq_iff]
  constructor
  · rintro (⟨hj, -⟩ | ⟨hj, -⟩)
    · exact Or.inl hj
    · exact Or.inr hj
  · rintro (rfl | rfl)
    · exact Or.inl ⟨rfl, rfl⟩
    · exact Or.inr ⟨rfl, A.alt_alt i f⟩

variable [Fintype ι]

/-- The stored fingerprints, each with its candidate pair. -/
def stored (A : Addressing ι φ) (T : Table ι φ) : Multiset (φ × Sym2 ι) :=
  ∑ i, (T i).map fun f => (f, A.pair i f)

omit [Fintype ι] in
/-- The copies stored in one bucket. -/
private theorem count_bucket (i : ι) (z : Sym2 ι) :
    ((T i).map fun f => (f, A.pair i f)).count (h, z) =
      if A.pair i h = z then (T i).count h else 0 := by
  have hinj : Function.Injective fun f => (f, A.pair i f) := by
    intro f g hfg
    exact (Prod.mk.inj hfg).1
  split
  · rename_i hz
    rw [← hz]
    exact Multiset.count_map_eq_count' _ _ hinj h
  · rename_i hz
    rw [Multiset.count_eq_zero, Multiset.mem_map]
    rintro ⟨g, -, hg⟩
    rcases Prod.mk.inj hg with ⟨rfl, hpair⟩
    exact hz hpair

theorem count_stored (j : ι) (h : φ) : (stored A T).count (h, A.pair j h) = held A T j h := by
  have hne : A.alt j h ∉ ({j} : Finset ι) := by
    intro hmem
    exact A.alt_ne j h (Finset.mem_singleton.1 hmem)
  have hfilter : (Finset.univ.filter fun i => A.pair i h = A.pair j h) = {A.alt j h, j} := by
    ext i
    rw [Finset.mem_filter, Addressing.pair_eq_iff, Finset.mem_insert, Finset.mem_singleton]
    constructor
    · rintro ⟨-, hi | hi⟩
      · exact Or.inr hi
      · exact Or.inl hi
    · rintro (hi | hi)
      · exact ⟨Finset.mem_univ i, Or.inr hi⟩
      · exact ⟨Finset.mem_univ i, Or.inl hi⟩
  unfold stored held
  rw [Multiset.count_sum']
  simp only [count_bucket]
  rw [← Finset.sum_filter, hfilter, Finset.sum_insert hne, Finset.sum_singleton, add_comm]

/-- A fingerprint is stored with a candidate pair of its own. -/
theorem count_stored_of_ne {z : Sym2 ι} (hz : ∀ i, A.pair i h ≠ z) :
    (stored A T).count (h, z) = 0 := by
  unfold stored
  rw [Multiset.count_sum']
  apply Finset.sum_eq_zero
  intro i _
  rw [count_bucket, if_neg (hz i)]

/-- One more fingerprint, with its candidate pair. -/
private theorem count_cons_stored (j : ι) (h : φ) :
    ((f, A.pair i f) ::ₘ stored A T).count (h, A.pair j h) = held A T j h + copy A i f j h := by
  rw [Multiset.count_cons, count_stored]
  congr 1
  unfold copy
  apply if_congr _ rfl rfl
  rw [Prod.mk.injEq]
  constructor
  · rintro ⟨rfl, hpair⟩
    exact ⟨rfl, Addressing.pair_eq_iff.1 hpair⟩
  · rintro ⟨rfl, hpair⟩
    exact ⟨rfl, Addressing.pair_eq_iff.2 hpair⟩

private theorem count_cons_stored_of_ne {z : Sym2 ι} (hz : ∀ i, A.pair i h ≠ z) :
    ((f, A.pair i f) ::ₘ stored A T).count (h, z) = 0 := by
  have hnew : ¬(h, z) = (f, A.pair i f) := by
    intro heq
    rcases Prod.mk.inj heq with ⟨rfl, rfl⟩
    exact hz i rfl
  rw [Multiset.count_cons, count_stored_of_ne hz, if_neg hnew]

/-- An insertion adds its fingerprint to what is stored, and nothing else. -/
theorem Inserted.stored (hi : Inserted A T T' i f) :
    stored A T' = (f, A.pair i f) ::ₘ stored A T := by
  ext ⟨h, z⟩
  by_cases hz : ∃ j, A.pair j h = z
  · rcases hz with ⟨j, rfl⟩
    rw [count_stored, count_cons_stored, hi.held]
  · push Not at hz
    rw [count_stored_of_ne hz, count_cons_stored_of_ne hz]

/-- What is stored during an eviction chain, together with the fingerprint in hand, is what was
stored before together with the new one: each with its candidate pair. -/
theorem InHand.stored {g : φ} (hc : InHand A T₀ i f T j g) :
    (g, A.pair j g) ::ₘ stored A T = (f, A.pair i f) ::ₘ stored A T₀ := by
  ext ⟨h, z⟩
  by_cases hz : ∃ k, A.pair k h = z
  · rcases hz with ⟨k, rfl⟩
    rw [count_cons_stored, count_cons_stored, hc.held]
  · push Not at hz
    rw [count_cons_stored_of_ne hz, count_cons_stored_of_ne hz]

/-- What was stored in a bucket is afterwards in one of its two candidate buckets. -/
theorem Inserted.stays (hi : Inserted A T T' i f) {j : ι} (hmem : h ∈ T j) :
    h ∈ T' j ∨ h ∈ T' (A.alt j h) := by
  have hold : 0 < Cuckoo.held A T j h := held_pos.2 (Or.inl hmem)
  have hheld := hi.held j h
  apply held_pos.1
  omega

end Stored

end Cuckoo
