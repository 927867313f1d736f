import Mathlib.Algebra.Order.Field.Basic
import Mathlib.Algebra.BigOperators.Group.List.Basic
import Mathlib.Tactic.FieldSimp
import Mathlib.Algebra.Order.BigOperators.Group.List
import Mathlib.Tactic.Linarith
import Mathlib.Tactic.LinearCombination
import Mathlib.Tactic.Positivity
import Mathlib.Tactic.Ring

/-!
# Lib.WaterFilling — shares of one, with a floor

Weights are scaled to shares of one, in rounds. A share that would be below the floor is fixed at
the floor, and what is left of one goes to the others in the next round, in proportion
(`WaterFilling.round`). The floor times the number of shares is at most one.

What carries the proof is that some free shares are always left to scale (`Scaled.rest_pos`): those
fixed in a round gave up less than they got.

`fill_eq_some` is termination, `Filled` the result.
-/

namespace WaterFilling

variable {K : Type*}

/-- A share; a fixed one is not scaled any more. -/
structure Share (K : Type*) where
  value : K
  fixed : Bool
deriving DecidableEq, Repr

section Defs

variable [Field K] [LinearOrder K]

/-- The sum of the fixed shares, or of the free ones. -/
def sumOf (fixed : Bool) (w : List (Share K)) : K :=
  ((w.filter fun s => s.fixed == fixed).map (·.value)).sum

/-- How many shares are free. -/
def freeCount (w : List (Share K)) : Nat := w.countP fun s => !s.fixed

/-- What is left for the free shares. -/
def budget (w : List (Share K)) : K := 1 - sumOf true w

/-- A free share of what is left. -/
def scaled (w : List (Share K)) (v : K) : K :=
  if 0 < sumOf false w then v / sumOf false w * budget w else budget w / max (freeCount w : K) 1

/-- Some share gets fixed in this round. -/
def Clamps (floor : K) (w : List (Share K)) : Prop :=
  ∃ s ∈ w, s.fixed = false ∧ scaled w s.value < floor

instance (floor : K) (w : List (Share K)) : Decidable (Clamps floor w) :=
  inferInstanceAs (Decidable (∃ s ∈ w, _ ∧ _))

/-- A share after a round in which it gets the value `v` if it is free. -/
def settle (floor v : K) (s : Share K) : Share K :=
  if s.fixed then s else if v < floor then ⟨floor, true⟩ else ⟨v, false⟩

/-- A round. -/
def round (floor : K) (w : List (Share K)) : List (Share K) :=
  w.map fun s => settle floor (scaled w s.value) s

/-- Rounds until no share gets fixed; so many at most. -/
def fill (floor : K) : Nat → List (Share K) → Option (List (Share K))
  | 0, _ => none
  | n + 1, w => if Clamps floor w then fill floor n (round floor w) else some (round floor w)

end Defs

/-! ## Termination -/

section Termination

variable [Field K] [LinearOrder K] {floor : K} {w : List (Share K)}

theorem countP_map_lt_of_mem {α : Type*} {p : α → Bool} {f : α → α} {l : List α} {a : α}
    (hmono : ∀ a, p (f a) = true → p a = true) (ha : a ∈ l) (hp : p a = true)
    (hp' : p (f a) = false) : (l.map f).countP p < l.countP p := by
  induction l with
  | nil => exact absurd ha List.not_mem_nil
  | cons b l ih =>
    have hle : (l.map f).countP p ≤ l.countP p := by
      rw [List.countP_map]
      exact List.countP_mono_left fun b _ hb => hmono b hb
    rw [List.map_cons, List.countP_cons, List.countP_cons]
    rcases List.mem_cons.1 ha with rfl | ha
    · rw [hp, hp']
      simp only [Bool.false_eq_true, if_false, if_true]
      omega
    · have hlt := ih ha
      cases hb : p (f b) with
      | false =>
        simp only [Bool.false_eq_true, if_false]
        omega
      | true =>
        rw [hmono b hb]
        simp only [if_true]
        omega

theorem freeCount_round_lt (h : Clamps floor w) : freeCount (round floor w) < freeCount w := by
  obtain ⟨s, hs, hfree, hlt⟩ := h
  refine countP_map_lt_of_mem ?_ hs ?_ ?_
  · -- a fixed share stays fixed
    intro s hs
    cases hfixed : s.fixed with
    | false => rfl
    | true => simp [settle, hfixed] at hs
  · rw [hfree]
    rfl
  · simp [settle, hfree, hlt]

/-- There are at most as many rounds as free shares, and one more. -/
theorem fill_eq_some {n : Nat} (h : freeCount w < n) : ∃ r, fill floor n w = some r := by
  induction n generalizing w with
  | zero => exact absurd h (Nat.not_lt_zero _)
  | succ n ih =>
    unfold fill
    split
    · rename_i hclamps
      have hlt := freeCount_round_lt hclamps
      exact ih (by omega)
    · exact ⟨_, rfl⟩

end Termination

/-! ## Sums -/

section Sums

variable [Field K] {floor : K} {w : List (Share K)}

theorem sumOf_cons (b : Bool) (s : Share K) (w : List (Share K)) :
    sumOf b (s :: w) = (if s.fixed = b then s.value else 0) + sumOf b w := by
  unfold sumOf
  rw [List.filter_cons]
  by_cases h : s.fixed = b
  · simp [h]
  · simp [h]

/-- The fixed and the free shares are all. -/
theorem sumOf_add_sumOf (w : List (Share K)) :
    sumOf true w + sumOf false w = (w.map (·.value)).sum := by
  induction w with
  | nil => simp [sumOf]
  | cons s w ih =>
    rw [sumOf_cons, sumOf_cons, List.map_cons, List.sum_cons, ← ih]
    cases s.fixed with
    | true => simp; ring
    | false => simp; ring

/-- The fixed shares are all at the floor. -/
theorem sumOf_true (h : ∀ s ∈ w, s.fixed = true → s.value = floor) :
    sumOf true w + freeCount w * floor = w.length * floor := by
  induction w with
  | nil => simp [sumOf, freeCount]
  | cons s w ih =>
    rcases List.forall_mem_cons.1 h with ⟨hs, hw⟩
    have hrest := ih hw
    unfold freeCount at hrest ⊢
    rw [sumOf_cons, List.countP_cons, List.length_cons]
    cases hfixed : s.fixed with
    | true =>
      simp only [hs hfixed, if_true, Bool.not_true, Bool.false_eq_true, if_false]
      push_cast
      linear_combination hrest
    | false =>
      simp only [Bool.false_eq_true, if_false, Bool.not_false, if_true]
      push_cast
      linear_combination hrest

/-- The free shares, each by a factor, and the fixed ones. -/
theorem sum_scaled (c : K) (w : List (Share K)) :
    (w.map fun s => if s.fixed then s.value else s.value * c).sum =
      sumOf true w + sumOf false w * c := by
  induction w with
  | nil => simp [sumOf]
  | cons s w ih =>
    rw [sumOf_cons, sumOf_cons, List.map_cons, List.sum_cons, ih]
    cases s.fixed with
    | true =>
      simp
      ring
    | false =>
      simp
      ring

end Sums

/-! ## One round -/

section Round

variable [Field K] [LinearOrder K] [IsStrictOrderedRing K] {floor c : K} {w : List (Share K)}
  {s : Share K} {orig : List K}

/-- What is left goes to the free shares by one factor. -/
theorem scaled_eq (h : 0 < sumOf false w) (v : K) :
    scaled w v = v * (budget w / sumOf false w) := by
  unfold scaled
  rw [if_pos h]
  ring

/-- Before any is fixed in it, the shares of a round sum up to one. -/
theorem sum_scaled_eq_one (h : 0 < sumOf false w) :
    (w.map fun s => if s.fixed then s.value else scaled w s.value).sum = 1 := by
  have hfactor : (fun s : Share K => if s.fixed then s.value else scaled w s.value) =
      fun s => if s.fixed then s.value else s.value * (budget w / sumOf false w) := by
    funext s
    rw [scaled_eq h]
  rw [hfactor, sum_scaled, mul_div_cancel₀ _ h.ne']
  unfold budget
  ring

omit [Field K] [IsStrictOrderedRing K] in
/-- A share that gets fixed gets more than it gives up. -/
theorem le_settle (v : K) (s : Share K) :
    (if s.fixed then s.value else v) ≤ (settle floor v s).value := by
  unfold settle
  split
  · exact le_rfl
  · split
    · rename_i hlt
      exact hlt.le
    · exact le_rfl

omit [Field K] [IsStrictOrderedRing K] in
theorem lt_settle {v : K} (hfree : s.fixed = false) (hlt : v < floor) :
    (if s.fixed then s.value else v) < (settle floor v s).value := by
  unfold settle
  simp only [hfree, Bool.false_eq_true, if_false, hlt, if_true]

theorem one_lt_sum_round (hrest : 0 < sumOf false w) (h : Clamps floor w) :
    1 < ((round floor w).map (·.value)).sum := by
  obtain ⟨s, hs, hfree, hlt⟩ := h
  unfold round
  rw [List.map_map, ← sum_scaled_eq_one hrest]
  exact List.sum_lt_sum _ _ (fun s _ => le_settle _ s) ⟨s, hs, lt_settle hfree hlt⟩

omit [IsStrictOrderedRing K] in
/-- A round in which none is fixed. -/
theorem settle_of_not_clamps (h : ¬Clamps floor w) (hs : s ∈ w) :
    settle floor (scaled w s.value) s =
      ⟨if s.fixed then s.value else scaled w s.value, s.fixed⟩ := by
  unfold settle
  cases hfixed : s.fixed with
  | true =>
    simp only [if_true]
    rw [← hfixed]
  | false =>
    have hnot : ¬scaled w s.value < floor := fun hlt => h ⟨s, hs, hfixed, hlt⟩
    simp only [Bool.false_eq_true, if_false, hnot]

theorem sum_round_eq_one (hrest : 0 < sumOf false w) (h : ¬Clamps floor w) :
    ((round floor w).map (·.value)).sum = 1 := by
  unfold round
  rw [List.map_map, ← sum_scaled_eq_one hrest]
  congr 1
  apply List.map_congr_left
  intro s hs
  rw [Function.comp_apply, settle_of_not_clamps h hs]

/-! ## All rounds -/

/-- The free shares are the weights by one factor, and the others are at the floor. -/
def Scaled (floor : K) (orig : List K) (c : K) (w : List (Share K)) : Prop :=
  List.Forall₂ (fun v s => s.value = if s.fixed then floor else c * v) orig w

omit [LinearOrder K] [IsStrictOrderedRing K] in
theorem Scaled.fixed_eq (h : Scaled floor orig c w) :
    ∀ s ∈ w, s.fixed = true → s.value = floor := by
  unfold Scaled at h
  induction h with
  | nil => exact fun s hs => absurd hs List.not_mem_nil
  | cons hs _ ih =>
    refine List.forall_mem_cons.2 ⟨?_, ih⟩
    intro hfixed
    rw [hs, hfixed]
    rfl

omit [IsStrictOrderedRing K] in
theorem Scaled.round (h : Scaled floor orig c w) {factor : K}
    (hfactor : ∀ v, scaled w v = v * factor) :
    Scaled floor orig (c * factor) (round floor w) := by
  unfold Scaled WaterFilling.round at *
  rw [List.forall₂_map_right_iff]
  refine h.imp ?_
  intro v s hs
  rw [hfactor]
  unfold settle
  cases hfixed : s.fixed with
  | true =>
    rw [hfixed] at hs
    simp only [if_true] at hs ⊢
    rw [hs, hfixed]
    rfl
  | false =>
    rw [hfixed] at hs
    simp only [Bool.false_eq_true, if_false] at hs ⊢
    split
    · rfl
    · simp only [Bool.false_eq_true, if_false]
      rw [hs]
      ring

/-- At the beginning of a round there is something left to scale, and enough for the floor. -/
structure Fillable (floor : K) (orig : List K) (c : K) (w : List (Share K)) : Prop where
  shares : Scaled floor orig c w
  factor_pos : 0 < c
  rest_pos : 0 < sumOf false w

/-- What is left suffices for the free shares. -/
theorem floor_le_budget (hfits : orig.length * floor ≤ 1) (h : Scaled floor orig c w) :
    freeCount w * floor ≤ budget w := by
  have hlen : orig.length = w.length := h.length_eq
  have hsum := sumOf_true h.fixed_eq
  unfold budget
  rw [hlen] at hfits
  linarith

omit [IsStrictOrderedRing K] in
theorem freeCount_pos (h : 0 < sumOf false w) : 0 < freeCount w := by
  rw [Nat.pos_iff_ne_zero]
  intro hzero
  have hnil : w.filter (fun s => s.fixed == false) = [] := by
    rw [List.filter_eq_nil_iff]
    intro s hs
    have hfixed := List.countP_eq_zero.1 hzero s hs
    cases hs' : s.fixed with
    | true => decide
    | false => exact absurd (by rw [hs']; rfl) hfixed
  unfold sumOf at h
  rw [hnil] at h
  exact absurd h (lt_irrefl 0)

theorem budget_pos (hfloor : 0 ≤ floor) (hfits : orig.length * floor ≤ 1)
    (h : Fillable floor orig c w) : 0 < budget w := by
  rcases hfloor.eq_or_lt with hzero | hpos
  · -- nothing is given away
    have hsum := sumOf_true h.shares.fixed_eq
    unfold budget
    rw [← hzero, mul_zero, mul_zero, add_zero] at hsum
    rw [hsum, sub_zero]
    exact zero_lt_one
  · have hle := floor_le_budget hfits h.shares
    have hfree : (0 : K) < freeCount w := Nat.cast_pos.2 (freeCount_pos h.rest_pos)
    exact lt_of_lt_of_le (mul_pos hfree hpos) hle

/-- The factor of a round. -/
theorem Fillable.factor (hfloor : 0 ≤ floor) (hfits : orig.length * floor ≤ 1)
    (h : Fillable floor orig c w) :
    0 < c * (budget w / sumOf false w) ∧
      Scaled floor orig (c * (budget w / sumOf false w)) (WaterFilling.round floor w) := by
  have hfactor : 0 < budget w / sumOf false w :=
    div_pos (budget_pos hfloor hfits h) h.rest_pos
  exact ⟨mul_pos h.factor_pos hfactor, h.shares.round fun v => scaled_eq h.rest_pos v⟩

/-- A round in which some share gets fixed. The free ones have lost less than the fixed ones have
got, so something is left to scale. -/
theorem Fillable.round (hfloor : 0 ≤ floor) (hfits : orig.length * floor ≤ 1)
    (h : Fillable floor orig c w) (hclamps : Clamps floor w) :
    Fillable floor orig (c * (budget w / sumOf false w)) (WaterFilling.round floor w) := by
  obtain ⟨hpos, hshares⟩ := h.factor hfloor hfits
  refine ⟨hshares, hpos, ?_⟩
  have hsum := one_lt_sum_round h.rest_pos hclamps
  rw [← sumOf_add_sumOf] at hsum
  have hle := floor_le_budget hfits hshares
  unfold budget at hle
  have hnonneg : 0 ≤ (freeCount (WaterFilling.round floor w) : K) * floor :=
    mul_nonneg (Nat.cast_nonneg _) hfloor
  linarith

/-- The result: shares of one, not below the floor, and in proportion unless fixed at it. -/
structure Filled (floor : K) (orig : List K) (r : List (Share K)) : Prop where
  sum : (r.map (·.value)).sum = 1
  floor_le : ∀ s ∈ r, floor ≤ s.value
  shares : ∃ c, 0 < c ∧ Scaled floor orig c r

/-- The last round. -/
theorem Fillable.filled (hfloor : 0 ≤ floor) (hfits : orig.length * floor ≤ 1)
    (h : Fillable floor orig c w) (hclamps : ¬Clamps floor w) :
    Filled floor orig (WaterFilling.round floor w) where
  sum := sum_round_eq_one h.rest_pos hclamps
  floor_le := by
    intro s hs
    rcases List.mem_map.1 hs with ⟨s, hmem, rfl⟩
    rw [settle_of_not_clamps hclamps hmem]
    dsimp only
    split
    · rename_i hfixed
      exact (h.shares.fixed_eq s hmem hfixed).ge
    · rename_i hfree
      exact not_lt.1 fun hlt => hclamps ⟨s, hmem, Bool.eq_false_iff.2 hfree, hlt⟩
  shares := ⟨_, h.factor hfloor hfits⟩

theorem Fillable.fill (hfloor : 0 ≤ floor) (hfits : orig.length * floor ≤ 1) {n : Nat}
    (h : Fillable floor orig c w) {r : List (Share K)} (hr : fill floor n w = some r) :
    Filled floor orig r := by
  induction n generalizing w c with
  | zero => exact absurd hr nofun
  | succ n ih =>
    unfold WaterFilling.fill at hr
    split at hr
    · rename_i hclamps
      exact ih (h.round hfloor hfits hclamps) hr
    · rename_i hclamps
      rw [← Option.some.inj hr]
      exact h.filled hfloor hfits hclamps

end Round

/-! ## From weights to shares -/

section Weights

variable [Field K] [LinearOrder K] [IsStrictOrderedRing K] {floor : K} {orig : List K}

/-- Weights, all free. -/
def free (orig : List K) : List (Share K) := orig.map fun v => ⟨v, false⟩

omit [LinearOrder K] [IsStrictOrderedRing K] in
theorem sumOf_free (orig : List K) :
    sumOf true (free orig) = 0 ∧ sumOf false (free orig) = orig.sum := by
  induction orig with
  | nil => simp [sumOf, free]
  | cons v orig ih =>
    have hcons : free (v :: orig) = ⟨v, false⟩ :: free orig := rfl
    rw [hcons, sumOf_cons, sumOf_cons, ih.1, ih.2, List.sum_cons]
    simp

omit [Field K] [LinearOrder K] [IsStrictOrderedRing K] in
theorem freeCount_free (orig : List K) : freeCount (free orig) = orig.length := by
  unfold freeCount free
  rw [List.countP_map]
  exact List.countP_eq_length.2 fun _ _ => rfl

theorem fillable_free (hpos : 0 < orig.sum) : Fillable floor orig 1 (free orig) where
  shares := by
    unfold Scaled free
    rw [List.forall₂_map_right_iff]
    refine List.forall₂_same.2 ?_
    intro v _
    simp
  factor_pos := zero_lt_one
  rest_pos := by rwa [(sumOf_free orig).2]

omit [IsStrictOrderedRing K] in
/-- The first round is the last one if it gives every weight a share that is not below the floor. -/
theorem fill_free_of_le {g : K → K} (hg : ∀ v ∈ orig, scaled (free orig) v = g v)
    (hle : ∀ v ∈ orig, floor ≤ g v) (n : Nat) :
    fill floor (n + 1) (free orig) = some (free (orig.map g)) := by
  have hnot : ¬Clamps floor (free orig) := by
    rintro ⟨s, hs, -, hlt⟩
    rcases List.mem_map.1 hs with ⟨v, hv, rfl⟩
    rw [hg v hv] at hlt
    exact absurd hlt (not_lt.2 (hle v hv))
  unfold fill
  rw [if_neg hnot]
  unfold round free
  rw [List.map_map, List.map_map]
  congr 1
  apply List.map_congr_left
  intro v hv
  have hfree : free orig = orig.map fun v => (⟨v, false⟩ : Share K) := rfl
  rw [Function.comp_apply, Function.comp_apply, ← hfree, hg v hv]
  unfold settle
  simp only [Bool.false_eq_true, if_false, not_lt.2 (hle v hv)]

/-- Weights that give no share below the floor are only scaled. -/
theorem fill_scale (hpos : 0 < orig.sum) (hle : ∀ v ∈ orig, floor ≤ v / orig.sum) (n : Nat) :
    fill floor (n + 1) (free orig) = some (free (orig.map (· / orig.sum))) := by
  apply fill_free_of_le
  · intro v _
    have hrest : 0 < sumOf false (free orig) := by rwa [(sumOf_free orig).2]
    rw [scaled_eq hrest]
    unfold budget
    rw [(sumOf_free orig).1, (sumOf_free orig).2]
    ring
  · exact hle

/-- Weights of 0 get equal shares. -/
theorem fill_zero (hne : orig ≠ []) (hzero : ∀ v ∈ orig, v = 0) (hfits : orig.length * floor ≤ 1)
    (n : Nat) :
    fill floor (n + 1) (free orig) = some (free (orig.map fun _ => 1 / (orig.length : K))) := by
  have hlen : 0 < orig.length := List.length_pos_of_ne_nil hne
  have hlen' : (1 : K) ≤ orig.length := by exact_mod_cast hlen
  apply fill_free_of_le
  · intro v _
    have hsum : orig.sum = 0 := List.sum_eq_zero hzero
    unfold scaled budget
    rw [(sumOf_free orig).1, (sumOf_free orig).2, hsum, freeCount_free, if_neg (lt_irrefl 0),
      max_eq_left hlen', sub_zero]
  · intro v _
    rw [le_div_iff₀ (by positivity)]
    linarith

end Weights

end WaterFilling
