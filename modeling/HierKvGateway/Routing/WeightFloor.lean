import HierKvGateway.Lib.WaterFilling
import HierKvGateway.Routing.Adaptive
import Mathlib.Algebra.Order.BigOperators.Group.List

/-!
# Routing.WeightFloor — the weights of the controller

The loop of `normalize_with_floor` ends with any numbers, because every round but the last one
clamps an element (`normalizeLoop_isSome`). With exact numbers it is the water filling of the
library (`normalizeLoop_image`), so the weights are shares of one, not below the floor, and in
proportion where they are not clamped to it (`normalizeWithFloor_shares`).
-/

namespace HierKvGateway

namespace AdaptiveWeightController

open WaterFilling (Share)

/-! ## Any numbers -/

section Any

variable {F : Type} [Floating F] {floor : F} {w : List (F × Bool)}

theorem length_normalizeRound : (normalizeRound floor w).1.length = w.length := by
  unfold normalizeRound
  exact List.length_map _

theorem countP_normalizeRound_lt (h : (normalizeRound floor w).2 = true) :
    (normalizeRound floor w).1.countP (fun p => !p.2) < w.countP fun p => !p.2 := by
  unfold normalizeRound at h ⊢
  dsimp only at h ⊢
  obtain ⟨p, hp, hclamped⟩ := List.any_eq_true.1 h
  rw [Bool.and_eq_true] at hclamped
  obtain ⟨hfree, hlt⟩ := hclamped
  refine WaterFilling.countP_map_lt_of_mem ?_ hp hfree ?_
  · intro q hq
    cases hfixed : q.2 with
    | false => rfl
    | true => simp [hfixed] at hq
  · have hfixed : p.2 = false := by simpa using hfree
    simp [hfixed, hlt]

/-- The loop ends, at the latest in the round after all elements have been clamped. -/
theorem normalizeLoop_isSome {n : Nat} (h : w.countP (fun p => !p.2) < n) :
    ∃ r, normalizeLoop floor n w = some r ∧ r.length = w.length := by
  induction n generalizing w with
  | zero => exact absurd h (Nat.not_lt_zero _)
  | succ n ih =>
    unfold normalizeLoop
    dsimp only
    split
    · rename_i hclamped
      have hlt := countP_normalizeRound_lt hclamped
      obtain ⟨r, hr, hlen⟩ := ih (w := (normalizeRound floor w).1) (by omega)
      exact ⟨r, hr, hlen.trans length_normalizeRound⟩
    · exact ⟨_, rfl, length_normalizeRound⟩

theorem normalizeWithFloor_isSome (w : List F) (floor : F) :
    ∃ r, normalizeWithFloor w floor = some r ∧ r.length = w.length := by
  have hcount : (w.map fun v => (v, false)).countP (fun p => !p.2) < w.length + 1 := by
    have hle := List.countP_le_length (l := w.map fun v => (v, false)) (p := fun p => !p.2)
    rw [List.length_map] at hle
    omega
  obtain ⟨r, hr, hlen⟩ : ∃ r, normalizeLoop floor (w.length + 1) (w.map fun v => (v, false)) =
      some r ∧ r.length = (w.map fun v => (v, false)).length := normalizeLoop_isSome hcount
  refine ⟨r.map (·.1), ?_, ?_⟩
  · unfold normalizeWithFloor
    rw [hr, Option.map_some]
  · rw [List.length_map, hlen, List.length_map]

end Any

/-! ## Exact numbers -/

/-- Shares as the elements of the array with their flags. -/
def image (w : List (Share Rat)) : List (ExtRat × Bool) := w.map fun s => (.num s.value, s.fixed)

variable {floor : Rat} {w : List (Share Rat)}

theorem sum_image (b : Bool) (w : List (Share Rat)) :
    Floating.sum (((image w).filter fun p => p.2 == b).map (·.1)) =
      ExtRat.num (WaterFilling.sumOf b w) := by
  unfold WaterFilling.sumOf image
  rw [← ExtRat.sum_num, List.filter_map, List.map_map, List.map_map]
  rfl

theorem countP_image (w : List (Share Rat)) :
    (image w).countP (fun p => !p.2) = WaterFilling.freeCount w := by
  unfold image WaterFilling.freeCount
  rw [List.countP_map]
  rfl

theorem rescale_image (w : List (Share Rat)) (v : Rat) :
    rescale (ExtRat.num (WaterFilling.sumOf false w))
      (Floating.ofNat 1 - ExtRat.num (WaterFilling.sumOf true w))
      (Floating.ofNat (WaterFilling.freeCount w)) (.num v) = .num (WaterFilling.scaled w v) := by
  have hmax : max (WaterFilling.freeCount w : Rat) 1 ≠ 0 :=
    (lt_of_lt_of_le zero_lt_one (le_max_right _ _)).ne'
  unfold rescale WaterFilling.scaled WaterFilling.budget
  rw [ExtRat.ofNat_eq, ExtRat.ofNat_eq, ExtRat.ofNat_eq, ExtRat.lt_num, Nat.cast_zero, Nat.cast_one,
    ExtRat.num_sub, ExtRat.max_num, ExtRat.num_div _ _ hmax]
  by_cases hpos : 0 < WaterFilling.sumOf false w
  · rw [decide_eq_true hpos, if_pos rfl, if_pos hpos, ExtRat.num_div _ _ hpos.ne', ExtRat.num_mul]
  · rw [decide_eq_false hpos, if_neg Bool.false_ne_true, if_neg hpos]

/-- A round of the loop is one of the library. -/
theorem normalizeRound_image (floor : Rat) (w : List (Share Rat)) :
    normalizeRound (.num floor) (image w) =
      (image (WaterFilling.round floor w), decide (WaterFilling.Clamps floor w)) := by
  have hfixed : Floating.sum (((image w).filter fun p => p.2).map (·.1)) =
      ExtRat.num (WaterFilling.sumOf true w) := by
    simpa only [beq_true] using sum_image true w
  have hfree : Floating.sum (((image w).filter fun p => !p.2).map (·.1)) =
      ExtRat.num (WaterFilling.sumOf false w) := by
    simpa only [beq_false] using sum_image false w
  unfold normalizeRound
  dsimp only
  rw [hfixed, hfree, countP_image]
  refine Prod.ext ?_ ?_
  · -- each element becomes what the share becomes
    dsimp only
    unfold image WaterFilling.round
    rw [List.map_map, List.map_map]
    apply List.map_congr_left
    intro s _
    rw [Function.comp_apply, Function.comp_apply]
    dsimp only
    rw [rescale_image, ExtRat.lt_num]
    unfold WaterFilling.settle
    cases hs : s.fixed with
    | true => simp [hs]
    | false =>
      by_cases hlt : WaterFilling.scaled w s.value < floor
      · simp [hlt]
      · simp [hlt]
  · dsimp only
    rw [Bool.eq_iff_iff, decide_eq_true_eq]
    unfold image WaterFilling.Clamps
    rw [List.any_map, List.any_eq_true]
    apply exists_congr
    intro s
    rw [Function.comp_apply, rescale_image, ExtRat.lt_num, Bool.and_eq_true, decide_eq_true_eq,
      Bool.not_eq_true']

theorem normalizeLoop_image (floor : Rat) (n : Nat) (w : List (Share Rat)) :
    normalizeLoop (.num floor) n (image w) = (WaterFilling.fill floor n w).map image := by
  induction n generalizing w with
  | zero => rfl
  | succ n ih =>
    unfold normalizeLoop WaterFilling.fill
    rw [normalizeRound_image]
    dsimp only
    by_cases hclamps : WaterFilling.Clamps floor w
    · rw [if_pos (decide_eq_true hclamps), if_pos hclamps, ih]
    · rw [if_neg (by simpa using hclamps), if_neg hclamps]
      rfl

/-! ## The shares -/

/-- Shares of one, none below the floor. Those that are not clamped to it are in proportion to the
weights. -/
structure Shared (floor : Rat) (w : List Rat) (r : List (Share Rat)) : Prop where
  length : r.length = w.length
  sum : (r.map (·.value)).sum = 1
  floor_le : ∀ s ∈ r, floor ≤ s.value
  clamped : ∀ s ∈ r, s.fixed = true → s.value = floor
  ratios : 0 < w.sum → ∃ c, 0 < c ∧ ∀ p ∈ w.zip r, p.2.fixed = false → p.2.value = c * p.1
  unclamped : 0 < w.sum → (∀ v ∈ w, floor ≤ v / w.sum) → r.map (·.value) = w.map (· / w.sum)
  equal : (∀ v ∈ w, v = 0) → r.map (·.value) = w.map fun _ => 1 / (w.length : Rat)

section Fill

variable {floor : Rat} {w : List Rat} {r : List (Share Rat)}

theorem shared_of_filled (hpos : 0 < w.sum)
    (hr : WaterFilling.fill floor (w.length + 1) (WaterFilling.free w) = some r)
    (h : WaterFilling.Filled floor w r) : Shared floor w r := by
  obtain ⟨c, hc, hshares⟩ := h.shares
  refine ⟨hshares.length_eq.symm, h.sum, h.floor_le, hshares.fixed_eq, ?_, ?_, ?_⟩
  · intro _
    refine ⟨c, hc, ?_⟩
    rintro ⟨v, s⟩ hp hfree
    have hs : s.value = if s.fixed then floor else c * v := List.forall₂_zip hshares hp
    rw [hs, show s.fixed = false from hfree]
    rfl
  · intro _ hle
    rw [WaterFilling.fill_scale hpos hle, Option.some_inj] at hr
    rw [← hr]
    unfold WaterFilling.free
    rw [List.map_map, List.map_map]
    rfl
  · intro hzero
    rw [List.sum_eq_zero hzero] at hpos
    exact absurd hpos (lt_irrefl 0)

theorem shared_equal (hne : w ≠ []) (hzero : ∀ v ∈ w, v = 0) (hfits : w.length * floor ≤ 1) :
    Shared floor w (WaterFilling.free (w.map fun _ => 1 / (w.length : Rat))) := by
  have hlen : (0 : Rat) < w.length := Nat.cast_pos.2 (List.length_pos_of_ne_nil hne)
  have hvalues : (WaterFilling.free (w.map fun _ => 1 / (w.length : Rat))).map (·.value) =
      w.map fun _ => 1 / (w.length : Rat) := by
    unfold WaterFilling.free
    rw [List.map_map, List.map_map]
    rfl
  have hmem : ∀ s ∈ WaterFilling.free (w.map fun _ => 1 / (w.length : Rat)),
      s = ⟨1 / (w.length : Rat), false⟩ := by
    intro s hs
    unfold WaterFilling.free at hs
    rw [List.map_map] at hs
    rcases List.mem_map.1 hs with ⟨_, -, rfl⟩
    rfl
  have hsum : w.sum = 0 := List.sum_eq_zero hzero
  refine ⟨?_, ?_, ?_, ?_, ?_, ?_, fun _ => hvalues⟩
  · unfold WaterFilling.free
    rw [List.length_map, List.length_map]
  · rw [hvalues, List.map_const', List.sum_replicate, nsmul_eq_mul]
    exact mul_one_div_cancel hlen.ne'
  · intro s hs
    rw [hmem s hs]
    show floor ≤ 1 / (w.length : Rat)
    rw [le_div_iff₀ hlen]
    linarith
  · intro s hs hfixed
    rw [hmem s hs] at hfixed
    exact absurd hfixed Bool.false_ne_true
  · intro hpos
    exact absurd hsum hpos.ne'
  · intro hpos
    exact absurd hsum hpos.ne'

theorem exists_shared (hne : w ≠ []) (hnonneg : ∀ v ∈ w, 0 ≤ v) (hfloor : 0 ≤ floor)
    (hfits : w.length * floor ≤ 1) :
    ∃ r, WaterFilling.fill floor (w.length + 1) (WaterFilling.free w) = some r ∧
      Shared floor w r := by
  rcases (List.sum_nonneg hnonneg).eq_or_lt with hzero | hpos
  · have hall : ∀ v ∈ w, v = 0 :=
      fun v hv => List.all_zero_of_le_zero_le_of_sum_eq_zero hnonneg hzero.symm hv
    exact ⟨_, WaterFilling.fill_zero hne hall hfits w.length, shared_equal hne hall hfits⟩
  · have hcount : WaterFilling.freeCount (WaterFilling.free w) < w.length + 1 := by
      rw [WaterFilling.freeCount_free]
      exact Nat.lt_succ_self _
    obtain ⟨r, hr⟩ : ∃ r, WaterFilling.fill floor (w.length + 1) (WaterFilling.free w) = some r :=
      WaterFilling.fill_eq_some hcount
    have hfilled := (WaterFilling.fillable_free hpos).fill hfloor hfits hr
    exact ⟨r, hr, shared_of_filled hpos hr hfilled⟩

end Fill

theorem image_free (w : List Rat) :
    image (WaterFilling.free w) = w.map fun v => (ExtRat.num v, false) := by
  unfold image WaterFilling.free
  rw [List.map_map]
  rfl

/-- What is filled in the library is the result of the function. -/
theorem normalizeWithFloor_of_fill {floor : Rat} {w : List Rat} {r : List (Share Rat)}
    (hr : WaterFilling.fill floor (w.length + 1) (WaterFilling.free w) = some r) :
    normalizeWithFloor (w.map ExtRat.num) (.num floor) =
      some (r.map fun s => ExtRat.num s.value) := by
  unfold normalizeWithFloor
  rw [List.length_map, List.map_map]
  show (normalizeLoop (ExtRat.num floor) (w.length + 1)
    (w.map fun v => (ExtRat.num v, false))).map _ = _
  rw [← image_free, normalizeLoop_image, hr, Option.map_some, Option.map_some]
  unfold image
  rw [List.map_map]
  rfl

/-- The loop ends within one round more than there are elements, with such shares. -/
theorem normalizeWithFloor_shares (w : List Rat) (floor : Rat) (hne : w ≠ [])
    (hnonneg : ∀ v ∈ w, 0 ≤ v) (hfloor : 0 ≤ floor) (hfits : w.length * floor ≤ 1) :
    ∃ r, Shared floor w r ∧
      normalizeLoop (ExtRat.num floor) (w.length + 1) (w.map fun v => (ExtRat.num v, false)) =
        some (image r) ∧
      normalizeWithFloor (w.map ExtRat.num) (.num floor) =
        some (r.map fun s => ExtRat.num s.value) := by
  obtain ⟨r, hr, hshared⟩ := exists_shared hne hnonneg hfloor hfits
  have hloop : normalizeLoop (ExtRat.num floor) (w.length + 1)
      (w.map fun v => (ExtRat.num v, false)) = some (image r) := by
    rw [← image_free, normalizeLoop_image, hr, Option.map_some]
  exact ⟨r, hshared, hloop, normalizeWithFloor_of_fill hr⟩

theorem normalizeWithFloor_shares_clamped :
    ∃ r, Shared (1 / 20) [0, 1, 0] r ∧
      normalizeLoop (ExtRat.num (1 / 20)) 4
        [(ExtRat.num 0, false), (ExtRat.num 1, false), (ExtRat.num 0, false)] = some (image r) ∧
      normalizeWithFloor [ExtRat.num 0, .num 1, .num 0] (.num (1 / 20)) =
        some (r.map fun s => ExtRat.num s.value) :=
  normalizeWithFloor_shares [0, 1, 0] (1 / 20) (by decide) (by simp) (by norm_num) (by norm_num)

end AdaptiveWeightController

end HierKvGateway
