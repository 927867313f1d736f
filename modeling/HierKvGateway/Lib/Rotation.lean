import Mathlib.Data.List.DropRight
import Mathlib.Data.List.Perm.Subperm
import Mathlib.Data.List.Rotate

/-!
# Lib.Rotation — taking turns

A list is read from a position on and around (`List.rotate`), at each turn from another position.
`each_once_iff`: with as many turns as there are items, each item is first once if the turns differ
modulo the number of items.

A list whose items are overwritten in turn is a ring: read around from the item that is next to be
overwritten, it holds the last items in order (`rotate_set_succ`).
-/

namespace Rotation

variable {α : Type*} {l : List α} {turns : List Nat}

theorem head?_rotate (k : Nat) : (l.rotate k).head? = l[k % l.length]? := by
  rcases Nat.eq_zero_or_pos l.length with hzero | hpos
  · rw [List.length_eq_zero_iff.1 hzero, List.rotate_nil]
    rfl
  · rw [← List.rotate_mod]
    exact List.head?_rotate (Nat.mod_lt k hpos)

/-! ## A ring that is overwritten -/

/-- Overwriting the first item of a turned list and turning it on: that item leaves in front, the
new one comes behind. -/
theorem rotate_set_succ {i : Nat} (hi : i < l.length) (x : α) :
    (l.set i x).rotate (i + 1) = (l.rotate i).tail ++ [x] := by
  have hlen : i + 1 ≤ (l.set i x).length := by rwa [List.length_set]
  have hne : l.drop i ≠ [] := by
    intro hnil
    have hle := List.drop_eq_nil_iff.1 hnil
    omega
  have htake : (l.set i x).take (i + 1) = l.take i ++ [x] := by
    rw [List.take_add_one, List.take_set_of_le le_rfl, List.getElem?_set_self hi]
    rfl
  rw [List.rotate_eq_drop_append_take hlen, List.rotate_eq_drop_append_take hi.le, htake,
    List.drop_set_of_lt (Nat.lt_succ_self i), List.tail_append_of_ne_nil hne, List.tail_drop,
    List.append_assoc]

/-- Reading a list by index, once around from a position on. -/
theorem mapM_getElem? (k : Nat) :
    (List.range l.length).mapM (fun j => l[(k + j) % l.length]?) = some (l.rotate k) := by
  have hread : (List.range l.length).map (fun j => l[(k + j) % l.length]?) =
      (l.rotate k).map some := by
    apply List.ext_getElem
    · rw [List.length_map, List.length_map, List.length_range, List.length_rotate]
    · intro j hj _
      rw [List.length_map, List.length_range] at hj
      have hmod : (k + j) % l.length < l.length := Nat.mod_lt _ (by omega)
      rw [List.getElem_map, List.getElem_map, List.getElem_range, List.getElem_rotate,
        List.getElem?_eq_getElem hmod]
      simp only [Nat.add_comm]
  calc (List.range l.length).mapM (fun j => l[(k + j) % l.length]?)
      = ((List.range l.length).map fun j => l[(k + j) % l.length]?).mapM id := by
        rw [List.mapM_map]; rfl
    _ = some (l.rotate k) := by
        rw [hread, List.mapM_map]
        exact List.mapM_pure.trans (congrArg some (List.map_id _))

/-- The last items of a list, when one more comes behind. -/
theorem rtake_concat_of_le {n : Nat} (hn : 0 < n) (hle : n ≤ l.length) (x : α) :
    (l ++ [x]).rtake n = (l.rtake n).tail ++ [x] := by
  rcases Nat.exists_eq_add_of_lt hn with ⟨m, rfl⟩
  unfold List.rtake
  rw [List.tail_drop, List.length_append, List.length_singleton,
    List.drop_append_of_le_length (by omega)]
  congr 2
  omega

theorem rtake_of_length_le {n : Nat} (hle : l.length ≤ n) : l.rtake n = l := by
  unfold List.rtake
  rw [Nat.sub_eq_zero_of_le hle, List.drop_zero]

/-! ## Each item once -/

variable [DecidableEq α]

/-- An item is first at the turns that begin at its position. -/
theorem countP_head?_rotate (hl : l.Nodup) {i : Nat} (hi : i < l.length) :
    turns.countP (fun k => decide ((l.rotate k).head? = some l[i])) =
      (turns.map (· % l.length)).count i := by
  rw [List.count, List.countP_map]
  apply List.countP_congr
  intro k _
  have hpos : 0 < l.length := Nat.zero_lt_of_lt hi
  have hk : k % l.length < l.length := Nat.mod_lt k hpos
  rw [decide_eq_true_eq, head?_rotate, List.getElem?_eq_getElem hk, Option.some_inj,
    hl.getElem_inj_iff]
  exact beq_iff_eq.symm

/-- Numbers below `n`, as many: each is there once if no two are the same. -/
theorem count_eq_one_iff_nodup {positions : List Nat}
    (hlt : ∀ i ∈ positions, i < positions.length) :
    (∀ i < positions.length, positions.count i = 1) ↔ positions.Nodup := by
  constructor
  · intro h
    rw [List.nodup_iff_count_le_one]
    intro i
    by_cases hi : i < positions.length
    · exact (h i hi).le
    · rw [List.count_eq_zero_of_not_mem fun hmem => hi (hlt i hmem)]
      exact Nat.zero_le 1
  · intro hnd i hi
    -- without repetition they are all the numbers below `n`
    have hsub : positions ⊆ List.range positions.length := by
      intro j hj
      exact List.mem_range.2 (hlt j hj)
    have hperm : positions.Perm (List.range positions.length) := by
      apply (hnd.subperm hsub).perm_of_length_le
      rw [List.length_range]
    exact List.count_eq_one_of_mem hnd (hperm.mem_iff.2 (List.mem_range.2 hi))

/-- With as many turns as items, each is first once if the turns begin at different positions. -/
theorem each_once_iff (hl : l.Nodup) (hlen : turns.length = l.length) :
    (∀ x ∈ l, turns.countP (fun k => decide ((l.rotate k).head? = some x)) = 1) ↔
      (turns.map (· % l.length)).Nodup := by
  have hlen' : (turns.map (· % l.length)).length = l.length := by rw [List.length_map, hlen]
  have hlt : ∀ i ∈ turns.map (· % l.length), i < (turns.map (· % l.length)).length := by
    intro i hi
    rcases List.mem_map.1 hi with ⟨k, hk, rfl⟩
    rw [hlen']
    apply Nat.mod_lt
    rw [← hlen]
    exact List.length_pos_of_mem hk
  rw [← count_eq_one_iff_nodup hlt, hlen']
  constructor
  · intro h i hi
    rw [← countP_head?_rotate hl hi]
    exact h _ (List.getElem_mem hi)
  · intro h x hx
    rcases List.getElem_of_mem hx with ⟨i, hi, rfl⟩
    rw [countP_head?_rotate hl hi]
    exact h i hi

/-- Turns in a row begin at different positions. -/
theorem nodup_range'_mod (k n : Nat) : ((List.range' k n).map (· % n)).Nodup := by
  refine List.Nodup.map_on ?_ List.nodup_range'
  intro i hi j hj heq
  rw [List.mem_range'_1] at hi hj
  -- their difference is a multiple of `n` and below it
  rcases Nat.le_total i j with hij | hij
  · have hdiff : (j - i) % n = 0 := Nat.sub_mod_eq_zero_of_mod_eq heq.symm
    rw [Nat.mod_eq_of_lt (by omega)] at hdiff
    omega
  · have hdiff : (i - j) % n = 0 := Nat.sub_mod_eq_zero_of_mod_eq heq
    rw [Nat.mod_eq_of_lt (by omega)] at hdiff
    omega

end Rotation
