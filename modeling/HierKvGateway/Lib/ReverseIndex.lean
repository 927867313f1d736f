import Mathlib.Data.List.Nodup
import Mathlib.Logic.Function.Basic

/-!
# Lib.ReverseIndex — lists of keys by a property of their values

A table maps keys to values; a reverse index lists, for each group, the keys whose
value belongs to the group. It `Matches` the table when each of these lists has every
such key once and nothing else.

A push appends a key to the list of a group, whatever the index holds already; so
inserting with a push keeps the match exactly when the key is new
(`matches_insert_iff`). Erasing with a drop keeps it always (`Matches.erase`).
-/

namespace ReverseIndex

variable {κ ι ν : Type*} [DecidableEq κ]

/-- The list of a group; a group without a list is empty. -/
def get (index : κ → Option (List ι)) (k : κ) : List ι := (index k).getD []

/-- Append a key to the list of a group. -/
def push (k : κ) (i : ι) (index : κ → Option (List ι)) : κ → Option (List ι) :=
  Function.update index k (some (get index k ++ [i]))

/-- Take a key out of the list of a group; an empty list is removed. -/
def drop [DecidableEq ι] (k : κ) (i : ι) (index : κ → Option (List ι)) : κ → Option (List ι) :=
  match index k with
  | none => index
  | some list =>
    let rest := list.filter fun j => j ≠ i
    if rest.isEmpty then Function.update index k none else Function.update index k (some rest)

/-- Every group lists each key whose value belongs to it once, and nothing else. -/
structure Matches (group : ν → κ) (table : ι → Option ν) (index : κ → Option (List ι)) : Prop where
  nodup : ∀ k, (get index k).Nodup
  mem : ∀ k i, i ∈ get index k ↔ ∃ v, table i = some v ∧ group v = k

variable {k k' : κ} {i : ι} {v : ν} {group : ν → κ} {table : ι → Option ν}
  {index : κ → Option (List ι)}

@[simp] theorem get_push_self : get (push k i index) k = get index k ++ [i] := by
  rw [get, push, Function.update_self, Option.getD_some]

@[simp] theorem get_push_of_ne (h : k' ≠ k) : get (push k i index) k' = get index k' := by
  rw [get, push, Function.update_of_ne h, get]

theorem get_drop_self [DecidableEq ι] : get (drop k i index) k = (get index k).filter (· ≠ i) := by
  unfold get drop
  cases hk : index k with
  | none => simp only [hk, Option.getD_none, List.filter_nil]
  | some list =>
    dsimp only
    by_cases hempty : (list.filter fun j => j ≠ i).isEmpty
    · rw [if_pos hempty, Function.update_self]
      exact (List.isEmpty_iff.1 hempty).symm
    · rw [if_neg hempty, Function.update_self]
      rfl

theorem get_drop_of_ne [DecidableEq ι] (h : k' ≠ k) : get (drop k i index) k' = get index k' := by
  unfold get drop
  cases index k with
  | none => rfl
  | some list =>
    dsimp only
    split
    · rw [Function.update_of_ne h]
    · rw [Function.update_of_ne h]

omit [DecidableEq κ] in
/-- The empty index of an empty table. -/
theorem matches_empty : Matches group (fun _ : ι => none) fun _ => none where
  nodup _ := List.nodup_nil
  mem _ _ := iff_of_false List.not_mem_nil fun ⟨_, h, _⟩ => absurd h (Option.some_ne_none _).symm

section Insert

variable [DecidableEq ι] {j : ι}

omit [DecidableEq ι] in
theorem mem_get_push : j ∈ get (push k i index) k' ↔ j ∈ get index k' ∨ j = i ∧ k' = k := by
  by_cases hk : k' = k
  · subst hk
    rw [get_push_self, List.mem_append, List.mem_singleton, and_iff_left rfl]
  · rw [get_push_of_ne hk, or_iff_left fun h => hk h.2]

theorem mem_get_drop : j ∈ get (drop k i index) k' ↔ j ∈ get index k' ∧ ¬(j = i ∧ k' = k) := by
  by_cases hk : k' = k
  · subst hk
    rw [get_drop_self, List.mem_filter, decide_eq_true_eq, and_iff_left rfl]
  · rw [get_drop_of_ne hk, and_iff_left fun h => hk h.2]

omit [DecidableEq κ] [DecidableEq ι] in
theorem Matches.not_mem (h : Matches group table index) (hi : table i = none) (k : κ) :
    i ∉ get index k := by
  intro hmem
  obtain ⟨v, hv, -⟩ := (h.mem k i).1 hmem
  exact absurd (hi.symm.trans hv) (Option.some_ne_none v).symm

/-- Inserting a value and pushing its new key keeps the match. -/
theorem Matches.insert (h : Matches group table index) (hi : table i = none) :
    Matches group (Function.update table i (some v)) (push (group v) i index) where
  nodup k := by
    by_cases hk : k = group v
    · rw [hk, get_push_self, List.nodup_append]
      refine ⟨h.nodup _, List.nodup_singleton i, fun a ha b hb => ?_⟩
      rw [List.mem_singleton.1 hb]
      exact fun heq => h.not_mem hi _ (heq ▸ ha)
    · rw [get_push_of_ne hk]
      exact h.nodup k
  mem k j := by
    rw [mem_get_push]
    by_cases hj : j = i
    · -- the new key is in the group of its value only
      rw [hj, Function.update_self, or_iff_right (h.not_mem hi k), and_iff_right rfl]
      constructor
      · exact fun hk => ⟨v, rfl, hk.symm⟩
      · rintro ⟨v', hv', hk⟩
        rw [← hk, Option.some.inj hv']
    · rw [Function.update_of_ne hj, or_iff_left fun h => hj h.1]
      exact h.mem k j

/-- Inserting a value and pushing its key keeps the match exactly when the key is
new. -/
theorem matches_insert_iff (h : Matches group table index) :
    Matches group (Function.update table i (some v)) (push (group v) i index) ↔
      table i = none := by
  constructor
  · intro hnew
    cases hi : table i with
    | none => rfl
    | some old =>
      exfalso
      have hlisted : i ∈ get index (group old) := (h.mem _ _).2 ⟨old, hi, rfl⟩
      by_cases hgroup : group v = group old
      · -- listed a second time in its group
        have hnodup := hnew.nodup (group v)
        rw [get_push_self, hgroup] at hnodup
        exact (List.nodup_append.1 hnodup).2.2 i hlisted i List.mem_cons_self rfl
      · -- left behind in the group of the old value
        obtain ⟨v', hv', hkey⟩ := (hnew.mem _ i).1 (mem_get_push.2 (Or.inl hlisted))
        rw [Function.update_self] at hv'
        exact hgroup (Option.some.inj hv' ▸ hkey)
  · exact fun hi => h.insert hi

/-- Erasing a value and dropping its key keeps the match. -/
theorem Matches.erase (h : Matches group table index) (hi : table i = some v) :
    Matches group (Function.update table i none) (drop (group v) i index) where
  nodup k := by
    by_cases hk : k = group v
    · rw [hk, get_drop_self]
      exact (h.nodup _).filter _
    · rw [get_drop_of_ne hk]
      exact h.nodup k
  mem k j := by
    rw [mem_get_drop, h.mem]
    by_cases hj : j = i
    · -- the old key was in the group of its value only
      rw [hj, Function.update_self]
      refine iff_of_false ?_ fun ⟨_, hv, _⟩ => absurd hv (Option.some_ne_none _).symm
      rintro ⟨⟨v', hv', hk⟩, hnot⟩
      rw [hi] at hv'
      exact hnot ⟨rfl, hk.symm.trans (congrArg group (Option.some.inj hv').symm)⟩
    · rw [Function.update_of_ne hj]
      exact and_iff_left fun h => hj h.1

end Insert

end ReverseIndex
