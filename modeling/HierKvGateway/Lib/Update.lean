import Mathlib.Data.List.AList
import Mathlib.Logic.Function.Basic

/-!
# Lib.Update — what is found after a change at one key

A function or an association list is changed at one key. Whatever is found afterwards is the
new value, or was there before under another key.
-/

theorem Function.update_cases {ι α : Type*} [DecidableEq ι] {f : ι → α} {i i' : ι} {a a' : α}
    (h : Function.update f i a i' = a') : i' = i ∧ a = a' ∨ i' ≠ i ∧ f i' = a' := by
  by_cases hi : i' = i
  · subst hi
    rw [Function.update_self] at h
    exact Or.inl ⟨rfl, h⟩
  · rw [Function.update_of_ne hi] at h
    exact Or.inr ⟨hi, h⟩

namespace AList

variable {κ ν : Type*} [DecidableEq κ] {s : AList fun _ : κ => ν} {k k' : κ} {v v' : ν}

theorem lookup_of_insert (h : (s.insert k v).lookup k' = some v') :
    k' = k ∧ v' = v ∨ k' ≠ k ∧ s.lookup k' = some v' := by
  by_cases hk : k' = k
  · subst hk
    rw [AList.lookup_insert] at h
    exact Or.inl ⟨rfl, (Option.some.inj h).symm⟩
  · rw [AList.lookup_insert_ne hk] at h
    exact Or.inr ⟨hk, h⟩

theorem lookup_of_erase (h : (s.erase k).lookup k' = some v') :
    k' ≠ k ∧ s.lookup k' = some v' := by
  have hk : k' ≠ k := by
    rintro rfl
    rw [AList.lookup_erase] at h
    exact Option.some_ne_none v' h.symm
  rw [AList.lookup_erase_ne hk] at h
  exact ⟨hk, h⟩

end AList
