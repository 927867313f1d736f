import Mathlib.Data.Finset.Insert
import Mathlib.Data.List.Nodup

/-!
# Lib.FirstOf — of each key the first entry

A loop over keyed entries that keeps an entry if its key has not been seen. What is kept has no
key twice (`nodup_keys`), and of each key it has the entry that comes first (`mem_kept_iff`).
-/

namespace FirstOf

variable {κ ν : Type*} [DecidableEq κ]

/-- The keys seen, and the entries kept. -/
abbrev State (κ ν : Type*) := Finset κ × List (κ × ν)

/-- Keep an entry if its key is new. -/
def note (s : State κ ν) (e : κ × ν) : State κ ν :=
  if e.1 ∈ s.1 then s else (insert e.1 s.1, s.2 ++ [e])

/-- The entries that are kept. -/
def kept (l : List (κ × ν)) : List (κ × ν) := (l.foldl note (∅, [])).2

/-- What holds of the state after some entries. -/
structure After (l : List (κ × ν)) (s : State κ ν) : Prop where
  seen : ∀ k, k ∈ s.1 ↔ ∃ v, (k, v) ∈ l
  nodup : (s.2.map Prod.fst).Nodup
  first : ∀ k v, (k, v) ∈ s.2 ↔ l.find? (·.1 = k) = some (k, v)

theorem After.nil : After ([] : List (κ × ν)) (∅, []) where
  seen k := iff_of_false (Finset.notMem_empty k) (by simp)
  nodup := List.nodup_nil
  first k v := iff_of_false List.not_mem_nil (by simp)

theorem After.seen_iff_find? {l : List (κ × ν)} {s : State κ ν} (h : After l s) (k : κ) :
    k ∈ s.1 ↔ l.find? (·.1 = k) ≠ none := by
  rw [h.seen k, Ne, List.find?_eq_none]
  simp only [decide_eq_true_eq, not_forall, not_not]
  constructor
  · rintro ⟨v, hv⟩
    exact ⟨(k, v), hv, rfl⟩
  · rintro ⟨⟨k', v⟩, hv, rfl⟩
    exact ⟨v, hv⟩

theorem After.note {l : List (κ × ν)} {s : State κ ν} (h : After l s) (e : κ × ν) :
    After (l ++ [e]) (note s e) := by
  have hseen := h.seen_iff_find? e.1
  unfold FirstOf.note
  split
  · next hmem =>
    -- the key has an entry before
    refine ⟨?_, h.nodup, ?_⟩
    · intro k
      rw [h.seen k]
      constructor
      · rintro ⟨v, hv⟩
        exact ⟨v, List.mem_append_left _ hv⟩
      · rintro ⟨v, hv⟩
        rcases List.mem_append.1 hv with hv | hv
        · exact ⟨v, hv⟩
        · rw [← List.mem_singleton.1 hv] at hmem
          exact (h.seen k).1 hmem
    · intro k v
      rw [h.first k v, List.find?_append]
      cases hfind : l.find? (·.1 = k) with
      | some e' => rfl
      | none =>
        have hne : e.1 ≠ k := by
          rintro rfl
          exact hseen.1 hmem hfind
        simp [hne]
  · next hmem =>
    have hnone : l.find? (·.1 = e.1) = none := by
      by_contra hne
      exact hmem (hseen.2 hne)
    refine ⟨?_, ?_, ?_⟩
    · intro k
      rw [Finset.mem_insert, h.seen k]
      constructor
      · rintro (rfl | ⟨v, hv⟩)
        · exact ⟨e.2, List.mem_append_right _ (List.mem_singleton_self _)⟩
        · exact ⟨v, List.mem_append_left _ hv⟩
      · rintro ⟨v, hv⟩
        rcases List.mem_append.1 hv with hv | hv
        · exact .inr ⟨v, hv⟩
        · rw [← List.mem_singleton.1 hv]
          exact .inl rfl
    · rw [List.map_append, List.nodup_append]
      refine ⟨h.nodup, List.nodup_singleton _, ?_⟩
      rintro k hk k' hk' rfl
      rcases List.mem_map.1 hk with ⟨⟨k, v⟩, hkv, rfl⟩
      rw [List.map_singleton, List.mem_singleton] at hk'
      have hfirst := (h.first k v).1 hkv
      have hk' : k = e.1 := hk'
      rw [hk', hnone] at hfirst
      cases hfirst
    · intro k v
      rw [List.mem_append, h.first k v, List.find?_append]
      by_cases hk : e.1 = k
      · subst hk
        rw [hnone]
        simp [Prod.ext_iff, eq_comm]
      · cases hfind : l.find? (·.1 = k) with
        | some e' => simp [hk, Prod.ext_iff, eq_comm]
        | none => simp [hk, Prod.ext_iff, eq_comm]

theorem after_foldl (l l' : List (κ × ν)) {s : State κ ν} (h : After l s) :
    After (l ++ l') (l'.foldl note s) := by
  induction l' generalizing l s with
  | nil => rwa [List.append_nil]
  | cons e l' ih =>
    rw [List.foldl_cons, List.append_cons]
    exact ih (l ++ [e]) (h.note e)

/-- No key is kept twice. -/
theorem nodup_keys (l : List (κ × ν)) : ((kept l).map Prod.fst).Nodup :=
  (after_foldl [] l .nil).nodup

/-- Of each key the first entry is kept. -/
theorem mem_kept_iff {l : List (κ × ν)} {k : κ} {v : ν} :
    (k, v) ∈ kept l ↔ l.find? (·.1 = k) = some (k, v) :=
  (after_foldl [] l .nil).first k v

end FirstOf
