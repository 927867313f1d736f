import Mathlib.Data.List.Nodup
import Mathlib.Order.Defs.PartialOrder
import Mathlib.Logic.Function.Basic

/-!
# Lib.LastWrite — maps whose last write wins

A map under a sequence of writes holds the value written last (`apply_eq`). Which
one that is depends on the order of the writes. If the values carry times, all
distinct, then the orders in which the newest value of a key is written last all
leave the same value (`getLast?_perm`), and it is the newest
(`getLast?_of_isNewest`).
-/

namespace LastWrite

variable {κ ν τ : Type*}

section Map

variable [DecidableEq κ]

/-- Perform the writes in order. -/
def apply (f : κ → Option ν) (ws : List (κ × ν)) : κ → Option ν :=
  ws.foldl (fun f w => Function.update f w.1 (some w.2)) f

/-- The values written under a key, in order. -/
def valuesAt (k : κ) (ws : List (κ × ν)) : List ν :=
  ws.filterMap fun w => if w.1 = k then some w.2 else none

@[simp] theorem apply_nil (f : κ → Option ν) : apply f [] = f := rfl

theorem apply_cons (f : κ → Option ν) (w : κ × ν) (ws : List (κ × ν)) :
    apply f (w :: ws) = apply (Function.update f w.1 (some w.2)) ws := rfl

theorem apply_append (f : κ → Option ν) (ws ws' : List (κ × ν)) :
    apply f (ws ++ ws') = apply (apply f ws) ws' := List.foldl_append

@[simp] theorem valuesAt_nil (k : κ) : valuesAt k ([] : List (κ × ν)) = [] := rfl

theorem valuesAt_cons (k : κ) (w : κ × ν) (ws : List (κ × ν)) :
    valuesAt k (w :: ws) = if w.1 = k then w.2 :: valuesAt k ws else valuesAt k ws := by
  rw [valuesAt, List.filterMap_cons]
  split
  · next h =>
    split at h
    · exact nomatch h
    · next hne =>
      rw [if_neg hne]
      rfl
  · next v h =>
    split at h
    · next heq =>
      rcases Option.some.inj h with rfl
      rw [if_pos heq]
      rfl
    · exact nomatch h

theorem valuesAt_append (k : κ) (ws ws' : List (κ × ν)) :
    valuesAt k (ws ++ ws') = valuesAt k ws ++ valuesAt k ws' := List.filterMap_append

theorem valuesAt_map {α : Type*} (key : α → κ) (value : α → ν) (k : κ) (l : List α) :
    valuesAt k (l.map fun a => (key a, value a)) = (l.filter fun a => key a = k).map value := by
  induction l with
  | nil => rfl
  | cons a l ih =>
    rw [List.map_cons, valuesAt_cons, ih, List.filter_cons]
    by_cases h : key a = k
    · rw [if_pos h, if_pos (decide_eq_true h), List.map_cons]
    · rw [if_neg h, if_neg (by simpa using h)]

/-- A key nobody writes has no values. -/
theorem valuesAt_eq_nil {k : κ} {ws : List (κ × ν)} (h : ∀ w ∈ ws, w.1 ≠ k) :
    valuesAt k ws = [] := by
  apply List.filterMap_eq_nil_iff.2
  intro w hw
  exact if_neg (h w hw)

theorem valuesAt_perm (k : κ) {ws ws' : List (κ × ν)} (h : ws.Perm ws') :
    (valuesAt k ws).Perm (valuesAt k ws') := h.filterMap _

/-- The last write wins. -/
theorem apply_eq (f : κ → Option ν) (ws : List (κ × ν)) (k : κ) :
    apply f ws k = (valuesAt k ws).getLast?.or (f k) := by
  induction ws generalizing f with
  | nil => rfl
  | cons w ws ih =>
    rw [apply_cons, ih, valuesAt_cons]
    by_cases hk : w.1 = k
    · rw [if_pos hk, ← hk, Function.update_self, List.getLast?_cons]
      cases (valuesAt w.1 ws).getLast? with
      | none => rfl
      | some v => rfl
    · rw [if_neg hk, Function.update_of_ne (Ne.symm hk)]

theorem mem_valuesAt {k : κ} {v : ν} {ws : List (κ × ν)} : v ∈ valuesAt k ws ↔ (k, v) ∈ ws := by
  rw [valuesAt, List.mem_filterMap]
  constructor
  · rintro ⟨⟨k', v'⟩, hmem, heq⟩
    dsimp only at heq
    split at heq
    · next hk =>
      cases heq
      exact hk ▸ hmem
    · exact absurd heq nofun
  · intro hmem
    exact ⟨(k, v), hmem, if_pos rfl⟩

/-- A value that is read was written, or was there before. -/
theorem mem_or_of_apply {f : κ → Option ν} {ws : List (κ × ν)} {k : κ} {v : ν}
    (h : apply f ws k = some v) : (k, v) ∈ ws ∨ f k = some v := by
  rw [apply_eq] at h
  rcases Option.or_eq_some_iff.1 h with h | ⟨-, h⟩
  · exact .inl (mem_valuesAt.1 (List.mem_of_getLast? h))
  · exact .inr h

/-- If at most one value is written under a key, it replaces the one that was there. -/
theorem apply_eq_or {f : κ → Option ν} {ws : List (κ × ν)} {k : κ} {told : Option ν}
    (h : ∀ v, (k, v) ∈ ws ↔ told = some v) : apply f ws k = told.or (f k) := by
  rw [apply_eq]
  cases hlast : (valuesAt k ws).getLast? with
  | none =>
    rw [List.getLast?_eq_none_iff] at hlast
    cases htold : told with
    | none => rfl
    | some v =>
      have hvalue := mem_valuesAt.2 ((h v).2 htold)
      rw [hlast] at hvalue
      exact absurd hvalue List.not_mem_nil
  | some v => rw [(h v).1 (mem_valuesAt.1 (List.mem_of_getLast? hlast))]

/-- A key that is not written keeps its value. -/
theorem apply_of_notMem {f : κ → Option ν} {ws : List (κ × ν)} {k : κ}
    (h : ∀ v, (k, v) ∉ ws) : apply f ws k = f k := by
  rw [apply_eq, valuesAt_eq_nil]
  · rfl
  · rintro ⟨k', v⟩ hw rfl
    exact h v hw

/-- Writes to an empty map that do not disagree on a key: any order gives the same. -/
theorem apply_empty_eq_some {ws : List (κ × ν)}
    (hfun : ∀ k v v', (k, v) ∈ ws → (k, v') ∈ ws → v = v') {k : κ} {v : ν} :
    apply (fun _ => none) ws k = some v ↔ (k, v) ∈ ws := by
  rw [apply_eq, Option.or_none]
  constructor
  · intro h
    exact mem_valuesAt.1 (List.mem_of_getLast? h)
  · intro h
    cases hlast : (valuesAt k ws).getLast? with
    | none =>
      rw [List.getLast?_eq_none_iff] at hlast
      exact absurd (mem_valuesAt.2 h) (by simp [hlast])
    | some v' =>
      have hmem := mem_valuesAt.1 (List.mem_of_getLast? hlast)
      rw [hfun k v v' h hmem]

/-- Steps that each write something to a map write it in their order. -/
theorem apply_foldl {σ α : Type*} (view : σ → κ → Option ν) {step : σ → α → σ}
    {writes : α → List (κ × ν)} (h : ∀ s a, view (step s a) = apply (view s) (writes a)) (s : σ)
    (as : List α) : view (as.foldl step s) = apply (view s) (as.flatMap writes) := by
  induction as generalizing s with
  | nil => rfl
  | cons a as ih => rw [List.foldl_cons, List.flatMap_cons, apply_append, ih, h]

end Map

section Newest

variable {time : ν → τ} {vs vs' : List ν} {v : ν}

/-- A value no other is newer than. -/
def IsNewest [LE τ] (time : ν → τ) (vs : List ν) (v : ν) : Prop :=
  v ∈ vs ∧ ∀ v' ∈ vs, time v' ≤ time v

/-- The newest value comes last. -/
def NewestLast [LE τ] (time : ν → τ) (vs : List ν) : Prop :=
  ∀ v, vs.getLast? = some v → IsNewest time vs v

theorem IsNewest.perm [LE τ] (h : IsNewest time vs v) (hp : vs.Perm vs') : IsNewest time vs' v :=
  ⟨hp.subset h.1, fun v' hv' => h.2 v' (hp.symm.subset hv')⟩

variable [PartialOrder τ]

/-- With distinct times there is one newest value. -/
theorem IsNewest.unique (hnodup : (vs.map time).Nodup) {v' : ν} (h : IsNewest time vs v)
    (h' : IsNewest time vs v') : v = v' := by
  have htime : time v = time v' := le_antisymm (h'.2 v h.1) (h.2 v' h'.1)
  exact List.inj_on_of_nodup_map hnodup h.1 h'.1 htime

theorem getLast?_of_isNewest (hnodup : (vs.map time).Nodup) (hlast : NewestLast time vs)
    (h : IsNewest time vs v) : vs.getLast? = some v := by
  rcases Option.ne_none_iff_exists'.1
    (fun hnone => List.ne_nil_of_mem h.1 (List.getLast?_eq_none_iff.1 hnone)) with ⟨v', hv'⟩
  rw [hv', (hlast v' hv').unique hnodup h]

/-- All orders that put the newest value last end with the same value. -/
theorem getLast?_perm (hp : vs.Perm vs') (hnodup : (vs.map time).Nodup)
    (hlast : NewestLast time vs) (hlast' : NewestLast time vs') : vs.getLast? = vs'.getLast? := by
  cases hv : vs.getLast? with
  | none =>
    have hnil : vs = [] := List.getLast?_eq_none_iff.1 hv
    rw [hnil, List.nil_perm] at hp
    rw [hp]
    rfl
  | some v =>
    have hnodup' : (vs'.map time).Nodup := (hp.map time).nodup_iff.1 hnodup
    exact (getLast?_of_isNewest hnodup' hlast' ((hlast v hv).perm hp)).symm

end Newest

end LastWrite
