import Mathlib.Data.List.AList
import Mathlib.Order.Lattice

/-!
# Lib.Eviction — evicting the oldest entries of a table

The entries of a table are stamped. To make room, the keys are put in order, the oldest stamp first
(`OldestFirst`; entries with one stamp in any order), and the first few are erased. As many go as
were to go, and none of them is newer than what stays (`OldestFirst.le_of_evicted`).
-/

namespace Eviction

variable {α β K : Type*} [DecidableEq α] {t : AList fun _ : α => β} {l order : List (α × K)}
  {a b : α} {x y : β} {n : Nat}

/-- The table without some keys. -/
def eraseAll (l : List (α × K)) (t : AList fun _ : α => β) : AList fun _ : α => β :=
  l.foldl (fun t e => t.erase e.1) t

theorem mem_eraseAll : a ∈ eraseAll l t ↔ a ∈ t ∧ ∀ e ∈ l, e.1 ≠ a := by
  induction l generalizing t with
  | nil => simp [eraseAll]
  | cons e l ih =>
    have hcons : eraseAll (e :: l) t = eraseAll l (t.erase e.1) := rfl
    rw [hcons, ih, AList.mem_erase, List.forall_mem_cons]
    constructor
    · rintro ⟨⟨hne, hmem⟩, hrest⟩
      exact ⟨hmem, hne.symm, hrest⟩
    · rintro ⟨hmem, hne, hrest⟩
      exact ⟨⟨hne.symm, hmem⟩, hrest⟩

theorem lookup_eraseAll (h : ∀ e ∈ l, e.1 ≠ a) : (eraseAll l t).lookup a = t.lookup a := by
  induction l generalizing t with
  | nil => rfl
  | cons e l ih =>
    rcases List.forall_mem_cons.1 h with ⟨he, hl⟩
    exact (ih hl).trans (AList.lookup_erase_ne he.symm)

/-- What is left is as it was. -/
theorem lookup_of_lookup_eraseAll (h : (eraseAll l t).lookup a = some x) :
    t.lookup a = some x ∧ ∀ e ∈ l, e.1 ≠ a := by
  have hmem : a ∈ eraseAll l t := AList.lookup_isSome.1 (h ▸ rfl)
  have hne := (mem_eraseAll.1 hmem).2
  exact ⟨(lookup_eraseAll hne).symm.trans h, hne⟩

theorem length_erase (h : a ∈ t) : (t.erase a).entries.length + 1 = t.entries.length := by
  have hkeys : (t.erase a).keys.length + 1 = t.keys.length := by
    rw [AList.keys_erase]
    exact List.length_erase_add_one (AList.mem_keys.1 h)
  unfold AList.keys List.keys at hkeys
  rwa [List.length_map, List.length_map] at hkeys

theorem length_eraseAll (hnodup : (l.map (·.1)).Nodup) (hmem : ∀ e ∈ l, e.1 ∈ t) :
    (eraseAll l t).entries.length + l.length = t.entries.length := by
  induction l generalizing t with
  | nil => rfl
  | cons e l ih =>
    rcases List.nodup_cons.1 hnodup with ⟨hnew, hnodup⟩
    rcases List.forall_mem_cons.1 hmem with ⟨he, hmem⟩
    have hrest : ∀ e' ∈ l, e'.1 ∈ t.erase e.1 := by
      intro e' he'
      refine AList.mem_erase.2 ⟨?_, hmem e' he'⟩
      intro heq
      exact hnew (List.mem_map.2 ⟨e', he', heq⟩)
    have hl : (eraseAll l (t.erase e.1)).entries.length + l.length = _ := ih hnodup hrest
    have hone := length_erase he
    have hcons : eraseAll (e :: l) t = eraseAll l (t.erase e.1) := rfl
    rw [hcons, List.length_cons]
    omega

/-! ## The oldest entries -/

/-- The keys with their stamps. -/
def stamped (stamp : β → K) (t : AList fun _ : α => β) : List (α × K) :=
  t.entries.map fun e => (e.1, stamp e.2)

theorem mem_stamped {stamp : β → K} {e : α × K} :
    e ∈ stamped stamp t ↔ ∃ x, t.lookup e.1 = some x ∧ stamp x = e.2 := by
  unfold stamped
  rw [List.mem_map]
  constructor
  · rintro ⟨e', he', rfl⟩
    exact ⟨e'.2, AList.mem_lookup_iff.2 he', rfl⟩
  · rintro ⟨x, hx, hstamp⟩
    exact ⟨⟨e.1, x⟩, AList.mem_lookup_iff.1 hx, Prod.ext rfl hstamp⟩

omit [DecidableEq α] in
theorem nodup_keys_stamped (stamp : β → K) (t : AList fun _ : α => β) :
    ((stamped stamp t).map (·.1)).Nodup := by
  unfold stamped
  rw [List.map_map]
  exact t.keys_nodup

variable [LinearOrder K] {stamp : β → K}

/-- An order in which entries may be evicted. -/
structure OldestFirst (stamp : β → K) (t : AList fun _ : α => β) (order : List (α × K)) :
    Prop where
  perm : order.Perm (stamped stamp t)
  sorted : order.Pairwise fun e e' => e.2 ≤ e'.2

namespace OldestFirst

variable (h : OldestFirst stamp t order)

include h

theorem mem_iff {e : α × K} : e ∈ order ↔ ∃ x, t.lookup e.1 = some x ∧ stamp x = e.2 :=
  h.perm.mem_iff.trans mem_stamped

/-- As many entries are evicted as were to be. -/
theorem length_evict (hn : n ≤ t.entries.length) :
    (eraseAll (order.take n) t).entries.length + n = t.entries.length := by
  have hlen : order.length = t.entries.length := h.perm.length_eq.trans (List.length_map _)
  have hnodup : ((order.take n).map (·.1)).Nodup := by
    have hkeys : (order.map (·.1)).Nodup :=
      (h.perm.map _).nodup_iff.2 (nodup_keys_stamped stamp t)
    exact hkeys.sublist ((List.take_sublist n order).map _)
  have hmem : ∀ e ∈ order.take n, e.1 ∈ t := by
    intro e he
    obtain ⟨x, hx, -⟩ := h.mem_iff.1 (List.mem_of_mem_take he)
    exact AList.lookup_isSome.1 (hx ▸ rfl)
  have herase := length_eraseAll hnodup hmem
  rwa [List.length_take, Nat.min_eq_left (hlen ▸ hn)] at herase

/-- What is evicted is not newer than what stays. -/
theorem le_of_evicted (ha : t.lookup a = some x)
    (hgone : (eraseAll (order.take n) t).lookup a = none)
    (hb : (eraseAll (order.take n) t).lookup b = some y) : stamp x ≤ stamp y := by
  obtain ⟨hold, hstays⟩ := lookup_of_lookup_eraseAll hb
  have hevicted : (a, stamp x) ∈ order.take n := by
    by_contra hnot
    have hne : ∀ e ∈ order.take n, e.1 ≠ a := by
      rintro ⟨a', k⟩ he rfl
      obtain ⟨x', hx', rfl⟩ := h.mem_iff.1 (List.mem_of_mem_take he)
      rw [ha] at hx'
      exact hnot (Option.some.inj hx' ▸ he)
    rw [lookup_eraseAll hne, ha] at hgone
    exact absurd hgone nofun
  have hkept : (b, stamp y) ∈ order.drop n := by
    have hmem : (b, stamp y) ∈ order := h.mem_iff.2 ⟨y, hold, rfl⟩
    rw [← List.take_append_drop n order, List.mem_append] at hmem
    exact hmem.resolve_left fun htake => hstays _ htake rfl
  have hsorted := h.sorted
  rw [← List.take_append_drop n order, List.pairwise_append] at hsorted
  exact hsorted.2.2 _ hevicted _ hkept

end OldestFirst

omit [DecidableEq α] in
/-- A stable sort gives such an order. -/
theorem oldestFirst_mergeSort (stamp : β → K) (t : AList fun _ : α => β) :
    OldestFirst stamp t ((stamped stamp t).mergeSort fun e e' => decide (e.2 ≤ e'.2)) where
  perm := List.mergeSort_perm _ _
  sorted := by
    have hsorted : ((stamped stamp t).mergeSort fun e e' => decide (e.2 ≤ e'.2)).Pairwise
        fun e e' => decide (e.2 ≤ e'.2) = true := by
      apply List.pairwise_mergeSort
      · intro e e' e'' h h'
        exact decide_eq_true (le_trans (of_decide_eq_true h) (of_decide_eq_true h'))
      · intro e e'
        rw [Bool.or_eq_true, decide_eq_true_eq, decide_eq_true_eq]
        exact le_total e.2 e'.2
    exact hsorted.imp of_decide_eq_true

end Eviction
