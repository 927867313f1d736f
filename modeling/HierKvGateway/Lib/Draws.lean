import Mathlib.Data.List.Perm.Basic
import Mathlib.Order.Lattice

/-!
# Lib.Draws — drawing without replacement

Elements are drawn from a pool one after the other, up to a limit; which may be drawn next depends
on what is left (`pick`). `Drawn` says which lists can come out.

1. `Drawn.perm`, `Drawn.length_eq`: what is drawn and what is left are the pool, and nothing is left
   before the limit is reached.
2. `Drawn.sorted`: if only elements of the highest value are drawn, the list is sorted, and nothing
   higher is left.
3. `sorted_iff_steady`: otherwise, when all lists that can come out are sorted.
-/

namespace Draws

variable {α K : Type*} {pick : List α → α → Prop} {limit : Nat} {pool out : List α}

/-- A list that can be drawn. -/
inductive Drawn (pick : List α → α → Prop) : Nat → List α → List α → Prop
  | enough (pool : List α) : Drawn pick 0 pool []
  | empty (limit : Nat) : Drawn pick limit [] []
  | draw {limit : Nat} {l r out : List α} {x : α} : pick (l ++ x :: r) x →
      Drawn pick limit (l ++ r) out → Drawn pick (limit + 1) (l ++ x :: r) (x :: out)

/-- What is drawn and what is left. -/
theorem Drawn.perm (h : Drawn pick limit pool out) : ∃ rest, (out ++ rest).Perm pool := by
  induction h with
  | enough pool => exact ⟨pool, List.Perm.refl pool⟩
  | empty limit => exact ⟨[], List.Perm.refl []⟩
  | draw _ _ ih =>
    obtain ⟨rest, hrest⟩ := ih
    exact ⟨rest, (hrest.cons _).trans List.perm_middle.symm⟩

theorem Drawn.length_eq (h : Drawn pick limit pool out) : out.length = min limit pool.length := by
  induction h with
  | enough pool => exact (Nat.zero_min _).symm
  | empty limit => exact (Nat.min_zero limit).symm
  | draw _ _ ih =>
    rw [List.length_append] at ih
    rw [List.length_cons, List.length_append, List.length_cons, ih]
    omega

theorem Drawn.mem (h : Drawn pick limit pool out) {x : α} (hx : x ∈ out) : x ∈ pool := by
  obtain ⟨rest, hrest⟩ := h.perm
  exact hrest.subset (List.mem_append_left rest hx)

theorem rest_subset {l r : List α} {x : α} : l ++ r ⊆ l ++ x :: r := by
  intro y hy
  exact List.perm_middle.mem_iff.2 (List.mem_cons_of_mem x hy)

/-- If something can be drawn from all that may be left, some list can. -/
theorem exists_drawn (hpick : ∀ left, left ⊆ pool → left ≠ [] → ∃ x ∈ left, pick left x)
    (limit : Nat) : ∃ out, Drawn pick limit pool out := by
  induction limit generalizing pool with
  | zero => exact ⟨[], .enough pool⟩
  | succ limit ih =>
    by_cases hnil : pool = []
    · rw [hnil]
      exact ⟨[], .empty (limit + 1)⟩
    · obtain ⟨x, hx, hdraw⟩ := hpick pool (List.Subset.refl pool) hnil
      obtain ⟨l, r, rfl⟩ := List.append_of_mem hx
      obtain ⟨out, hout⟩ := ih fun left hsub => hpick left (List.Subset.trans hsub rest_subset)
      exact ⟨x :: out, .draw hdraw hout⟩

section Value

variable [LinearOrder K] {value : α → K}

/-- Drawn highest first, the list is sorted, and what is left is not higher. -/
theorem Drawn.sorted (h : Drawn pick limit pool out)
    (hpick : ∀ left x, left ⊆ pool → pick left x → ∀ y ∈ left, value y ≤ value x) :
    out.Pairwise (fun a b => value b ≤ value a) ∧
      ∃ rest, (out ++ rest).Perm pool ∧ ∀ a ∈ out, ∀ b ∈ rest, value b ≤ value a := by
  induction h with
  | enough pool => exact ⟨List.Pairwise.nil, pool, List.Perm.refl pool, nofun⟩
  | empty limit => exact ⟨List.Pairwise.nil, [], List.Perm.refl [], nofun⟩
  | @draw limit l r out x hdraw _ ih =>
    obtain ⟨hsorted, rest, hperm, hrest⟩ :=
      ih fun left y hsub => hpick left y (List.Subset.trans hsub rest_subset)
    have hmax : ∀ y ∈ out ++ rest, value y ≤ value x := by
      intro y hy
      exact hpick _ x (List.Subset.refl _) hdraw y (rest_subset (hperm.subset hy))
    constructor
    · exact List.pairwise_cons.2 ⟨fun y hy => hmax y (List.mem_append_left rest hy), hsorted⟩
    · refine ⟨rest, (hperm.cons x).trans List.perm_middle.symm, List.forall_mem_cons.2 ⟨?_, hrest⟩⟩
      exact fun y hy => hmax y (List.mem_append_right out hy)

/-- While more than one is still to be drawn, only elements of the highest value can be. -/
def Steady (pick : List α → α → Prop) (value : α → K) : Nat → List α → Prop
  | 0, _ => True
  | 1, _ => True
  | limit + 2, pool => ∀ l x r, pool = l ++ x :: r → pick pool x →
      (∀ y ∈ pool, value y ≤ value x) ∧ Steady pick value (limit + 1) (l ++ r)

/-- Drawing is steady if the highest is drawn from all that may be left. -/
theorem steady_of_highest
    (hpick : ∀ left x, left ⊆ pool → pick left x → ∀ y ∈ left, value y ≤ value x) (limit : Nat) :
    Steady pick value limit pool := by
  induction limit generalizing pool with
  | zero => exact trivial
  | succ limit ih =>
    cases limit with
    | zero => exact trivial
    | succ limit =>
      rintro l x r rfl hdraw
      constructor
      · exact hpick _ x (List.Subset.refl _) hdraw
      · exact ih fun left y hsub => hpick left y (List.Subset.trans hsub rest_subset)

theorem Steady.sorted (hsteady : Steady pick value limit pool) (h : Drawn pick limit pool out) :
    out.Pairwise fun a b => value b ≤ value a := by
  induction h with
  | enough pool => exact List.Pairwise.nil
  | empty limit => exact List.Pairwise.nil
  | @draw limit l r out x hdraw hout ih =>
    cases limit with
    | zero =>
      have hlen := hout.length_eq
      rw [Nat.zero_min] at hlen
      rw [List.length_eq_zero_iff.1 hlen]
      exact List.pairwise_singleton _ x
    | succ limit =>
      obtain ⟨hmax, hrest⟩ := hsteady l x r rfl hdraw
      refine List.pairwise_cons.2 ⟨?_, ih hrest⟩
      intro y hy
      exact hmax y (rest_subset (hout.mem hy))

/-- If an element of the highest value can always be drawn, then all lists that can come out are
sorted exactly if nothing else can be drawn while it matters. -/
theorem sorted_iff_steady
    (hpick : ∀ left, left ⊆ pool → left ≠ [] →
      ∃ x ∈ left, pick left x ∧ ∀ y ∈ left, value y ≤ value x) (limit : Nat) :
    (∀ out, Drawn pick limit pool out → out.Pairwise fun a b => value b ≤ value a) ↔
      Steady pick value limit pool := by
  constructor
  · intro hsorted
    induction limit generalizing pool with
    | zero => exact trivial
    | succ limit ih =>
      cases limit with
      | zero => exact trivial
      | succ limit =>
        rintro l x r rfl hdraw
        constructor
        · intro y hy
          rcases List.mem_cons.1 (List.perm_middle.mem_iff.1 hy) with rfl | hy
          · exact le_rfl
          · -- draw `x`, and next the highest of what is left
            obtain ⟨z, hz, hdraw', hmax⟩ := hpick (l ++ r) rest_subset (List.ne_nil_of_mem hy)
            obtain ⟨l', r', heq⟩ := List.append_of_mem hz
            rw [heq] at hdraw'
            have hsome : ∀ left, left ⊆ l' ++ r' → left ≠ [] → ∃ x ∈ left, pick left x := by
              intro left hsub hne
              have hsub' : l' ++ z :: r' ⊆ l ++ x :: r := heq ▸ rest_subset
              obtain ⟨w, hw, hdraw, -⟩ :=
                hpick left (List.Subset.trans (List.Subset.trans hsub rest_subset) hsub') hne
              exact ⟨w, hw, hdraw⟩
            obtain ⟨out, hout⟩ := exists_drawn hsome limit
            have hrest : Drawn pick (limit + 1) (l ++ r) (z :: out) := by
              rw [heq]
              exact .draw hdraw' hout
            have hle := List.rel_of_pairwise_cons (hsorted _ (.draw hdraw hrest)) List.mem_cons_self
            exact (hmax y hy).trans hle
        · -- the draws after the first are those from the rest
          apply ih fun left hsub => hpick left (List.Subset.trans hsub rest_subset)
          intro out hout
          exact (List.pairwise_cons.1 (hsorted _ (.draw hdraw hout))).2
  · intro hsteady out hout
    exact hsteady.sorted hout

end Value

end Draws
