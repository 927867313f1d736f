import Mathlib.Algebra.BigOperators.Group.List.Basic
import Mathlib.Algebra.Order.BigOperators.Group.List
import Mathlib.Algebra.Order.Ring.Defs
import Mathlib.Data.List.Perm.Basic
import Mathlib.Tactic.Abel
import Mathlib.Tactic.Linarith
import Mathlib.Tactic.Ring

/-!
# Lib.Ranking — ranking by a weighted sum

Candidates are ranked by a value, the highest first, and candidates with the same value stay in
order: `pair_sublist_rank_iff` says which of two comes first, and `countP_lt_of_mem_take` how many
are in front of one of the first few. The value may be a weighted sum of
the scores that some voters give (`total`). Then a candidate comes after another if its lead with
some of the voters outweighs the other's lead with the rest (`lead_filter_sub`).
-/

namespace Ranking

variable {α ι K : Type*}

/-! ## Ranking by a value -/

section Value

variable [LinearOrder K] {value : α → K} {l c : List α} {x y : α}

/-- The candidates, the highest value first. -/
def rank (value : α → K) (l : List α) : List α :=
  l.mergeSort fun a b => decide (value b ≤ value a)

@[simp] theorem rank_nil : rank value [] = [] := List.mergeSort_nil

/-- Values in the same order rank alike. -/
theorem rank_congr {K' : Type*} [LinearOrder K'] {value' : α → K'}
    (h : ∀ a b, value b ≤ value a ↔ value' b ≤ value' a) : rank value l = rank value' l := by
  unfold rank
  congr 1
  funext a b
  exact decide_eq_decide.2 (h a b)

theorem rank_perm : (rank value l).Perm l := List.mergeSort_perm l _

@[simp] theorem mem_rank : x ∈ rank value l ↔ x ∈ l := List.mem_mergeSort

theorem pairwise_rank : (rank value l).Pairwise fun a b => value b ≤ value a := by
  have hsorted : (rank value l).Pairwise fun a b => decide (value b ≤ value a) = true := by
    apply List.pairwise_mergeSort
    · intro a b c hab hbc
      exact decide_eq_true (le_trans (of_decide_eq_true hbc) (of_decide_eq_true hab))
    · intro a b
      rw [Bool.or_eq_true, decide_eq_true_eq, decide_eq_true_eq]
      exact le_total (value b) (value a)
  exact hsorted.imp of_decide_eq_true

/-- What is in order stays in order. -/
theorem sublist_rank (hc : c.Pairwise fun a b => value b ≤ value a) (h : c.Sublist l) :
    c.Sublist (rank value l) := by
  apply List.sublist_mergeSort
  · intro a b c hab hbc
    exact decide_eq_true (le_trans (of_decide_eq_true hbc) (of_decide_eq_true hab))
  · intro a b
    rw [Bool.or_eq_true, decide_eq_true_eq, decide_eq_true_eq]
    exact le_total (value b) (value a)
  · exact hc.imp decide_eq_true
  · exact h

/-- Candidates with one value stay as they are. -/
theorem filter_rank {p : α → Bool} (hp : ∀ a b, p a = true → p b = true → value a = value b) :
    (rank value l).filter p = l.filter p := by
  have htied : (l.filter p).Pairwise fun a b => value b ≤ value a := by
    apply List.pairwise_of_forall_mem_list
    intro a ha b hb
    exact (hp b a (List.of_mem_filter hb) (List.of_mem_filter ha)).le
  have hsub := (sublist_rank htied List.filter_sublist).filter p
  simp only [List.filter_filter, Bool.and_self] at hsub
  exact (hsub.eq_of_length (rank_perm.filter p).length_eq.symm).symm

theorem pair_sublist_or (hx : x ∈ l) (hy : y ∈ l) (hne : x ≠ y) :
    [x, y].Sublist l ∨ [y, x].Sublist l := by
  rcases List.append_of_mem hx with ⟨before, after, rfl⟩
  rcases List.mem_append.1 hy with hy | hy
  · right
    have hpair : ([y] ++ [x]).Sublist (before ++ x :: after) :=
      (List.singleton_sublist.2 hy).append (List.singleton_sublist.2 List.mem_cons_self)
    exact hpair
  · left
    have hy := (List.mem_cons.1 hy).resolve_left hne.symm
    exact ((List.singleton_sublist.2 hy).cons_cons x).trans (List.sublist_append_right before _)

/-- One candidate comes before another if its value is higher, or the same and it came before. -/
theorem pair_sublist_rank_iff [DecidableEq α] (hx : x ∈ l) (hy : y ∈ l) (hne : x ≠ y) :
    [x, y].Sublist (rank value l) ↔
      value y < value x ∨ value y = value x ∧ [x, y].Sublist l := by
  by_cases htie : value y = value x
  · -- among these two nothing changes
    have hp : ∀ a b, decide (a = x ∨ a = y) = true → decide (b = x ∨ b = y) = true →
        value a = value b := by
      intro a b ha hb
      rcases of_decide_eq_true ha with rfl | rfl
      · rcases of_decide_eq_true hb with rfl | rfl
        · rfl
        · exact htie.symm
      · rcases of_decide_eq_true hb with rfl | rfl
        · exact htie
        · rfl
    have hsame := filter_rank (l := l) hp
    have hfilter : ∀ l' : List α,
        [x, y].Sublist l' ↔ [x, y].Sublist (l'.filter fun a => decide (a = x ∨ a = y)) := by
      intro l'
      constructor
      · intro h
        have hkeep := h.filter fun a => decide (a = x ∨ a = y)
        simpa using hkeep
      · intro h
        exact h.trans List.filter_sublist
    rw [hfilter, hsame, ← hfilter]
    simp [htie]
  · constructor
    · intro h
      have hle := List.pairwise_iff_forall_sublist.1 pairwise_rank h
      exact Or.inl (lt_of_le_of_ne hle htie)
    · rintro (hlt | ⟨heq, -⟩)
      · -- the two are there, and not the other way round
        rcases pair_sublist_or (l := rank value l) (mem_rank.2 hx) (mem_rank.2 hy) hne with h | h
        · exact h
        · exact absurd (List.pairwise_iff_forall_sublist.1 pairwise_rank h) (not_le.2 hlt)
      · exact absurd heq htie

/-- Fewer than `k` have a higher value than one of the first `k`. -/
theorem countP_lt_of_mem_take (value : α → K) {k : Nat} (h : x ∈ (rank value l).take k) :
    l.countP (fun a => value x < value a) < k := by
  rcases List.append_of_mem h with ⟨before, after, htake⟩
  have hlen := List.length_take_le k (rank value l)
  rw [htake, List.length_append, List.length_cons] at hlen
  have hsplit := List.take_append_drop k (rank value l)
  rw [htake, List.append_assoc, List.cons_append] at hsplit
  have hsorted : (rank value l).Pairwise fun a b => value b ≤ value a := pairwise_rank
  rw [← hsplit, List.pairwise_append] at hsorted
  have hlater := (List.pairwise_cons.1 hsorted.2.1).1
  -- what has a higher value is in front of `x`
  have hnone : (after ++ (rank value l).drop k).countP (fun a => value x < value a) = 0 := by
    rw [List.countP_eq_zero]
    intro a ha hlt
    exact absurd (of_decide_eq_true hlt) (not_lt.2 (hlater a ha))
  have hperm : (rank value l).Perm l := rank_perm
  rw [← hperm.countP_eq, ← hsplit, List.countP_append, List.countP_cons, hnone,
    decide_eq_false (lt_irrefl (value x))]
  have hbefore := List.countP_le_length (l := before) (p := fun a => decide (value x < value a))
  simp only [Bool.false_eq_true, if_false, Nat.add_zero]
  omega

end Value

/-! ## Weighted sums -/

section Sum

variable [CommRing K] (weight : ι → K) (score : ι → α → K) (votes : List ι)

/-- The weighted sum of the scores of a candidate. -/
def total (c : α) : K := (votes.map fun v => weight v * score v c).sum

/-- By how much a candidate leads another. -/
def lead (a b : α) : K := (votes.map fun v => weight v * (score v a - score v b)).sum

theorem lead_eq (a b : α) :
    lead weight score votes a b = total weight score votes a - total weight score votes b := by
  unfold lead total
  induction votes with
  | nil => simp
  | cons v votes ih =>
    simp only [List.map_cons, List.sum_cons, ih]
    ring

theorem lead_swap (a b : α) : lead weight score votes a b = -lead weight score votes b a := by
  rw [lead_eq, lead_eq, neg_sub]

/-- The lead with some voters and with the others. -/
theorem lead_filter (p : ι → Bool) (a b : α) :
    lead weight score votes a b =
      lead weight score (votes.filter p) a b + lead weight score (votes.filter fun v => !p v) a b := by
  unfold lead
  induction votes with
  | nil => simp
  | cons v votes ih =>
    rw [List.map_cons, List.sum_cons, ih]
    cases hp : p v with
    | false =>
      rw [List.filter_cons_of_neg (by simp [hp]), List.filter_cons_of_pos (by simp [hp]),
        List.map_cons, List.sum_cons]
      abel
    | true =>
      rw [List.filter_cons_of_pos (by simp [hp]), List.filter_cons_of_neg (by simp [hp]),
        List.map_cons, List.sum_cons]
      abel

/-- The lead with some voters against that of the other candidate with the rest. -/
theorem lead_filter_sub (p : ι → Bool) (a b : α) :
    lead weight score (votes.filter p) a b - lead weight score (votes.filter fun v => !p v) b a =
      total weight score votes a - total weight score votes b := by
  rw [← lead_eq, lead_filter weight score votes p, lead_swap _ _ _ b a, sub_neg_eq_add]

end Sum

section Order

variable [CommRing K] [LinearOrder K] [IsStrictOrderedRing K] {weight : ι → K} {score : ι → α → K}
  {votes : List ι} {a b : α}

/-- Who is not behind with any voter is not behind in total. -/
theorem total_mono (hweight : ∀ v ∈ votes, 0 ≤ weight v)
    (hscore : ∀ v ∈ votes, score v a ≤ score v b) :
    total weight score votes a ≤ total weight score votes b := by
  apply List.sum_le_sum
  intro v hv
  exact mul_le_mul_of_nonneg_left (hscore v hv) (hweight v hv)

/-- And who is ahead with one whose vote weighs is ahead in total. -/
theorem total_lt (hweight : ∀ v ∈ votes, 0 ≤ weight v)
    (hscore : ∀ v ∈ votes, score v a ≤ score v b) {v : ι} (hv : v ∈ votes) (hpos : 0 < weight v)
    (hlt : score v a < score v b) : total weight score votes a < total weight score votes b := by
  apply List.sum_lt_sum
  · intro v hv
    exact mul_le_mul_of_nonneg_left (hscore v hv) (hweight v hv)
  · exact ⟨v, hv, mul_lt_mul_of_pos_left hlt hpos⟩

theorem total_nonneg (hweight : ∀ v ∈ votes, 0 ≤ weight v) (hscore : ∀ v ∈ votes, 0 ≤ score v a) :
    0 ≤ total weight score votes a := by
  apply List.sum_nonneg
  intro x hx
  rcases List.mem_map.1 hx with ⟨v, hv, rfl⟩
  exact mul_nonneg (hweight v hv) (hscore v hv)

/-- With scores of at most 1, the total is at most the sum of the weights. -/
theorem total_le_sum (hweight : ∀ v ∈ votes, 0 ≤ weight v) (hscore : ∀ v ∈ votes, score v a ≤ 1) :
    total weight score votes a ≤ (votes.map weight).sum := by
  apply List.sum_le_sum
  intro v hv
  exact mul_le_of_le_one_right (hweight v hv) (hscore v hv)

end Order

end Ranking
