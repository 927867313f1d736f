import HierKvGateway.Routing.Votes
import Mathlib.Order.Bounds.Basic

/-!
# Routing.Standings — the votes with exact numbers

With exact numbers, the normalised cost is where a candidate stands between the highest and the
lowest cost (`HybridStrategy.normalizeCosts_eq`), and the candidates are ranked by the weighted sum
of their standings (`HybridStrategy.evaluate_rank`).
-/

namespace HierKvGateway

namespace ExtRat

/-- The number, if it is finite. -/
def finite? : ExtRat → Option Rat
  | .num q => some q
  | _ => none

/-- The number, or 0 if it is not finite. -/
def toRat (x : ExtRat) : Rat := x.finite?.getD 0

/-- The number that the bits of a double stand for. -/
def ofBits (bits : F64) : ExtRat :=
  let sign : Rat := if bits.msb then -1 else 1
  let exponent : Nat := bits.toNat / 2 ^ 52 % 2 ^ 11
  let mantissa : Nat := bits.toNat % 2 ^ 52
  if exponent = 2 ^ 11 - 1 then
    if mantissa = 0 then signInf sign else nan
  else if exponent = 0 then num (sign * mantissa / 2 ^ 1074)
  else num (sign * (2 ^ 52 + mantissa) * 2 ^ exponent / 2 ^ 1075)

@[simp] theorem toRat_num (q : Rat) : (num q).toRat = q := rfl

/-- A finite number that is not negative. -/
def NonNegative (x : ExtRat) : Prop := ∃ q : Rat, 0 ≤ q ∧ x = .num q

variable {x y : ExtRat}

theorem nonNegative_ofNat (n : Nat) : (Floating.ofNat n : ExtRat).NonNegative :=
  ⟨n, Nat.cast_nonneg n, ofNat_eq n⟩

theorem NonNegative.add (hx : x.NonNegative) (hy : y.NonNegative) : (x + y).NonNegative := by
  rcases hx with ⟨p, hp, rfl⟩
  rcases hy with ⟨q, hq, rfl⟩
  exact ⟨p + q, add_nonneg hp hq, rfl⟩

theorem NonNegative.mul (hx : x.NonNegative) (hy : y.NonNegative) : (x * y).NonNegative := by
  rcases hx with ⟨p, hp, rfl⟩
  rcases hy with ⟨q, hq, rfl⟩
  exact ⟨p * q, mul_nonneg hp hq, rfl⟩

theorem NonNegative.div (hx : x.NonNegative) (hy : y.NonNegative)
    (hpos : Floating.lt (Floating.ofNat 0) y = true) : (x / y).NonNegative := by
  rcases hx with ⟨p, hp, rfl⟩
  rcases hy with ⟨q, hq, rfl⟩
  rw [ofNat_eq, lt_num, decide_eq_true_eq, Nat.cast_zero] at hpos
  exact ⟨p / q, div_nonneg hp hq, num_div _ _ hpos.ne'⟩

end ExtRat

namespace HybridStrategy

/-! ## The standing of a candidate with a strategy -/

/-- The finite costs. -/
def costs (scores : List (ScoredBackend ExtRat)) : List Rat :=
  scores.filterMap fun s => s.rawCost.finite?

/-- The lowest of some costs. -/
def lowest : List Rat → Rat
  | [] => 0
  | q :: qs => qs.foldl min q

/-- The highest of some costs. -/
def highest : List Rat → Rat
  | [] => 0
  | q :: qs => qs.foldl max q

/-- Where a candidate stands between the highest cost (0) and the lowest (1); without a finite cost
it stands at 0. -/
def standing (scores : List (ScoredBackend ExtRat)) (cand : BackendId) : Rat :=
  match (entryOf scores cand).bind (·.rawCost.finite?) with
  | none => 0
  | some q =>
    let lo := lowest (costs scores)
    let hi := highest (costs scores)
    if lo < hi then (hi - q) / (hi - lo) else 1

variable {scores : List (ScoredBackend ExtRat)} {l : List Rat} {q : Rat}

theorem isLeast_lowest (h : l ≠ []) : IsLeast {q | q ∈ l} (lowest l) := by
  cases l with
  | nil => exact absurd rfl h
  | cons q l => exact List.min?_eq_some_iff.1 List.min?_cons'

theorem isGreatest_highest (h : l ≠ []) : IsGreatest {q | q ∈ l} (highest l) := by
  cases l with
  | nil => exact absurd rfl h
  | cons q l => exact List.max?_eq_some_iff.1 List.max?_cons'

theorem lowest_le (h : q ∈ l) : lowest l ≤ q := (isLeast_lowest (List.ne_nil_of_mem h)).2 h

theorem le_highest (h : q ∈ l) : q ≤ highest l := (isGreatest_highest (List.ne_nil_of_mem h)).2 h

theorem finite?_eq_some_iff {x : ExtRat} : x.finite? = some q ↔ x = .num q := by
  cases x with
  | num p => exact ⟨fun h => congrArg _ (Option.some.inj h), fun h => congrArg _ (ExtRat.num.inj h)⟩
  | _ => exact ⟨nofun, nofun⟩

theorem mem_costs_iff : q ∈ costs scores ↔ ∃ s ∈ scores, s.rawCost = .num q := by
  unfold costs
  rw [List.mem_filterMap]
  exact exists_congr fun s => and_congr_right fun _ => finite?_eq_some_iff

/-- The range of the finite costs, if there are any. -/
theorem costRange_of_ne_nil (h : costs scores ≠ []) :
    costRange scores = (.num (lowest (costs scores)), .num (highest (costs scores))) := by
  have hspec : ∀ {s q}, s ∈ scores → s.rawCost = .num q → _ := fun {s q} hs hcost =>
    costRange_spec hs (RoundedFloating.isFinite_iff.2 ⟨q, hcost⟩)
  obtain ⟨q, hq⟩ := List.exists_mem_of_ne_nil _ h
  obtain ⟨s, hs, hcost⟩ := mem_costs_iff.1 hq
  obtain ⟨⟨a, ha, hfa, hlo⟩, ⟨b, hb, hfb, hhi⟩, -⟩ := hspec hs hcost
  obtain ⟨lo, halo⟩ : ∃ lo, a.rawCost = .num lo := RoundedFloating.isFinite_iff.1 hfa
  obtain ⟨hi, hbhi⟩ : ∃ hi, b.rawCost = .num hi := RoundedFloating.isFinite_iff.1 hfb
  -- the ends are costs, and all costs are between them
  have hbetween : ∀ {q}, q ∈ costs scores → lo ≤ q ∧ q ≤ hi := by
    intro q hq
    obtain ⟨s, hs, hcost⟩ := mem_costs_iff.1 hq
    obtain ⟨-, -, hle, hge⟩ := hspec hs hcost
    rw [hlo, halo, hcost, ExtRat.le_num, decide_eq_true_eq] at hle
    rw [hhi, hbhi, hcost, ExtRat.le_num, decide_eq_true_eq] at hge
    exact ⟨hle, hge⟩
  have hleast : IsLeast {q | q ∈ costs scores} lo :=
    ⟨mem_costs_iff.2 ⟨a, ha, halo⟩, fun q hq => (hbetween hq).1⟩
  have hgreatest : IsGreatest {q | q ∈ costs scores} hi :=
    ⟨mem_costs_iff.2 ⟨b, hb, hbhi⟩, fun q hq => (hbetween hq).2⟩
  rw [← hleast.unique (isLeast_lowest h), ← hgreatest.unique (isGreatest_highest h), ← halo, ← hbhi,
    ← hlo, ← hhi]

/-- The normalised cost of a listed candidate is its standing. -/
theorem normalizeCosts_apply (scores : List (ScoredBackend ExtRat)) (cand : BackendId) :
    normalizeCosts scores cand =
      (entryOf scores cand).map fun _ => ExtRat.num (standing scores cand) := by
  have hkeys : ∀ value : ScoredBackend ExtRat → ExtRat,
      (scores.map fun s => if Floating.isFinite s.rawCost then (s.backendId, value s)
        else (s.backendId, Floating.ofNat 0)) =
      scores.map fun s =>
        (s.backendId, if Floating.isFinite s.rawCost then value s else Floating.ofNat 0) := by
    intro value
    apply List.map_congr_left
    intro s _
    split
    · rfl
    · rfl
  unfold normalizeCosts standing
  rcases hrange : costRange scores with ⟨lo, hi⟩
  dsimp only
  rw [hkeys, LastWrite.apply_eq, LastWrite.valuesAt_map, List.getLast?_map, Option.or_none]
  change (entryOf scores cand).map _ = _
  rcases hentry : entryOf scores cand with _ | s
  · rfl
  · rcases mem_of_entryOf hentry with ⟨hmem, -⟩
    rw [Option.map_some, Option.map_some, Option.bind_some]
    congr 1
    -- a cost that is not finite is a standing of 0
    rcases hcost : s.rawCost with _ | _ | q | _
    · exact (ExtRat.ofNat_eq 0).trans (by rw [Nat.cast_zero]; rfl)
    · exact (ExtRat.ofNat_eq 0).trans (by rw [Nat.cast_zero]; rfl)
    · have hne : costs scores ≠ [] := by
        apply List.ne_nil_of_mem (a := q)
        exact List.mem_filterMap.2 ⟨s, hmem, by rw [hcost]; rfl⟩
      rw [costRange_of_ne_nil hne] at hrange
      rcases Prod.mk.inj hrange with ⟨rfl, rfl⟩
      show Floating.ofNat 1 - (if Floating.lt (Floating.ofNat 0) _ then _ else _) =
        ExtRat.num (if _ then _ else _)
      rw [ExtRat.ofNat_eq, ExtRat.ofNat_eq, ExtRat.num_sub, ExtRat.num_sub, ExtRat.lt_num,
        Nat.cast_zero, Nat.cast_one]
      by_cases hspan : lowest (costs scores) < highest (costs scores)
      · have hpos := sub_pos.2 hspan
        rw [if_pos (decide_eq_true hpos), if_pos hspan, ExtRat.num_div _ _ hpos.ne', ExtRat.num_sub,
          one_sub_div hpos.ne']
        congr 2
        abel
      · rw [if_neg (by simpa using hspan), if_neg hspan, ExtRat.num_sub, sub_zero]
    · exact (ExtRat.ofNat_eq 0).trans (by rw [Nat.cast_zero]; rfl)

/-- The normalised cost of a candidate is its standing. -/
theorem normalizeCosts_eq (scores : List (ScoredBackend ExtRat)) (cand : BackendId) :
    (normalizeCosts scores cand).getD (Floating.ofNat 0) = .num (standing scores cand) := by
  rw [normalizeCosts_apply]
  rcases hentry : entryOf scores cand with _ | s
  · rw [Option.map_none, Option.getD_none, ExtRat.ofNat_eq, Nat.cast_zero]
    unfold standing
    rw [hentry]
    rfl
  · rw [Option.map_some, Option.getD_some]

/-! ## Votes -/

/-- The weighted sum of the standings of a candidate. -/
def tally (votes : List (Vote ExtRat)) : BackendId → Rat :=
  Ranking.total (fun v => v.weight.toRat) (fun v => standing v.scores) votes

theorem tally_cons (v : Vote ExtRat) (votes : List (Vote ExtRat)) (cand : BackendId) :
    tally (v :: votes) cand = v.weight.toRat * standing v.scores cand + tally votes cand :=
  List.sum_cons

/-- Exact numbers do not overflow. -/
theorem spanFinite_exact (scores : List (ScoredBackend ExtRat)) : SpanFinite scores := by
  intro a _ b _ hfa hfb
  obtain ⟨p, hp⟩ := RoundedFloating.isFinite_iff.1 hfa
  obtain ⟨q, hq⟩ := RoundedFloating.isFinite_iff.1 hfb
  have hp : a.rawCost = .num p := hp
  have hq : b.rawCost = .num q := hq
  rw [hp, hq, ExtRat.num_sub]
  rfl

/-- What the votes count is the weighted sum. -/
theorem total_exact {votes : List (Vote ExtRat)} (hweights : ∀ v ∈ votes, v.weight.NonNegative)
    (cand : BackendId) : total votes cand = .num (tally votes cand) := by
  suffices hacc : ∀ q : Rat, addUp (.num q) votes cand = .num (q + tally votes cand) by
    unfold total
    rw [ExtRat.ofNat_eq, hacc, Nat.cast_zero, zero_add]
  induction votes with
  | nil => exact fun q => congrArg ExtRat.num (add_zero q).symm
  | cons v votes ih =>
    obtain ⟨⟨weight, -, hweight⟩, hweights⟩ := List.forall_mem_cons.1 hweights
    intro q
    have hterm : v.weight * normalized v.scores cand =
        .num (v.weight.toRat * standing v.scores cand) := by
      unfold normalized
      rw [normalizeCosts_eq, hweight, ExtRat.num_mul, ExtRat.toRat_num]
    show addUp (.num q + v.weight * normalized v.scores cand) votes cand = _
    rw [hterm, ExtRat.num_add, ih hweights, tally_cons, add_assoc]

/-! ## The ranking -/

variable {σ : Type} {ctx : RoutingContext} {candidates : List BackendId}
  {store : MetadataStore ExtRat}

/-- A candidate with the tally of the votes. -/
def tallied (votes : List (Vote ExtRat)) (cand : BackendId) : ScoredBackend ExtRat :=
  ⟨cand, .num (tally votes cand), -.num (tally votes cand), 0⟩

/-- What `evaluate` returns are the candidates that passed, ranked by the tally of the votes. -/
theorem evaluate_eq {h : HybridStrategy ExtRat σ} (hw : h.NonNegative) {s s' : σ}
    {ranked : List (ScoredBackend ExtRat)}
    (hres : h.evaluate ctx candidates store s = (.ok ranked, s')) :
    ranked = (Ranking.rank (tally (h.votes ctx candidates store s))
      (h.passed ctx candidates store s)).map (tallied (h.votes ctx candidates store s)) := by
  obtain ⟨score, hscore, rfl⟩ := evaluate_ranked hw (fun v _ => spanFinite_exact v.scores) hres
  have htotal : ∀ cand, total (h.votes ctx candidates store s) cand =
      .num (tally (h.votes ctx candidates store s) cand) :=
    total_exact fun v hv => nonNegative_weight hw hv
  have htallied : (fun cand => (⟨cand, score cand, -score cand, 0⟩ : ScoredBackend ExtRat)) =
      tallied (h.votes ctx candidates store s) := by
    funext cand
    have hsame : score cand = .num (tally (h.votes ctx candidates store s) cand) :=
      (hscore cand).trans (htotal cand)
    rw [hsame]
    rfl
  rw [htallied]
  congr 1
  refine Ranking.rank_congr fun a b => ?_
  rw [htotal, htotal]
  exact WithBot.coe_le_coe.trans WithTop.coe_le_coe

theorem evaluate_rank {h : HybridStrategy ExtRat σ} (hw : h.NonNegative) {s s' : σ}
    {ranked : List (ScoredBackend ExtRat)}
    (hres : h.evaluate ctx candidates store s = (.ok ranked, s')) :
    ranked.map (·.backendId) =
      Ranking.rank (tally (h.votes ctx candidates store s)) (h.passed ctx candidates store s) := by
  rw [evaluate_eq hw hres, List.map_map]
  exact List.map_id _

end HybridStrategy

end HierKvGateway
