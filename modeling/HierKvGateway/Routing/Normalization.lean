import HierKvGateway.Routing.Exclusion

/-!
# Routing.Normalization — what an exclusion does to the costs of the others

The costs of a strategy are normalised by their range (`HybridStrategy::normalize_costs`). Costs that
are not finite are left out of the range, so that excluded candidates do not count; but `f64::MAX`,
with which two of the strategies exclude, is finite.

`HybridStrategy.ignoresExcluded_iff`: the excluded candidates do not count exactly if none of them
has the cost `f64::MAX`, or the others are where `f64::MAX` would put them anyway.
-/

namespace HierKvGateway

/-- `f64::MAX`. -/
def ExtRat.maxRat : Rat := (2 ^ 53 - 1) * 2 ^ 971

theorem ExtRat.maxValue_eq : (Floating.maxValue : ExtRat) = .num maxRat := rfl

namespace HybridStrategy

variable {scores : List (ScoredBackend ExtRat)} {s : ScoredBackend ExtRat} {cand : BackendId}
  {q : Rat}

/-! ## The standing of a listed candidate -/

theorem entryOf_of_mem (hnodup : (scores.map (·.backendId)).Nodup) (hs : s ∈ scores) :
    entryOf scores s.backendId = some s := by
  rcases hentry : entryOf scores s.backendId with _ | s'
  · have hnil := List.getLast?_eq_none_iff.1 hentry
    have hmem : s ∈ scores.filter fun s' => s'.backendId = s.backendId :=
      List.mem_filter.2 ⟨hs, decide_eq_true rfl⟩
    rw [hnil] at hmem
    exact absurd hmem List.not_mem_nil
  · obtain ⟨hmem, hid⟩ := mem_of_entryOf hentry
    rw [List.inj_on_of_nodup_map hnodup hmem hs hid]

theorem standing_of_none (h : (entryOf scores cand).bind (·.rawCost.finite?) = none) :
    standing scores cand = 0 := by
  unfold standing
  rw [h]

theorem standing_of_some (h : (entryOf scores cand).bind (·.rawCost.finite?) = some q) :
    standing scores cand =
      if lowest (costs scores) < highest (costs scores) then
        (highest (costs scores) - q) / (highest (costs scores) - lowest (costs scores))
      else 1 := by
  unfold standing
  rw [h]

/-- A candidate without a finite cost stands at 0. -/
theorem standing_of_infinite (hnodup : (scores.map (·.backendId)).Nodup) (hs : s ∈ scores)
    (hcost : s.rawCost.finite? = none) : standing scores s.backendId = 0 := by
  apply standing_of_none
  rw [entryOf_of_mem hnodup hs, Option.bind_some, hcost]

/-- A candidate stands where its cost is in the range. -/
theorem standing_of_cost (hnodup : (scores.map (·.backendId)).Nodup) (hs : s ∈ scores)
    (hcost : s.rawCost = .num q) :
    standing scores s.backendId =
      if lowest (costs scores) < highest (costs scores) then
        (highest (costs scores) - q) / (highest (costs scores) - lowest (costs scores))
      else 1 := by
  apply standing_of_some
  rw [entryOf_of_mem hnodup hs, Option.bind_some, hcost]
  rfl

/-- A standing is between 0 and 1. -/
theorem standing_mem_unit (scores : List (ScoredBackend ExtRat)) (cand : BackendId) :
    0 ≤ standing scores cand ∧ standing scores cand ≤ 1 := by
  rcases hentry : (entryOf scores cand).bind (·.rawCost.finite?) with _ | q
  · rw [standing_of_none hentry]
    exact ⟨le_rfl, zero_le_one⟩
  · obtain ⟨s, hs, hcost⟩ := Option.bind_eq_some_iff.1 hentry
    have hmem : q ∈ costs scores :=
      mem_costs_iff.2 ⟨s, (mem_of_entryOf hs).1, finite?_eq_some_iff.1 hcost⟩
    rw [standing_of_some hentry]
    split
    · rename_i hspan
      have hpos := sub_pos.2 hspan
      have hle : highest (costs scores) - q ≤ highest (costs scores) - lowest (costs scores) :=
        sub_le_sub_left (lowest_le hmem) _
      exact ⟨div_nonneg (sub_nonneg.2 (le_highest hmem)) hpos.le, div_le_one_of_le₀ hle hpos.le⟩
    · exact ⟨zero_le_one, le_rfl⟩

theorem normalizeCosts_of_mem (hnodup : (scores.map (·.backendId)).Nodup) (hs : s ∈ scores) :
    normalizeCosts scores s.backendId = some (.num (standing scores s.backendId)) := by
  rw [normalizeCosts_apply, entryOf_of_mem hnodup hs, Option.map_some]

/-! ## Exclusion -/

/-- The candidates that are not excluded. -/
def admitted (scores : List (ScoredBackend ExtRat)) : List (ScoredBackend ExtRat) :=
  scores.filter fun s => ¬s.Excluded

/-- An excluded candidate gets 0, and the others get what they would get without it. -/
def IgnoresExcluded (scores : List (ScoredBackend ExtRat)) : Prop :=
  ∀ s ∈ scores, normalizeCosts scores s.backendId =
    if s.Excluded then some (Floating.ofNat 0) else normalizeCosts (admitted scores) s.backendId

/-- Nobody is excluded with `f64::MAX`; or the finite costs of the others are lower, and either they
are all the same or the highest is `f64::MAX` as well. -/
def MaxHarmless (scores : List (ScoredBackend ExtRat)) : Prop :=
  (∃ s ∈ scores, s.Excluded ∧ s.rawCost = Floating.maxValue) →
    costs (admitted scores) ≠ [] ∧ lowest (costs (admitted scores)) < ExtRat.maxRat ∧
      highest (costs (admitted scores)) ≤ ExtRat.maxRat ∧
        (lowest (costs (admitted scores)) = highest (costs (admitted scores)) ∨
          highest (costs (admitted scores)) = ExtRat.maxRat)

theorem mem_admitted_iff : s ∈ admitted scores ↔ s ∈ scores ∧ ¬s.Excluded := by
  unfold admitted
  rw [List.mem_filter, decide_eq_true_eq]

theorem nodup_admitted (hnodup : (scores.map (·.backendId)).Nodup) :
    ((admitted scores).map (·.backendId)).Nodup :=
  hnodup.sublist (List.filter_sublist.map _)

/-- Without an exclusion by `f64::MAX`, the finite costs are those of the others. -/
theorem costs_admitted (h : ¬∃ s ∈ scores, s.Excluded ∧ s.rawCost = Floating.maxValue) :
    costs (admitted scores) = costs scores := by
  unfold costs admitted
  rw [List.filterMap_filter]
  apply List.filterMap_congr
  intro s hs
  split
  · rfl
  · rename_i hexcluded
    have hexcluded : s.Excluded := by simpa using hexcluded
    rcases hexcluded.2 with hmax | hinf
    · exact absurd ⟨s, hs, hexcluded, hmax⟩ h
    · rw [hinf]
      rfl

/-- With one, `f64::MAX` is one of the costs. -/
theorem mem_costs_iff_of_max (h : ∃ s ∈ scores, s.Excluded ∧ s.rawCost = Floating.maxValue) :
    q ∈ costs scores ↔ q = ExtRat.maxRat ∨ q ∈ costs (admitted scores) := by
  rw [mem_costs_iff, mem_costs_iff]
  constructor
  · rintro ⟨s, hs, hcost⟩
    by_cases hexcluded : s.Excluded
    · left
      rcases hexcluded.2 with hmax | hinf
      · exact ExtRat.num.inj (hcost.symm.trans hmax)
      · exact absurd (hcost.symm.trans hinf) nofun
    · exact Or.inr ⟨s, mem_admitted_iff.2 ⟨hs, hexcluded⟩, hcost⟩
  · rintro (rfl | ⟨s, hs, hcost⟩)
    · obtain ⟨s, hs, -, hmax⟩ := h
      exact ⟨s, hs, hmax⟩
    · exact ⟨s, (mem_admitted_iff.1 hs).1, hcost⟩

theorem range_of_max (h : ∃ s ∈ scores, s.Excluded ∧ s.rawCost = Floating.maxValue)
    (hne : costs (admitted scores) ≠ []) :
    lowest (costs scores) = min ExtRat.maxRat (lowest (costs (admitted scores))) ∧
      highest (costs scores) = max ExtRat.maxRat (highest (costs (admitted scores))) := by
  have hset : {q | q ∈ costs scores} = insert ExtRat.maxRat {q | q ∈ costs (admitted scores)} :=
    Set.ext fun _ => mem_costs_iff_of_max h
  have hcosts : costs scores ≠ [] :=
    List.ne_nil_of_mem ((mem_costs_iff_of_max h).2 (Or.inl rfl))
  have hleast := isLeast_lowest hcosts
  have hgreatest := isGreatest_highest hcosts
  rw [hset] at hleast hgreatest
  exact ⟨hleast.unique ((isLeast_lowest hne).insert _),
    hgreatest.unique ((isGreatest_highest hne).insert _)⟩

/-- An exclusion by `f64::MAX` counts for 0 only if `f64::MAX` is the highest cost and not all. -/
theorem range_of_standing_eq_zero (hnodup : (scores.map (·.backendId)).Nodup) (hs : s ∈ scores)
    (hmax : s.rawCost = Floating.maxValue) (hzero : standing scores s.backendId = 0) :
    lowest (costs scores) < ExtRat.maxRat ∧ highest (costs scores) = ExtRat.maxRat := by
  rw [standing_of_cost hnodup hs hmax] at hzero
  split at hzero
  · rename_i hspan
    have hhigh := (div_eq_zero_iff.1 hzero).resolve_right (sub_pos.2 hspan).ne'
    have heq : highest (costs scores) = ExtRat.maxRat := sub_eq_zero.1 hhigh
    exact ⟨hspan.trans_eq heq, heq⟩
  · exact absurd hzero one_ne_zero

theorem ignoresExcluded_of_not_max (hnodup : (scores.map (·.backendId)).Nodup)
    (h : ¬∃ s ∈ scores, s.Excluded ∧ s.rawCost = Floating.maxValue) : IgnoresExcluded scores := by
  intro s hs
  rw [normalizeCosts_of_mem hnodup hs]
  split
  · -- what is left to exclude with is the infinity
    rename_i hexcluded
    have hinf := hexcluded.2.resolve_left fun hmax => h ⟨s, hs, hexcluded, hmax⟩
    rw [standing_of_infinite hnodup hs (by rw [hinf]; rfl), ExtRat.ofNat_eq, Nat.cast_zero]
  · rename_i hadmitted
    have hs' := mem_admitted_iff.2 ⟨hs, hadmitted⟩
    have hnodup' := nodup_admitted hnodup
    rw [normalizeCosts_of_mem hnodup' hs']
    unfold standing
    rw [entryOf_of_mem hnodup hs, entryOf_of_mem hnodup' hs', costs_admitted h]

/-- Where `f64::MAX` leaves the others as they are, an exclusion by it does not count. -/
theorem ignoresExcluded_of_max (hnodup : (scores.map (·.backendId)).Nodup)
    (hsome : ∃ s ∈ scores, s.Excluded ∧ s.rawCost = Floating.maxValue)
    (hharmless : MaxHarmless scores) : IgnoresExcluded scores := by
  have hnodup' := nodup_admitted hnodup
  obtain ⟨hne, hlow, hhigh, hrange⟩ := hharmless hsome
  obtain ⟨hmin, hmaxeq⟩ := range_of_max hsome hne
  rw [min_eq_right hlow.le] at hmin
  rw [max_eq_left hhigh] at hmaxeq
  have hspan : 0 < ExtRat.maxRat - lowest (costs (admitted scores)) := sub_pos.2 hlow
  intro s hs
  rw [normalizeCosts_of_mem hnodup hs]
  split
  · rename_i hexcluded
    rw [ExtRat.ofNat_eq, Nat.cast_zero]
    rcases hexcluded.2 with hmax | hinf
    · have hcost : s.rawCost = .num ExtRat.maxRat := hmax.trans ExtRat.maxValue_eq
      rw [standing_of_cost hnodup hs hcost, hmin, hmaxeq, if_pos hlow, sub_self, zero_div]
    · rw [standing_of_infinite hnodup hs (by rw [hinf]; rfl)]
  · rename_i hadmitted
    have hs' := mem_admitted_iff.2 ⟨hs, hadmitted⟩
    rw [normalizeCosts_of_mem hnodup' hs']
    rcases hcost : s.rawCost.finite? with _ | q
    · rw [standing_of_infinite hnodup hs hcost, standing_of_infinite hnodup' hs' hcost]
    · have hcost := finite?_eq_some_iff.1 hcost
      rw [standing_of_cost hnodup hs hcost, standing_of_cost hnodup' hs' hcost, hmin, hmaxeq,
        if_pos hlow]
      rcases hrange with heq | heq
      · -- all alike: 1 with and without
        have hmem := mem_costs_iff.2 ⟨s, hs', hcost⟩
        have hq := le_antisymm ((le_highest hmem).trans_eq heq.symm) (lowest_le hmem)
        rw [if_neg heq.not_lt, hq, div_self hspan.ne']
      · rw [heq, if_pos hlow]

/-- If they are not counted, then `f64::MAX` leaves the others as they are. -/
theorem maxHarmless_of_ignoresExcluded (hnodup : (scores.map (·.backendId)).Nodup)
    (hignores : IgnoresExcluded scores) : MaxHarmless scores := by
  rintro ⟨s, hs, hexcluded, hmax⟩
  have hnodup' := nodup_admitted hnodup
  have hsome : ∃ s ∈ scores, s.Excluded ∧ s.rawCost = Floating.maxValue := ⟨s, hs, hexcluded, hmax⟩
  have hzero := hignores s hs
  rw [normalizeCosts_of_mem hnodup hs, if_pos hexcluded, ExtRat.ofNat_eq, Nat.cast_zero] at hzero
  have hstanding := ExtRat.num.inj (Option.some.inj hzero)
  obtain ⟨hlow, hhigh⟩ := range_of_standing_eq_zero hnodup hs hmax hstanding
  have hne : costs (admitted scores) ≠ [] := by
    intro hnil
    have hleast := isLeast_lowest (List.ne_nil_of_mem ((mem_costs_iff_of_max hsome).2 (Or.inl rfl)))
    rcases (mem_costs_iff_of_max hsome).1 hleast.1 with heq | hmem
    · exact absurd heq hlow.ne
    · rw [hnil] at hmem
      exact absurd hmem List.not_mem_nil
  obtain ⟨hmin, hmaxeq⟩ := range_of_max hsome hne
  rw [hmin] at hlow
  rw [hmaxeq] at hhigh
  have hlow' : lowest (costs (admitted scores)) < ExtRat.maxRat :=
    (min_lt_iff.1 hlow).resolve_left (lt_irrefl _)
  refine ⟨hne, hlow', max_eq_left_iff.1 hhigh, ?_⟩
  -- without the excluded ones, the candidate of the highest cost is at 0
  obtain ⟨t, ht, hcost⟩ := mem_costs_iff.1 (isGreatest_highest hne).1
  obtain ⟨htmem, htadmitted⟩ := mem_admitted_iff.1 ht
  have hsame := hignores t htmem
  rw [if_neg htadmitted, normalizeCosts_of_mem hnodup htmem, normalizeCosts_of_mem hnodup' ht] at hsame
  have hsame := ExtRat.num.inj (Option.some.inj hsame)
  rw [standing_of_cost hnodup htmem hcost, standing_of_cost hnodup' ht hcost, hmin, hmaxeq, hhigh,
    min_eq_right hlow'.le, if_pos hlow'] at hsame
  split at hsame
  · rw [sub_self, zero_div, div_eq_zero_iff] at hsame
    rcases hsame with heq | heq
    · exact Or.inr (sub_eq_zero.1 heq).symm
    · exact absurd heq (sub_pos.2 hlow').ne'
  · rename_i hspan
    have hle := lowest_le (isGreatest_highest hne).1
    exact Or.inl (le_antisymm hle (not_lt.1 hspan))

/-- The excluded candidates do not count exactly if no exclusion by `f64::MAX` does. -/
theorem ignoresExcluded_iff (hnodup : (scores.map (·.backendId)).Nodup) :
    IgnoresExcluded scores ↔ MaxHarmless scores := by
  constructor
  · intro hignores
    exact maxHarmless_of_ignoresExcluded hnodup hignores
  · intro hharmless
    by_cases hsome : ∃ s ∈ scores, s.Excluded ∧ s.rawCost = Floating.maxValue
    · exact ignoresExcluded_of_max hnodup hsome hharmless
    · exact ignoresExcluded_of_not_max hnodup hsome

/-! ### A backend without metrics

The load-aware strategy scores two backends with one and two active requests and one without
metrics. -/

/-- The third backend. -/
def unknown : BackendId := ⟨⟨"r1"⟩, ⟨"c"⟩⟩

/-- The loads of the three backends. -/
def threeLoads : MetadataStore ExtRat :=
  { TwoBackends.store .new with
    loadGetMetrics := fun backend =>
      if backend = TwoBackends.first then some (metricsOf 1 0)
      else if backend = TwoBackends.second then some (metricsOf 2 0)
      else none }

/-- What the load-aware strategy says of some backends. -/
def loadScores (candidates : List BackendId) : List (ScoredBackend ExtRat) :=
  candidates.map (LoadAwareStrategy.default.scoreOf ExtRat.ofBits RoutingContext.default threeLoads)

/-- Beside a single other backend, the one without metrics is excluded and does not count. -/
theorem ignoresExcluded_single :
    IgnoresExcluded (loadScores [TwoBackends.first, unknown]) ∧
      ∃ s ∈ loadScores [TwoBackends.first, unknown], s.Excluded := by
  constructor
  · refine (ignoresExcluded_iff (by decide +kernel)).2 fun _ => ?_
    decide +kernel
  · decide +kernel

/-- With a backend without metrics, the second one gets almost 1 and not 0. -/
theorem not_ignoresExcluded_unknown :
    ((loadScores [TwoBackends.first, TwoBackends.second, unknown]).map (·.backendId)).Nodup ∧
      ¬IgnoresExcluded (loadScores [TwoBackends.first, TwoBackends.second, unknown]) := by
  constructor
  · decide +kernel
  · unfold IgnoresExcluded
    decide +kernel

end HybridStrategy

end HierKvGateway
