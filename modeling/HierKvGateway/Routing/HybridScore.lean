import HierKvGateway.Routing.Normalization
import Mathlib.Algebra.BigOperators.Ring.List

/-!
# Routing.HybridScore — what the hybrid scores are

The hybrid score of a candidate is a mean of its standings: the weights of a decision add up to 1
(`sum_normalizeWeights`), whatever is unavailable or stale and however many plugins there are, and a
standing falls with the cost (`standing_antitone`).

`HybridStrategy.evaluate_scores`: hence the scores are between 0 and 1 and in order, and a candidate
that is nowhere more expensive than another one scores at least as much.
-/

namespace HierKvGateway

/-- The strategy returns one cost for each candidate, a number or infinity. -/
def RoutingStrategy.OneCostEach {σ : Type} (p : RoutingStrategy ExtRat σ) (ctx : RoutingContext)
    (store : MetadataStore ExtRat) : Prop :=
  ∀ candidates s scores s', p.evaluate ctx candidates store s = (.ok scores, s') →
    (scores.map (·.backendId)).Perm candidates ∧
      ∀ scored ∈ scores, scored.rawCost = .posInf ∨ ∃ q, scored.rawCost = .num q

namespace HybridStrategy

variable {σ : Type} {ctx : RoutingContext} {filtered candidates : List BackendId}
  {store : MetadataStore ExtRat} {s s' : σ}

/-! ## The weights of a decision -/

/-- The weights as numbers, those of the plugins last. -/
def DecisionWeights.toRats (w : DecisionWeights ExtRat) : List Rat :=
  w.kv.toRat :: w.load.toRat :: w.topology.toRat :: w.plugins.map (·.toRat)

/-- Numbers that are not negative are the image of their exact values. -/
theorem exists_map_num {xs : List ExtRat} (h : ∀ x ∈ xs, x.NonNegative) :
    ∃ qs : List Rat, xs = qs.map ExtRat.num := by
  refine ⟨xs.map (·.toRat), ?_⟩
  rw [List.map_map]
  refine (List.map_id xs).symm.trans (List.map_congr_left ?_)
  intro x hx
  obtain ⟨q, -, rfl⟩ := h x hx
  rfl

/-- The weights of a decision add up to 1. -/
theorem sum_normalizeWeights {w : DecisionWeights ExtRat} (h : w.NonNegative) :
    (normalizeWeights w).toRats.sum = 1 := by
  rcases w with ⟨_, _, _, plugins⟩
  obtain ⟨kv, -, rfl⟩ : ExtRat.NonNegative _ := h.kv
  obtain ⟨load, -, rfl⟩ : ExtRat.NonNegative _ := h.load
  obtain ⟨topology, -, rfl⟩ : ExtRat.NonNegative _ := h.topology
  obtain ⟨ws, rfl⟩ := exists_map_num h.plugins
  have htotal : ExtRat.num kv + .num load + .num topology +
      (ws.map ExtRat.num).foldl (· + ·) (Floating.ofNat 0) =
        .num (kv + load + topology + ws.sum) := by
    rw [ExtRat.ofNat_eq, Nat.cast_zero, ExtRat.foldl_add_num, zero_add, ExtRat.num_add,
      ExtRat.num_add, ExtRat.num_add]
  unfold normalizeWeights DecisionWeights.toRats
  dsimp only
  rw [htotal, ExtRat.ofNat_eq 0, ExtRat.lt_num, Nat.cast_zero]
  split
  · rename_i hpos
    have hne : kv + load + topology + ws.sum ≠ 0 := (of_decide_eq_true hpos).ne'
    have hws : ((ws.map ExtRat.num).map (· / ExtRat.num (kv + load + topology + ws.sum))).map
        (·.toRat) = ws.map (· / (kv + load + topology + ws.sum)) := by
      rw [List.map_map, List.map_map]
      apply List.map_congr_left
      intro q _
      exact congrArg ExtRat.toRat (ExtRat.num_div q _ hne)
    rw [hws, ExtRat.num_div _ _ hne, ExtRat.num_div _ _ hne, ExtRat.num_div _ _ hne]
    simp only [ExtRat.toRat_num, List.sum_cons, div_eq_mul_inv, List.sum_map_mul_right, List.map_id']
    rw [← add_mul, ← add_mul, ← add_mul, ← add_assoc, ← add_assoc, mul_inv_cancel₀ hne]
  · -- no weight is positive: a third each for the built-in strategies
    have hthird : (Floating.ofNat 1 / Floating.ofNat 3 : ExtRat).toRat = 1 / 3 := by decide +kernel
    have hnone : (((ws.map ExtRat.num).map fun _ => ExtRat.num 0).map (·.toRat)).sum = 0 := by
      apply List.sum_eq_zero
      intro q hq
      rcases List.mem_map.1 hq with ⟨x, hx, rfl⟩
      rcases List.mem_map.1 hx with ⟨_, -, rfl⟩
      rfl
    rw [List.sum_cons, List.sum_cons, List.sum_cons, hnone, hthird]
    norm_num

theorem ballot_weights {h : HybridStrategy ExtRat σ} {w : DecisionWeights ExtRat}
    (hlen : w.plugins.length = h.plugins.length) :
    (h.ballot w).map (·.2.toRat) = w.toRats := by
  have hplugins : (h.plugins.zip w.plugins).map (·.2.toRat) = w.plugins.map (·.toRat) := by
    have hsnd : (h.plugins.zip w.plugins).map (·.2) = w.plugins :=
      List.map_snd_zip (Nat.le_of_eq hlen)
    nth_rewrite 2 [← hsnd]
    rw [List.map_map]
    rfl
  unfold ballot DecisionWeights.toRats
  rw [List.map_cons, List.map_cons, List.map_cons, hplugins]

/-! ## The votes -/

theorem lt_zero_iff {x : ExtRat} (h : x.NonNegative) :
    Floating.lt (Floating.ofNat 0) x = true ↔ 0 < x.toRat := by
  obtain ⟨q, -, rfl⟩ := h
  rw [ExtRat.ofNat_eq, ExtRat.lt_num, Nat.cast_zero, decide_eq_true_eq, ExtRat.toRat_num]

/-- The weights of the votes add up to all weights. -/
theorem sum_poll {strategies : List (RoutingStrategy ExtRat σ × ExtRat)}
    (hweights : ∀ p ∈ strategies, p.2.NonNegative) {votes : List (Vote ExtRat)}
    (h : poll ctx filtered store strategies s = (.ok votes, s')) :
    (votes.map (·.weight.toRat)).sum = (strategies.map (·.2.toRat)).sum := by
  induction strategies generalizing s votes with
  | nil =>
    rw [← Except.ok.inj (Prod.mk.inj h).1]
    rfl
  | cons p strategies ih =>
    rcases p with ⟨p, weight⟩
    obtain ⟨hweight, hrest⟩ := List.forall_mem_cons.1 hweights
    rw [List.map_cons, List.sum_cons]
    rcases poll_cons_ok h with ⟨scores, s₁, rest, -, -, hpoll, rfl⟩ | ⟨hneg, hpoll⟩
    · rw [List.map_cons, List.sum_cons, ih hrest hpoll]
    · have hzero : weight.toRat = 0 := by
        rw [lt_zero_iff hweight] at hneg
        obtain ⟨q, hq, rfl⟩ := hweight
        exact le_antisymm (not_lt.1 hneg) hq
      rw [ih hrest hpoll, hzero, zero_add]

/-- The strategies of a hybrid strategy. -/
def subStrategies (h : HybridStrategy ExtRat σ) : List (RoutingStrategy ExtRat σ) :=
  h.model :: h.kv :: h.load :: h.topology :: h.plugins

theorem mem_subStrategies_of_ballot {h : HybridStrategy ExtRat σ} {w : DecisionWeights ExtRat}
    {p : RoutingStrategy ExtRat σ} {weight : ExtRat} (hp : (p, weight) ∈ h.ballot w) :
    p ∈ h.subStrategies := by
  unfold ballot at hp
  unfold subStrategies
  refine List.mem_cons_of_mem _ ?_
  rcases List.mem_cons.1 hp with heq | hp
  · rw [(Prod.mk.inj heq).1]
    exact List.mem_cons_self
  rcases List.mem_cons.1 hp with heq | hp
  · rw [(Prod.mk.inj heq).1]
    exact List.mem_cons_of_mem _ List.mem_cons_self
  rcases List.mem_cons.1 hp with heq | hp
  · rw [(Prod.mk.inj heq).1]
    exact List.mem_cons_of_mem _ (List.mem_cons_of_mem _ List.mem_cons_self)
  · have hplugin : p ∈ h.plugins := (List.of_mem_zip hp).1
    exact List.mem_cons_of_mem _ (List.mem_cons_of_mem _ (List.mem_cons_of_mem _ hplugin))

/-- The votes of a decision: the scores of strategies with weights that add up to 1, or none. -/
theorem votesOn_spec {h : HybridStrategy ExtRat σ} (hw : h.NonNegative) :
    ((h.votesOn ctx filtered store s).map (·.weight.toRat)).sum ≤ 1 ∧
      ∀ v ∈ h.votesOn ctx filtered store s, 0 < v.weight.toRat ∧ ∃ p ∈ h.subStrategies, ∃ s₁ s₂,
        p.evaluate ctx filtered store s₁ = (.ok v.scores, s₂) := by
  have hlen := h.length_decisionWeights (h.effectiveBaseWeights store s).1 store filtered
  obtain ⟨raw, hraw, heq⟩ := exists_decisionWeights hw filtered store s
  unfold votesOn
  dsimp only
  rw [heq] at hlen ⊢
  have hballot := nonNegative_ballot (h := h) (nonNegative_normalizeWeights hraw)
  rcases hpoll : poll ctx filtered store (h.ballot (normalizeWeights raw))
    (h.effectiveBaseWeights store s).2 with ⟨_ | votes, s'⟩
  · exact ⟨zero_le_one, nofun⟩
  · dsimp only
    constructor
    · rw [sum_poll hballot hpoll, ballot_weights hlen, sum_normalizeWeights hraw]
    · intro v hv
      obtain ⟨hpos, p, hp, heval⟩ := mem_poll hpoll hv
      exact ⟨(lt_zero_iff (hballot _ hp)).1 hpos, p, mem_subStrategies_of_ballot hp, heval⟩

/-- The votes of `evaluate`. -/
theorem votes_spec {h : HybridStrategy ExtRat σ} (hw : h.NonNegative) :
    ((h.votes ctx candidates store s).map (·.weight.toRat)).sum ≤ 1 ∧
      ∀ v ∈ h.votes ctx candidates store s, 0 < v.weight.toRat ∧ ∃ p ∈ h.subStrategies, ∃ s₁ s₂,
        p.evaluate ctx (h.passed ctx candidates store s) store s₁ = (.ok v.scores, s₂) :=
  votesOn_spec hw

/-! ## The scores -/

/-- A candidate is no more expensive than another one. -/
def Vote.Prefers (v : Vote ExtRat) (x y : BackendId) : Prop :=
  ∀ a ∈ v.scores, ∀ b ∈ v.scores, a.backendId = x → b.backendId = y →
    Floating.le a.rawCost b.rawCost = true

/-- The higher the cost, the lower the standing. -/
theorem standing_antitone {scores : List (ScoredBackend ExtRat)}
    (hnodup : (scores.map (·.backendId)).Nodup)
    (hcosts : ∀ scored ∈ scores, scored.rawCost = .posInf ∨ ∃ q, scored.rawCost = .num q)
    {a b : ScoredBackend ExtRat} (ha : a ∈ scores) (hb : b ∈ scores)
    (hle : Floating.le a.rawCost b.rawCost = true) :
    standing scores b.backendId ≤ standing scores a.backendId := by
  rcases hcosts b hb with hinf | ⟨q, hq⟩
  · rw [standing_of_infinite hnodup hb (by rw [hinf]; rfl)]
    exact (standing_mem_unit scores a.backendId).1
  · rcases hcosts a ha with hinf | ⟨p, hp⟩
    · rw [hinf, hq] at hle
      exact absurd hle Bool.false_ne_true
    · rw [hp, hq, ExtRat.le_num, decide_eq_true_eq] at hle
      rw [standing_of_cost hnodup hb hq, standing_of_cost hnodup ha hp]
      split
      · rename_i hspan
        exact div_le_div_of_nonneg_right (sub_le_sub_left hle _) (sub_pos.2 hspan).le
      · exact le_rfl

/-- The candidates that passed are candidates, each once. -/
theorem passed_spec {h : HybridStrategy ExtRat σ} (hmodel : h.model.OneCostEach ctx store)
    (hnodup : candidates.Nodup) :
    (h.passed ctx candidates store s).Nodup ∧ h.passed ctx candidates store s ⊆ candidates := by
  unfold passed
  split
  · exact ⟨List.nodup_nil, List.nil_subset _⟩
  · rcases heval : h.model.evaluate ctx candidates store s with ⟨_ | scores, s'⟩
    · exact ⟨List.nodup_nil, List.nil_subset _⟩
    · have hperm := (hmodel candidates s scores s' heval).1
      have hsub : ((scores.filter fun m => Floating.lt (Floating.ofNat 0) m.score).map
          (·.backendId)).Sublist (scores.map (·.backendId)) := List.filter_sublist.map _
      exact ⟨(hperm.nodup_iff.2 hnodup).sublist hsub, List.Subset.trans hsub.subset hperm.subset⟩

theorem tally_mem_unit {h : HybridStrategy ExtRat σ} (hw : h.NonNegative) (cand : BackendId) :
    0 ≤ tally (h.votes ctx candidates store s) cand ∧
      tally (h.votes ctx candidates store s) cand ≤ 1 := by
  have hweight : ∀ v ∈ h.votes ctx candidates store s, 0 ≤ v.weight.toRat := by
    intro v hv
    exact ((votes_spec hw).2 v hv).1.le
  constructor
  · exact Ranking.total_nonneg hweight fun v _ => (standing_mem_unit v.scores cand).1
  · have hle : tally (h.votes ctx candidates store s) cand ≤
        ((h.votes ctx candidates store s).map (·.weight.toRat)).sum :=
      Ranking.total_le_sum hweight fun v _ => (standing_mem_unit v.scores cand).2
    exact hle.trans (votes_spec hw).1

/-- A candidate that is nowhere more expensive is not behind. -/
theorem tally_mono {h : HybridStrategy ExtRat σ} (hw : h.NonNegative)
    (hcosts : ∀ p ∈ h.subStrategies, p.OneCostEach ctx store) (hnodup : candidates.Nodup)
    {x y : BackendId} (hx : x ∈ h.passed ctx candidates store s)
    (hy : y ∈ h.passed ctx candidates store s)
    (hprefers : ∀ v ∈ h.votes ctx candidates store s, v.Prefers x y) :
    tally (h.votes ctx candidates store s) y ≤ tally (h.votes ctx candidates store s) x := by
  have hpassed := (passed_spec (s := s) (hcosts h.model List.mem_cons_self) hnodup).1
  apply Ranking.total_mono
  · exact fun v hv => ((votes_spec hw).2 v hv).1.le
  · intro v hv
    obtain ⟨-, p, hp, s₁, s₂, heval⟩ := (votes_spec hw).2 v hv
    obtain ⟨hperm, hcost⟩ := hcosts p hp _ s₁ v.scores s₂ heval
    obtain ⟨a, ha, rfl⟩ := List.mem_map.1 (hperm.symm.subset hx)
    obtain ⟨b, hb, rfl⟩ := List.mem_map.1 (hperm.symm.subset hy)
    exact standing_antitone (hperm.nodup_iff.2 hpassed) hcost ha hb
      (hprefers v hv a ha b hb rfl rfl)

/-- What the hybrid strategy returns: the candidates that passed in the order of their scores, which
are between 0 and 1; and one that is nowhere more expensive than another has no lower score. -/
structure WellScored (h : HybridStrategy ExtRat σ) (ctx : RoutingContext)
    (candidates : List BackendId) (store : MetadataStore ExtRat) (s : σ)
    (ranked : List (ScoredBackend ExtRat)) : Prop where
  perm : (ranked.map (·.backendId)).Perm
    (candidates.filter (· ∈ h.passed ctx candidates store s))
  sorted : ranked.Pairwise fun a b => Floating.le b.score a.score = true
  unit : ∀ r ∈ ranked, Floating.le (Floating.ofNat 0) r.score = true ∧
    Floating.le r.score (Floating.ofNat 1) = true
  dominance : ∀ a ∈ ranked, ∀ b ∈ ranked,
    (∀ v ∈ h.votes ctx candidates store s, v.Prefers a.backendId b.backendId) →
      Floating.le b.score a.score = true

theorem evaluate_wellScored {h : HybridStrategy ExtRat σ} (hw : h.NonNegative)
    (hcosts : ∀ p ∈ h.subStrategies, p.OneCostEach ctx store) (hnodup : candidates.Nodup)
    {ranked : List (ScoredBackend ExtRat)}
    (hres : h.evaluate ctx candidates store s = (.ok ranked, s')) :
    h.WellScored ctx candidates store s ranked := by
  obtain ⟨hpassed, hsub⟩ := passed_spec (s := s) (hcosts h.model List.mem_cons_self) hnodup
  rw [evaluate_eq hw hres]
  constructor
  · rw [List.map_map]
    refine (List.Perm.of_eq (List.map_id _)).trans (Ranking.rank_perm.trans ?_)
    refine (List.perm_ext_iff_of_nodup hpassed (hnodup.filter _)).2 ?_
    intro cand
    rw [List.mem_filter, decide_eq_true_eq]
    exact ⟨fun hmem => ⟨hsub hmem, hmem⟩, fun hmem => hmem.2⟩
  · refine List.Pairwise.map _ ?_ Ranking.pairwise_rank
    intro a b hle
    exact (ExtRat.le_num _ _).trans (decide_eq_true hle)
  · intro r hr
    obtain ⟨cand, -, rfl⟩ := List.mem_map.1 hr
    have hunit : 0 ≤ tally (h.votes ctx candidates store s) cand ∧
        tally (h.votes ctx candidates store s) cand ≤ 1 := tally_mem_unit hw cand
    rw [ExtRat.ofNat_eq, ExtRat.ofNat_eq, Nat.cast_zero, Nat.cast_one]
    exact ⟨(ExtRat.le_num _ _).trans (decide_eq_true hunit.1),
      (ExtRat.le_num _ _).trans (decide_eq_true hunit.2)⟩
  · intro a ha b hb hprefers
    obtain ⟨x, hx, rfl⟩ := List.mem_map.1 ha
    obtain ⟨y, hy, rfl⟩ := List.mem_map.1 hb
    have hle := tally_mono hw hcosts hnodup (Ranking.mem_rank.1 hx) (Ranking.mem_rank.1 hy) hprefers
    exact (ExtRat.le_num _ _).trans (decide_eq_true hle)

/-! ## The strategies of the gateway -/

theorem oneCostEach_map {p : RoutingStrategy ExtRat σ} {f : BackendId → ScoredBackend ExtRat}
    (heval : ∀ candidates s, p.evaluate ctx candidates store s = (.ok (candidates.map f), s))
    (hid : ∀ cand, (f cand).backendId = cand)
    (hcost : ∀ cand, (f cand).rawCost = .posInf ∨ ∃ q, (f cand).rawCost = .num q) :
    p.OneCostEach ctx store := by
  intro candidates s scores s' hres
  rw [heval] at hres
  rw [← Except.ok.inj (Prod.mk.inj hres).1]
  constructor
  · rw [List.map_map]
    refine List.Perm.of_eq ((List.map_congr_left ?_).trans (List.map_id candidates))
    exact fun cand _ => hid cand
  · intro scored hscored
    obtain ⟨cand, -, rfl⟩ := List.mem_map.1 hscored
    exact hcost cand

theorem oneCostEach_even (name : String) :
    (RoutingStrategy.even name : RoutingStrategy ExtRat σ).OneCostEach ctx store :=
  oneCostEach_map (fun _ _ => rfl) (fun _ => rfl) fun _ => Or.inr ⟨_, rfl⟩

/-- The model filter always does. -/
theorem oneCostEach_modelAware :
    (ModelAwareStrategy.strategy : RoutingStrategy ExtRat σ).OneCostEach ctx store := by
  refine oneCostEach_map (fun _ _ => rfl) (ModelAwareStrategy.backendId_scoreOf ctx store) ?_
  intro cand
  right
  unfold ModelAwareStrategy.scoreOf
  dsimp only
  split
  · exact ⟨_, rfl⟩
  · split
    · exact ⟨_, rfl⟩
    · have hcases := ModelRegistry.modelMatchScore_cases (F := ExtRat) store.models cand
        (ctx.modelName.getD "")
      unfold MetadataStore.modelMatchScore
      rcases hcases with h | h | h <;>
      · rw [h]
        exact ⟨_, rfl⟩

theorem availableBytes_num {est : KvEstimate} {m : BackendMetrics} {blockSize : BitVec 32}
    {fraction : Rat} {available : ExtRat}
    (h : KvCapacityStrategy.availableBytes est m blockSize (ExtRat.num fraction) = some available) :
    ∃ q, available = .num q := by
  unfold KvCapacityStrategy.availableBytes at h
  dsimp only at h
  generalize (if 0 < blockSize.toNat then
    min (est.perTokenBytes.toNat * blockSize.toNat) (2 ^ 64 - 1) else 0) = perBlockBytes at h
  split at h
  · exact ⟨_, (Option.some.inj h).symm⟩
  · split at h
    · exact ⟨_, (Option.some.inj h).symm⟩
    · exact absurd h nofun

theorem scoreCapacity_cost (est : KvEstimate) (m : BackendMetrics) (blockSize : BitVec 32)
    (fraction : Rat) :
    (KvCapacityStrategy.scoreCapacity est m blockSize (ExtRat.num fraction)).1 = .posInf ∨
      ∃ q, (KvCapacityStrategy.scoreCapacity est m blockSize (ExtRat.num fraction)).1 = .num q := by
  unfold KvCapacityStrategy.scoreCapacity
  split
  · exact Or.inr ⟨_, rfl⟩
  · rename_i havailable
    obtain ⟨q, rfl⟩ := availableBytes_num havailable
    rw [ExtRat.ofNat_eq, ExtRat.ofNat_eq 0, ExtRat.le_num]
    dsimp only
    split
    · exact Or.inl rfl
    · rename_i hpos
      have hne : q ≠ 0 := by
        rintro rfl
        exact hpos (decide_eq_true (Nat.cast_zero (R := Rat)).ge)
      split
      · exact Or.inl rfl
      · rw [ExtRat.num_div _ _ hne]
        right
        unfold Floating.clamp
        dsimp only
        split
        · split
          · exact ⟨_, rfl⟩
          · exact ⟨_, rfl⟩
        · split
          · exact ⟨_, rfl⟩
          · exact ⟨_, rfl⟩

/-- So does the KV-capacity plugin. -/
theorem oneCostEach_kvCapacity {k : KvCapacityStrategy ExtRat} {fraction : Rat}
    (hfraction : k.gpuMemSafetyFraction = .num fraction) :
    (k.strategy : RoutingStrategy ExtRat σ).OneCostEach ctx store := by
  refine oneCostEach_map (fun _ _ => rfl) (k.backendId_scoreOf ctx store) ?_
  intro cand
  unfold KvCapacityStrategy.scoreOf
  split
  · exact Or.inr ⟨_, rfl⟩
  · split
    · split
      · exact Or.inl rfl
      · exact Or.inr ⟨_, rfl⟩
    · split
      · exact Or.inr ⟨_, rfl⟩
      · rw [hfraction]
        exact scoreCapacity_cost _ _ _ fraction

/-- The load-aware strategy does where the cost of every load is a number. -/
theorem oneCostEach_loadAware (l : LoadAwareStrategy ExtRat) {f64 : F64 → ExtRat}
    (hcost : ∀ cand m, store.loadGetMetrics cand = some m → ∃ q, l.loadCost f64 ctx m = .num q) :
    (l.strategy f64 : RoutingStrategy ExtRat σ).OneCostEach ctx store := by
  refine oneCostEach_map (fun _ _ => rfl) (l.backendId_scoreOf f64 ctx store) ?_
  intro cand
  right
  unfold LoadAwareStrategy.scoreOf
  split
  · exact ⟨_, rfl⟩
  · rename_i m hm
    split
    · exact ⟨_, rfl⟩
    · exact hcost cand m hm

/-- The two backends of which one cannot hold the request are scored well. -/
theorem wellScored_withCapacity :
    ∃ ranked s', (withCapacity (Floating.lit 20 2)).evaluate tenBlocks
        [TwoBackends.first, TwoBackends.second] twoLoads () = (.ok ranked, s') ∧
      (withCapacity (Floating.lit 20 2)).WellScored tenBlocks
        [TwoBackends.first, TwoBackends.second] twoLoads () ranked := by
  have hweight : (Floating.lit 20 2 : ExtRat).NonNegative := ⟨20 / 10 ^ 2, by norm_num, rfl⟩
  obtain ⟨ranked, s', heval⟩ := evaluate_withCapacity (w := Floating.lit 20 2) (by decide +kernel)
  refine ⟨ranked, s', heval, ?_⟩
  refine evaluate_wellScored (nonNegative_withCapacity hweight) ?_ (by decide) heval
  have hload : ∀ cand m, twoLoads.loadGetMetrics cand = some m →
      ∃ q, LoadAwareStrategy.default.loadCost ExtRat.ofBits tenBlocks m = .num q := by
    intro cand m hm
    refine Option.isSome_iff_exists.1 ?_ |>.imp fun q hq => finite?_eq_some_iff.1 hq
    unfold twoLoads at hm
    dsimp only at hm
    split at hm
    · rw [← Option.some.inj hm]
      decide +kernel
    · rw [← Option.some.inj hm]
      decide +kernel
  intro p hp
  simp only [subStrategies, withCapacity, List.mem_cons, List.not_mem_nil, or_false] at hp
  rcases hp with rfl | rfl | rfl | rfl | rfl
  · exact oneCostEach_modelAware
  · exact oneCostEach_even "kv_aware"
  · exact oneCostEach_loadAware _ hload
  · exact oneCostEach_even "topology_aware"
  · exact oneCostEach_kvCapacity rfl

end HybridStrategy

end HierKvGateway
