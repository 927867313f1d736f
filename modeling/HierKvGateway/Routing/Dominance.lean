import HierKvGateway.Routing.HybridScore
import HierKvGateway.Routing.SingleStrategy
import HierKvGateway.Routing.StagedPlugins

/-!
# Routing.Dominance — no decision for a worse backend

Where every strategy scores the candidates one by one, the hybrid strategy always has an answer for
the candidates that pass the model filter (`HybridStrategy.exists_evaluate`), and without randomness
the engine decides for one with the highest tally (`RoutingEngine.route_hybrid`).

`RoutingEngine.route_not_dearer`: so where a candidate is dearer than the decided one with no
strategy, it is cheaper with none that counts.
-/

namespace HierKvGateway

namespace HybridStrategy

variable {σ : Type}

/-! ## Strategies that score the candidates one by one -/

/-- Every strategy scores the candidates one by one. -/
def ScoresEach (h : HybridStrategy ExtRat σ) : Prop :=
  ∀ p ∈ h.subStrategies, ∃ score, p.ScoresEach score

section Answers

variable (ctx : RoutingContext) (filtered : List BackendId) (store : MetadataStore ExtRat) (s : σ)

theorem evaluateWeighted_each {p : RoutingStrategy ExtRat σ} (hp : ∃ score, p.ScoresEach score)
    (weight : ExtRat) :
    ∃ scores, evaluateWeighted p weight ctx filtered store s = (.ok scores, s) := by
  rcases hp with ⟨score, hscore⟩
  unfold evaluateWeighted
  split
  · exact ⟨_, hscore.evaluate ctx filtered store s⟩
  · exact ⟨[], rfl⟩

theorem evaluatePlugins_each {plugins : List (RoutingStrategy ExtRat σ × ExtRat)}
    (hplugins : ∀ p ∈ plugins, ∃ score, p.1.ScoresEach score) :
    ∃ norms, evaluatePlugins ctx filtered store plugins s = (.ok norms, s) := by
  induction plugins with
  | nil => exact ⟨[], rfl⟩
  | cons p plugins ih =>
    rcases List.forall_mem_cons.1 hplugins with ⟨⟨score, hscore⟩, hrest⟩
    rcases ih hrest with ⟨norms, hnorms⟩
    rcases p with ⟨p, weight⟩
    unfold evaluatePlugins
    rw [hscore.evaluate]
    dsimp only
    rw [hnorms]
    split
    · exact ⟨_, rfl⟩
    · exact ⟨_, rfl⟩

/-- The candidates that passed are always scored. -/
theorem exists_scoreFiltered {h : HybridStrategy ExtRat σ} (heach : h.ScoresEach) :
    ∃ ranked s', h.scoreFiltered ctx filtered store s = (.ok ranked, s') := by
  have hplugins : ∀ w : List ExtRat, ∀ p ∈ h.plugins.zip w, ∃ score, p.1.ScoresEach score := by
    intro w p hp
    exact heach p.1 (by simp [subStrategies, (List.of_mem_zip hp).1])
  unfold scoreFiltered
  rcases h.effectiveBaseWeights store s with ⟨base, s₁⟩
  dsimp only
  rcases evaluateWeighted_each ctx filtered store s₁ (heach h.kv (by simp [subStrategies]))
    (h.decisionWeights base store filtered).kv with ⟨kvScores, hkv⟩
  rcases evaluateWeighted_each ctx filtered store s₁ (heach h.load (by simp [subStrategies]))
    (h.decisionWeights base store filtered).load with ⟨loadScores, hload⟩
  rcases evaluateWeighted_each ctx filtered store s₁ (heach h.topology (by simp [subStrategies]))
    (h.decisionWeights base store filtered).topology with ⟨topoScores, htopo⟩
  rcases evaluatePlugins_each ctx filtered store s₁
    (hplugins (h.decisionWeights base store filtered).plugins) with ⟨norms, hnorms⟩
  rw [hkv]
  dsimp only
  rw [hload]
  dsimp only
  rw [htopo]
  dsimp only
  rw [hnorms]
  exact ⟨_, _, rfl⟩

/-- If a candidate passes the model filter, the strategy has an answer. -/
theorem exists_evaluate {h : HybridStrategy ExtRat σ} (heach : h.ScoresEach)
    {candidates : List BackendId} (hpassed : h.passed ctx candidates store s ≠ []) :
    ∃ ranked s', h.evaluate ctx candidates store s = (.ok ranked, s') := by
  rcases heach h.model List.mem_cons_self with ⟨score, hscore⟩
  unfold passed at hpassed
  rw [hscore.evaluate] at hpassed
  unfold evaluate
  rw [hscore.evaluate]
  split
  · exact ⟨[], s, rfl⟩
  · rename_i hcands
    rw [if_neg hcands] at hpassed
    dsimp only at hpassed ⊢
    rw [if_neg hpassed]
    exact exists_scoreFiltered ctx _ store s heach

end Answers

/-! ## The votes of such strategies -/

/-- The strategies that count vote in the state in which they are polled. -/
theorem exists_poll (ctx : RoutingContext) (filtered : List BackendId)
    (store : MetadataStore ExtRat) (s : σ) {strategies : List (RoutingStrategy ExtRat σ × ExtRat)}
    (heach : ∀ p ∈ strategies, ∃ score, p.1.ScoresEach score) :
    ∃ votes, poll ctx filtered store strategies s = (.ok votes, s) ∧
      ∀ v, v ∈ votes ↔ ∃ p ∈ strategies, Floating.lt (Floating.ofNat 0) p.2 = true ∧
        v.weight = p.2 ∧ p.1.evaluate ctx filtered store s = (.ok v.scores, s) := by
  induction strategies with
  | nil => exact ⟨[], rfl, by simp⟩
  | cons p strategies ih =>
    rcases List.forall_mem_cons.1 heach with ⟨⟨score, hscore⟩, hrest⟩
    rcases ih hrest with ⟨votes, hvotes, hmem⟩
    rcases p with ⟨p, weight⟩
    have heval := hscore.evaluate ctx filtered store s
    unfold poll
    rw [heval]
    dsimp only
    rw [hvotes]
    split
    · rename_i hpos
      refine ⟨_, rfl, ?_⟩
      intro v
      rw [List.mem_cons, List.exists_mem_cons_iff, hmem]
      refine or_congr ?_ Iff.rfl
      constructor
      · rintro rfl
        exact ⟨hpos, rfl, heval⟩
      · rintro ⟨-, hweight, hscores⟩
        rcases v with ⟨weight', scores'⟩
        dsimp only at hweight hscores
        rw [heval] at hscores
        rw [hweight, Except.ok.inj (Prod.mk.inj hscores).1]
    · rename_i hnot
      refine ⟨votes, rfl, ?_⟩
      intro v
      rw [List.exists_mem_cons_iff, hmem]
      constructor
      · exact Or.inr
      · rintro (⟨hpos, -⟩ | h)
        · exact absurd hpos hnot
        · exact h

variable {ctx : RoutingContext} {candidates : List BackendId} {store : MetadataStore ExtRat} {s : σ}

/-- The votes in a decision, all in the state that the controller leaves. -/
theorem mem_votes {h : HybridStrategy ExtRat σ} (heach : h.ScoresEach) (v : Vote ExtRat) :
    let base := h.effectiveBaseWeights store s
    let w := h.decisionWeights base.1 store (h.passed ctx candidates store s)
    v ∈ h.votes ctx candidates store s ↔
      ∃ p ∈ h.ballot w, Floating.lt (Floating.ofNat 0) p.2 = true ∧ v.weight = p.2 ∧
        p.1.evaluate ctx (h.passed ctx candidates store s) store base.2 =
          (.ok v.scores, base.2) := by
  intro base w
  have hballot : ∀ p ∈ h.ballot w, ∃ score, p.1.ScoresEach score := by
    intro p hp
    exact heach p.1 (mem_subStrategies_of_ballot hp)
  rcases heach h.model List.mem_cons_self with ⟨score, hscore⟩
  have hstate : (h.model.evaluate ctx candidates store s).2 = s := by
    rw [hscore.evaluate]
  rcases exists_poll ctx (h.passed ctx candidates store s) store base.2 hballot with
    ⟨votes, hvotes, hmem⟩
  have heq : h.votes ctx candidates store s = votes := by
    unfold HybridStrategy.votes votesOn
    rw [hstate]
    dsimp only
    rw [hvotes]
  rw [heq, hmem]

/-- The vote has one cost for each of the candidates, a number or infinity. -/
def Vote.Covers (v : Vote ExtRat) (cands : List BackendId) : Prop :=
  (v.scores.map (·.backendId)).Perm cands ∧
    ∀ scored ∈ v.scores, scored.rawCost = .posInf ∨ ∃ q, scored.rawCost = .num q

/-- A candidate is cheaper than another one. -/
def Vote.PrefersStrictly (v : Vote ExtRat) (x y : BackendId) : Prop :=
  ∃ a ∈ v.scores, ∃ b ∈ v.scores, a.backendId = x ∧ b.backendId = y ∧
    ∃ p q, a.rawCost = .num p ∧ b.rawCost = .num q ∧ p < q

/-- A strategy that counts has a vote in which the cheaper candidate is cheaper. -/
theorem exists_prefersStrictly {h : HybridStrategy ExtRat σ} (heach : h.ScoresEach)
    {p : RoutingStrategy ExtRat σ} {weight : ExtRat}
    {score : RoutingContext → MetadataStore ExtRat → σ → BackendId → ScoredBackend ExtRat}
    (hscore : p.ScoresEach score) (hpos : Floating.lt (Floating.ofNat 0) weight = true)
    (hp : (p, weight) ∈ h.ballot (h.decisionWeights (h.effectiveBaseWeights store s).1 store
      (h.passed ctx candidates store s)))
    {x y : BackendId} (hx : x ∈ h.passed ctx candidates store s)
    (hy : y ∈ h.passed ctx candidates store s)
    (hcheaper : ∃ a b, (score ctx store (h.effectiveBaseWeights store s).2 x).rawCost = .num a ∧
      (score ctx store (h.effectiveBaseWeights store s).2 y).rawCost = .num b ∧ a < b) :
    ∃ v ∈ h.votes ctx candidates store s, v.PrefersStrictly x y := by
  rcases hcheaper with ⟨a, b, ha, hb, hlt⟩
  refine ⟨⟨weight, _⟩, (mem_votes heach _).2 ⟨(p, weight), hp, hpos, rfl, hscore.evaluate ..⟩, ?_⟩
  exact ⟨_, List.mem_map_of_mem hx, _, List.mem_map_of_mem hy, hscore.backendId ..,
    hscore.backendId .., a, b, ha, hb, hlt⟩

/-- The candidates that the model-aware filter lets through. -/
theorem mem_passed_iff {h : HybridStrategy ExtRat σ}
    (hmodel : h.model = ModelAwareStrategy.strategy) {cand : BackendId} :
    cand ∈ h.passed ctx candidates store s ↔
      cand ∈ candidates ∧ ModelAwareStrategy.Passes ctx store cand := by
  have hids : ∀ cands : List BackendId, cands.map ((fun m : ScoredBackend ExtRat => m.backendId) ∘
      ModelAwareStrategy.scoreOf ctx store) = cands := by
    intro cands
    refine (List.map_congr_left ?_).trans (List.map_id cands)
    exact fun c _ => ModelAwareStrategy.backendId_scoreOf ctx store c
  unfold passed
  rw [hmodel]
  split
  · rename_i hnil
    simp [hnil]
  · show cand ∈ ((candidates.map (ModelAwareStrategy.scoreOf ctx store)).filter fun m =>
      Floating.lt (Floating.ofNat 0) m.score).map (·.backendId) ↔ _
    rw [List.filter_map, List.map_map, hids, List.mem_filter]
    exact Iff.rfl

/-- Where one of the weights is positive, all are divided by a positive number. -/
theorem exists_normalizeWeights {w : DecisionWeights ExtRat} (h : w.NonNegative) {q : Rat}
    (hq : 0 < q) (hmem : ExtRat.num q ∈ [w.kv, w.load, w.topology]) :
    ∃ t : Rat, 0 < t ∧ normalizeWeights w =
      ⟨w.kv / .num t, w.load / .num t, w.topology / .num t, w.plugins.map (· / .num t)⟩ := by
  rcases w with ⟨_, _, _, plugins⟩
  obtain ⟨kv, hkv, rfl⟩ : ExtRat.NonNegative _ := h.kv
  obtain ⟨load, hload, rfl⟩ : ExtRat.NonNegative _ := h.load
  obtain ⟨topology, htopology, rfl⟩ : ExtRat.NonNegative _ := h.topology
  have hplugins := h.plugins
  rcases exists_map_num hplugins with ⟨ws, rfl⟩
  have hws : 0 ≤ ws.sum := by
    apply List.sum_nonneg
    intro x hx
    rcases hplugins _ (List.mem_map_of_mem hx) with ⟨p, hp, heq⟩
    rw [ExtRat.num.inj heq]
    exact hp
  have hone : q = kv ∨ q = load ∨ q = topology := by
    simpa [ExtRat.num.injEq] using hmem
  have hpos : 0 < kv + load + topology + ws.sum := by
    rcases hone with rfl | rfl | rfl <;> linarith
  have htotal : ExtRat.num kv + .num load + .num topology +
      (ws.map ExtRat.num).foldl (· + ·) (Floating.ofNat 0) =
        .num (kv + load + topology + ws.sum) := by
    rw [ExtRat.ofNat_eq, Nat.cast_zero, ExtRat.foldl_add_num, zero_add, ExtRat.num_add,
      ExtRat.num_add, ExtRat.num_add]
  refine ⟨_, hpos, ?_⟩
  unfold normalizeWeights
  dsimp only
  rw [htotal, ExtRat.ofNat_eq 0, ExtRat.lt_num, Nat.cast_zero, if_pos (decide_eq_true hpos)]

theorem nonNegative_rawWeights {h : HybridStrategy ExtRat σ} (hw : h.NonNegative)
    (filtered : List BackendId) :
    (h.rawWeights (h.effectiveBaseWeights store s).1 store filtered).NonNegative := by
  rcases hw.base store s with ⟨hkv, hload, htopology⟩
  have hstale : (Floating.lit 3 1 : ExtRat).NonNegative := ⟨3 / 10 ^ 1, by norm_num, rfl⟩
  have hzero := ExtRat.nonNegative_ofNat 0
  refine ⟨?_, ?_, htopology, ?_⟩
  · unfold rawWeights
    dsimp only
    split <;> assumption
  · unfold rawWeights
    dsimp only
    split
    · exact ExtRat.NonNegative.mul hload hstale
    · exact hload
  · intro x hx
    rcases List.mem_map.1 hx with ⟨p, hp, rfl⟩
    unfold rawWeight
    split
    · exact hw.plugins p hp
    · exact hzero

/-- Where one of them is positive, the weights of a decision are parts of them. -/
theorem exists_decisionWeights_eq {h : HybridStrategy ExtRat σ} (hw : h.NonNegative)
    (store : MetadataStore ExtRat) (s : σ) (filtered : List BackendId) {q : Rat} (hq : 0 < q) :
    let raw := h.rawWeights (h.effectiveBaseWeights store s).1 store filtered
    ExtRat.num q ∈ [raw.kv, raw.load, raw.topology] →
      ∃ t : Rat, 0 < t ∧ h.decisionWeights (h.effectiveBaseWeights store s).1 store filtered =
        ⟨raw.kv / .num t, raw.load / .num t, raw.topology / .num t,
          raw.plugins.map (· / .num t)⟩ :=
  exists_normalizeWeights (nonNegative_rawWeights hw filtered) hq

variable {h : HybridStrategy ExtRat σ} {q : Rat}

theorem lt_div_of_pos {x : ExtRat} {t : Rat} (hx : x = .num q) (hq : 0 < q) (ht : 0 < t) :
    Floating.lt (Floating.ofNat 0) (x / .num t) = true := by
  rw [hx, ExtRat.num_div _ _ ht.ne', ExtRat.ofNat_eq, ExtRat.lt_num, Nat.cast_zero]
  exact decide_eq_true (div_pos hq ht)

/-- The KV-aware strategy counts if it is available and its weight is positive. -/
theorem kv_decisionWeights_pos (hw : h.NonNegative) (filtered : List BackendId)
    (havailable : h.kv.isAvailable store = true) (hq : 0 < q)
    (hkv : (h.effectiveBaseWeights store s).1.kv = .num q) :
    Floating.lt (Floating.ofNat 0)
      (h.decisionWeights (h.effectiveBaseWeights store s).1 store filtered).kv = true := by
  have hraw : (h.rawWeights (h.effectiveBaseWeights store s).1 store filtered).kv = .num q :=
    (if_pos havailable).trans hkv
  rcases exists_decisionWeights_eq hw store s filtered hq (by simp [hraw]) with ⟨t, ht, heq⟩
  rw [heq]
  exact lt_div_of_pos hraw hq ht

/-- The load-aware strategy counts if its weight is positive, even with stale metrics. -/
theorem load_decisionWeights_pos (hw : h.NonNegative) (filtered : List BackendId) (hq : 0 < q)
    (hload : (h.effectiveBaseWeights store s).1.load = .num q) :
    Floating.lt (Floating.ofNat 0)
      (h.decisionWeights (h.effectiveBaseWeights store s).1 store filtered).load = true := by
  have hraw : ∃ p : Rat, 0 < p ∧
      (h.rawWeights (h.effectiveBaseWeights store s).1 store filtered).load = .num p := by
    unfold rawWeights
    dsimp only
    rw [hload]
    split
    · exact ⟨q * (3 / 10 ^ 1), by positivity, rfl⟩
    · exact ⟨q, hq, rfl⟩
  rcases hraw with ⟨p, hp, hraw⟩
  rcases exists_decisionWeights_eq hw store s filtered hp (by simp [hraw]) with ⟨t, ht, heq⟩
  rw [heq]
  exact lt_div_of_pos hraw hp ht

/-- The topology-aware strategy counts if its weight is positive. -/
theorem topology_decisionWeights_pos (hw : h.NonNegative) (filtered : List BackendId) (hq : 0 < q)
    (htopology : (h.effectiveBaseWeights store s).1.topology = .num q) :
    Floating.lt (Floating.ofNat 0)
      (h.decisionWeights (h.effectiveBaseWeights store s).1 store filtered).topology = true := by
  rcases exists_decisionWeights_eq hw store s filtered hq (by simp [rawWeights, htopology]) with
    ⟨t, ht, heq⟩
  rw [heq]
  exact lt_div_of_pos htopology hq ht

/-! ## Ahead with one, behind with none -/

/-- The cheaper one stands higher. -/
theorem standing_strictAnti {scores : List (ScoredBackend ExtRat)}
    (hnodup : (scores.map (·.backendId)).Nodup) {a b : ScoredBackend ExtRat} (ha : a ∈ scores)
    (hb : b ∈ scores) {p q : Rat} (hp : a.rawCost = .num p) (hq : b.rawCost = .num q)
    (hlt : p < q) :
    standing scores b.backendId < standing scores a.backendId := by
  have hlow : lowest (costs scores) ≤ p := lowest_le (mem_costs_iff.2 ⟨a, ha, hp⟩)
  have hhigh : q ≤ highest (costs scores) := le_highest (mem_costs_iff.2 ⟨b, hb, hq⟩)
  have hspan : lowest (costs scores) < highest (costs scores) :=
    hlow.trans_lt (hlt.trans_le hhigh)
  rw [standing_of_cost hnodup hb hq, standing_of_cost hnodup ha hp, if_pos hspan, if_pos hspan]
  exact div_lt_div_of_pos_right (sub_lt_sub_left hlt _) (sub_pos.2 hspan)

/-- A candidate that is nowhere dearer, and cheaper with one strategy that counts, is ahead. -/
theorem tally_lt {h : HybridStrategy ExtRat σ} (hw : h.NonNegative)
    (hnodup : (h.passed ctx candidates store s).Nodup)
    (hcovers : ∀ v ∈ h.votes ctx candidates store s, v.Covers (h.passed ctx candidates store s))
    {x y : BackendId} (hx : x ∈ h.passed ctx candidates store s)
    (hy : y ∈ h.passed ctx candidates store s)
    (hprefers : ∀ v ∈ h.votes ctx candidates store s, v.Prefers x y) {v : Vote ExtRat}
    (hv : v ∈ h.votes ctx candidates store s) (hstrict : v.PrefersStrictly x y) :
    tally (h.votes ctx candidates store s) y < tally (h.votes ctx candidates store s) x := by
  apply Ranking.total_lt
  · exact fun v hv => ((votes_spec hw).2 v hv).1.le
  · intro v hv
    rcases hcovers v hv with ⟨hids, hcost⟩
    rcases List.mem_map.1 (hids.symm.subset hx) with ⟨a, ha, rfl⟩
    rcases List.mem_map.1 (hids.symm.subset hy) with ⟨b, hb, rfl⟩
    exact standing_antitone (hids.nodup_iff.2 hnodup) hcost ha hb
      (hprefers v hv a ha b hb rfl rfl)
  · exact hv
  · exact ((votes_spec hw).2 v hv).1
  · rcases hstrict with ⟨a, ha, b, hb, rfl, rfl, p, q, hp, hq, hlt⟩
    exact standing_strictAnti ((hcovers v hv).1.nodup_iff.2 hnodup) ha hb hp hq hlt

end HybridStrategy

/-! ## The decision -/

namespace RoutingEngine

open HybridStrategy RoundedFloating

variable {σ : Type} {e : RoutingEngine ExtRat σ} {ctx : RoutingContext} {st : EngineState ExtRat σ}

/-- The candidates that pass the model filter. -/
def passed (e : RoutingEngine ExtRat σ) (ctx : RoutingContext) (st : EngineState ExtRat σ) :
    List BackendId :=
  e.hybrid.passed ctx (candidates ctx none st.store) st.store st.inner

/-- The votes on them. -/
def votes (e : RoutingEngine ExtRat σ) (ctx : RoutingContext) (st : EngineState ExtRat σ) :
    List (Vote ExtRat) :=
  e.hybrid.votes ctx (candidates ctx none st.store) st.store st.inner

/-- With the hybrid strategy and without randomness, the decision is a candidate with the highest
tally of those that pass the model filter. -/
theorem route_hybrid (hprimary : e.primary = none) (htrace : e.traceSubScores = false)
    (hw : e.hybrid.NonNegative) (heach : e.hybrid.ScoresEach)
    (hcold : Floating.le e.temperature (Floating.ofNat 0) = true) (hsession : ctx.sessionId = none)
    (hpassed : e.passed ctx st ≠ []) (now : Nat) :
    ∃ d st', e.route now ctx st = (.ok d, st') ∧ d.strategy = HybridStrategy.name ∧
      d.backend ∈ e.passed ctx st ∧
      ∀ cand ∈ e.passed ctx st, tally (e.votes ctx st) cand ≤ tally (e.votes ctx st) d.backend := by
  rcases exists_evaluate ctx st.store st.inner heach hpassed with ⟨ranked, s', heval⟩
  have hranked := evaluate_eq hw heval
  have hcands : candidates ctx none st.store ≠ [] := by
    intro hnil
    refine hpassed ?_
    unfold passed HybridStrategy.passed
    rw [if_pos hnil]
  have hids : Ranking.rank (tally (e.votes ctx st)) (e.passed ctx st) ≠ [] := by
    rcases List.exists_mem_of_ne_nil _ hpassed with ⟨cand, hcand⟩
    exact List.ne_nil_of_mem (Ranking.mem_rank.2 hcand)
  have hscores : e.scoreCandidates ctx (candidates ctx none st.store) st =
      (.ok ((Ranking.rank (tally (e.votes ctx st)) (e.passed ctx st)).map
        (tallied (e.votes ctx st)), HybridStrategy.name), { st with inner := s' }) := by
    have hne : ranked ≠ [] := by
      rw [hranked]
      exact fun hnil => hids (List.map_eq_nil_iff.1 hnil)
    have hstrategy : e.primaryStrategy = e.hybrid.strategy := by
      unfold primaryStrategy
      rw [hprimary]
      rfl
    have hresult : e.primaryStrategy.evaluate ctx (candidates ctx none st.store) st.store st.inner =
        (.ok ranked, s') := by
      rw [hstrategy]
      exact heval
    have hok : e.scoreCandidates ctx (candidates ctx none st.store) st =
        (.ok (ranked, e.primaryStrategy.name), { st with inner := s' }) := by
      unfold scoreCandidates
      rw [hresult]
      exact if_pos hne
    rw [hok, hranked, hstrategy]
    rfl
  have htrace' : (e.traceSubScores && HybridStrategy.name == HybridStrategy.name) = false := by
    rw [htrace, Bool.false_and]
  have hnan : ∀ cand ∈ Ranking.rank (tally (e.votes ctx st)) (e.passed ctx st),
      ¬IsNan (tallied (e.votes ctx st) cand).score := fun _ _ => not_isNan_of_val rfl
  rcases route_scored (fun _ => rfl) hcands hscores htrace' hcold hsession hids hnan now with
    ⟨d, st'', hroute, hname, hmem, hmax⟩
  refine ⟨d, st'', hroute, hname, Ranking.mem_rank.1 hmem, ?_⟩
  intro cand hcand
  have hcand' : cand ∈ Ranking.rank (tally (e.votes ctx st)) (e.passed ctx st) :=
    Ranking.mem_rank.2 hcand
  have hle : Floating.le (tallied (e.votes ctx st) cand).score
      (tallied (e.votes ctx st) d.backend).score = true :=
    le_iff.2 ⟨hnan cand hcand', hnan d.backend hmem, hmax cand hcand'⟩
  exact of_decide_eq_true ((ExtRat.le_num _ _).symm.trans hle)

/-- A candidate that is dearer than the decided one with no strategy is cheaper with none that
counts. -/
theorem route_not_dearer (hprimary : e.primary = none) (htrace : e.traceSubScores = false)
    (hw : e.hybrid.NonNegative) (heach : e.hybrid.ScoresEach)
    (hcold : Floating.le e.temperature (Floating.ofNat 0) = true) (hsession : ctx.sessionId = none)
    (hnodup : (e.passed ctx st).Nodup) (hcovers : ∀ v ∈ e.votes ctx st, v.Covers (e.passed ctx st))
    (hpassed : e.passed ctx st ≠ []) (now : Nat) :
    ∃ d st', e.route now ctx st = (.ok d, st') ∧ d.strategy = HybridStrategy.name ∧
      d.backend ∈ e.passed ctx st ∧
      ∀ cand ∈ e.passed ctx st, (∀ v ∈ e.votes ctx st, v.Prefers cand d.backend) →
        ∀ v ∈ e.votes ctx st, ¬v.PrefersStrictly cand d.backend := by
  rcases route_hybrid hprimary htrace hw heach hcold hsession hpassed now with
    ⟨d, st', hroute, hname, hmem, hmax⟩
  refine ⟨d, st', hroute, hname, hmem, ?_⟩
  intro cand hcand hprefers v hv hstrict
  exact absurd (hmax cand hcand)
    (not_le.2 (tally_lt hw hnodup hcovers hcand hmem hprefers hv hstrict))

end RoutingEngine

end HierKvGateway
