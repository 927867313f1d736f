import HierKvGateway.Routing.Admission
import HierKvGateway.Routing.Draws

/-!
# Routing.ModelTier — small models first

The tiering strategy (`model_tier.rs`) prefers small or large models: by how complex a request is
(`pick`), or the small ones first whatever the request (`fallback`). The second is for the primary
strategy, whose scores are to be the order in which the backends are tried. But the order is drawn
from the scores, and at a temperature above 0 it is drawn at random.

1. `ModelTierStrategy.inOrder_iff`: the small models come first whatever is drawn exactly if nothing
   but the best tier left can be drawn while it matters.
2. `ModelTierStrategy.steady_of_cold`: so they do if the temperature is not positive.
3. `ModelTierStrategy.steady_iff`: with exact numbers, they do not at a positive temperature, unless
   there is one tier or one slot.
-/

namespace HierKvGateway

/-- A model's tier. -/
inductive ModelTier where
  | small
  | large
deriving DecidableEq, Repr

/-- How the strategy chooses between small and large. -/
inductive TierRoutingPolicy where
  /-- By the complexity of the request. -/
  | pick (promptTokenThreshold maxTokenThreshold : BitVec 32) (preferLargeForTools : Bool)
  /-- Small first. -/
  | fallback
deriving DecidableEq, Repr

/-- The tier of a model. -/
structure TierEntry where
  model : String
  tier : ModelTier
deriving DecidableEq, Repr

/-- The configuration of the strategy. -/
structure ModelTierConfig (F : Type) where
  weight : F
  policy : TierRoutingPolicy
  tiers : List TierEntry

/-- `ModelTierConfig::tier_for`. -/
def ModelTierConfig.tierFor {F : Type} (cfg : ModelTierConfig F) (model : String) :
    Option ModelTier :=
  (cfg.tiers.find? fun entry => entry.model = model).map (·.tier)

/-- The tiering strategy. -/
structure ModelTierStrategy (F : Type) where
  cfg : ModelTierConfig F

namespace ModelTierStrategy

variable {F σ : Type}

/-- The tier of the requested model if the backend serves it, or else of the first model that has
one. -/
def resolveTier (t : ModelTierStrategy F) (store : MetadataStore F) (requested : Option String)
    (backend : BackendId) : Option ModelTier :=
  let instances := store.modelGetInstances backend
  -- without this guard every candidate would have the tier of the requested model
  let preferred := requested.bind fun name =>
    if instances.any (·.modelName = name) then t.cfg.tierFor name else none
  preferred.or (instances.findSome? fun inst => t.cfg.tierFor inst.modelName)

/-- `estimate_prompt_tokens`: the same as of the KV-capacity strategy. -/
def estimatePromptTokens (ctx : RoutingContext) : BitVec 32 :=
  KvCapacityStrategy.estimatePromptTokens ctx

/-- The request is complex under the thresholds of `pick`. -/
def isComplex (t : ModelTierStrategy F) (ctx : RoutingContext) : Bool :=
  match t.cfg.policy with
  | .pick promptTokenThreshold maxTokenThreshold preferLargeForTools =>
    decide (promptTokenThreshold < estimatePromptTokens ctx) ||
      decide (maxTokenThreshold < ctx.estimatedOutputTokens) ||
        preferLargeForTools && ctx.requiresToolCalling
  | .fallback => false

section Score

variable [Floating F]

/-- The cost of a tier under `pick`. -/
def pickCost (desired : ModelTier) : Option ModelTier → F
  | some tier => if tier = desired then Floating.ofNat 0 else Floating.ofNat 1
  | none => Floating.lit 5 1

/-- The score of a tier under `fallback`. -/
def fallbackScore : Option ModelTier → F
  | some .small => Floating.ofNat 1
  | some .large => Floating.ofNat 0
  | none => Floating.lit 5 1

/-- The score of a candidate. -/
def scoreOf (t : ModelTierStrategy F) (ctx : RoutingContext) (store : MetadataStore F)
    (cand : BackendId) : ScoredBackend F :=
  let tier := t.resolveTier store ctx.modelName cand
  match t.cfg.policy with
  | .pick .. =>
    let desired := if t.isComplex ctx then ModelTier.large else .small
    let rawCost : F := pickCost desired tier
    ⟨cand, Floating.ofNat 1 - rawCost, rawCost, 0⟩
  | .fallback =>
    let score : F := fallbackScore tier
    ⟨cand, score, -score, 0⟩

/-- `ModelTierStrategy::name`. -/
def name : String := "model_tier"

/-- The tiering strategy as a strategy. -/
def strategy (t : ModelTierStrategy F) : RoutingStrategy F σ where
  name := name
  evaluate ctx candidates store s := (.ok (candidates.map (t.scoreOf ctx store)), s)
  isAvailable _ := !t.cfg.tiers.isEmpty
  weight := t.cfg.weight

theorem backendId_scoreOf (t : ModelTierStrategy F) (ctx : RoutingContext) (store : MetadataStore F)
    (cand : BackendId) : (t.scoreOf ctx store cand).backendId = cand := by
  unfold scoreOf
  dsimp only
  split
  · rfl
  · rfl

theorem score_scoreOf {t : ModelTierStrategy F} (hpolicy : t.cfg.policy = .fallback)
    (ctx : RoutingContext) (store : MetadataStore F) (cand : BackendId) :
    (t.scoreOf ctx store cand).score = fallbackScore (t.resolveTier store ctx.modelName cand) := by
  unfold scoreOf
  rw [hpolicy]

end Score

/-! ## The order of the tiers -/

/-- The place of a tier: small, unknown, large. -/
def place : Option ModelTier → Nat
  | some .small => 0
  | none => 1
  | some .large => 2

/-- No backend is behind one of a later tier. -/
def InOrder (t : ModelTierStrategy F) (ctx : RoutingContext) (store : MetadataStore F)
    (backends : List BackendId) : Prop :=
  backends.Pairwise fun a b =>
    place (t.resolveTier store ctx.modelName a) ≤ place (t.resolveTier store ctx.modelName b)

section Rounded

variable [Floating F] [RoundedFloating F]

open RoundedFloating

theorem val_fallbackScore (tier : Option ModelTier) :
    val (fallbackScore tier : F) = .num (1 - place tier / 2) := by
  rcases tier with _ | _ | _
  · have hhalf : round F (1 / 2) = .num (1 / 2) := by
      have h := round_half (F := F) (n := 1) (by norm_num)
      rwa [Nat.cast_one] at h
    show val (Floating.lit 5 1 : F) = .num (1 - ((1 : Nat) : Rat) / 2)
    rw [val_lit, show (((5 : Nat) : Rat) / 10 ^ 1) = 1 / 2 by norm_num, hhalf]
    norm_num
  · show val (Floating.ofNat 1 : F) = .num (1 - ((0 : Nat) : Rat) / 2)
    rw [val_one]
    norm_num
  · show val (Floating.ofNat 0 : F) = .num (1 - ((2 : Nat) : Rat) / 2)
    rw [val_zero]
    norm_num

/-- The earlier the tier, the higher the score. -/
theorem ord_fallbackScore_le_iff (a b : Option ModelTier) :
    ord (fallbackScore b : F) ≤ ord (fallbackScore a : F) ↔ place a ≤ place b := by
  have hord : ∀ p q : Rat, (ExtRat.num p).ord ≤ (ExtRat.num q).ord ↔ p ≤ q := by
    intro p q
    simp [ExtRat.ord]
  unfold ord
  rw [val_fallbackScore, val_fallbackScore, hord, ← Nat.cast_le (α := Rat)]
  constructor
  · intro h
    linarith
  · intro h
    linarith

end Rounded

/-! ## As the primary strategy -/

section Primary

variable [Floating F] {e : RoutingEngine F σ} {t : ModelTierStrategy F} {now limit : Nat}
  {ctx : RoutingContext} {st st' : EngineState F σ} {ds : List (RouteDecision F)}

open RoutingEngine

/-- The scores of the candidates of a request without a session. -/
def candidateScores (t : ModelTierStrategy F) (ctx : RoutingContext) (store : MetadataStore F) :
    List (ScoredBackend F) :=
  (candidates ctx none store).map (t.scoreOf ctx store)

theorem ids_candidateScores (t : ModelTierStrategy F) (ctx : RoutingContext)
    (store : MetadataStore F) :
    (t.candidateScores ctx store).map (·.backendId) = candidates ctx none store := by
  unfold candidateScores
  rw [List.map_map]
  refine (List.map_congr_left ?_).trans (List.map_id _)
  exact fun cand _ => t.backendId_scoreOf ctx store cand

theorem scoreCandidates_primary (hprimary : e.primary = some t.strategy)
    (hcands : candidates ctx none st.store ≠ []) :
    e.scoreCandidates ctx (candidates ctx none st.store) st =
      (.ok (t.candidateScores ctx st.store, name), st) := by
  have hne : t.candidateScores ctx st.store ≠ [] := by
    intro hnil
    exact hcands (List.map_eq_nil_iff.1 hnil)
  unfold scoreCandidates primaryStrategy
  rw [hprimary]
  exact if_pos hne

omit [Floating F] in
theorem affinityHead_of_no_session (hsession : ctx.sessionId = none) :
    e.affinityHead now ctx st = (none, st) := by
  refine affinityHead_eq_none.2 ⟨?_, rfl⟩
  unfold affinity
  rw [hsession]
  rfl

/-- The decisions are what is selected from the scores, if there are any. -/
theorem backends_of_routeCandidates (hprimary : e.primary = some t.strategy)
    (hsession : ctx.sessionId = none)
    (hres : e.routeCandidates now ctx limit st = (.ok ds, st')) :
    ds = [] ∨ ds.map (·.backend) =
      (e.selectRanked (t.candidateScores ctx st.store) e.temperature limit st.inner).1.map
        (·.backendId) := by
  unfold routeCandidates at hres
  split at hres
  · exact Or.inl (Except.ok.inj (Prod.mk.inj hres).1).symm
  · rw [affinityHead_of_no_session hsession] at hres
    rcases routeRest_ok hres with hnil | ⟨scored, used, st'', hcands, hscore, hds⟩
    · exact Or.inl hnil
    · right
      have heq := (scoreCandidates_primary hprimary hcands).symm.trans hscore
      obtain ⟨hscored, rfl⟩ := Prod.mk.inj heq
      rw [(Prod.mk.inj (Except.ok.inj hscored)).1]
      exact hds

omit [Floating F] in
/-- Nothing is traced of this strategy. -/
theorem traceScores_name (cands : List BackendId) (backend : BackendId) (st : EngineState F σ) :
    e.traceScores ctx cands name backend st = (.ok [], st) := by
  unfold traceScores
  rw [show (name == HybridStrategy.name) = false by decide, Bool.and_false]
  rfl

/-- What is selected is decided on. -/
theorem exists_routeCandidates (hprimary : e.primary = some t.strategy)
    (hsession : ctx.sessionId = none) {first : ScoredBackend F} {rest : List (ScoredBackend F)}
    (hlimit : limit ≠ 0) (hcands : candidates ctx none st.store ≠ [])
    (hselect : (e.selectRanked (t.candidateScores ctx st.store) e.temperature limit st.inner).1 =
      first :: rest) :
    ∃ ds st', e.routeCandidates now ctx limit st = (.ok ds, st') ∧
      ds.map (·.backend) = (first :: rest).map (·.backendId) := by
  have hroute : ∃ ds st', e.routeRest now ctx limit none st = (.ok ds, st') ∧
      ds.map (·.backend) = (first :: rest).map (·.backendId) := by
    unfold routeRest
    dsimp only [Option.map_none]
    rw [if_neg hcands, scoreCandidates_primary hprimary hcands]
    dsimp only [Option.toList_none, List.length_nil, Nat.sub_zero]
    rcases hranked : e.selectRanked (t.candidateScores ctx st.store) e.temperature limit st.inner
      with ⟨_ | ⟨pick, ranked⟩, inner⟩
    · rw [hranked] at hselect
      exact absurd hselect nofun
    · rw [hranked] at hselect
      dsimp only at hselect ⊢
      rw [← hselect]
      unfold conclude
      dsimp only
      rw [traceScores_name]
      exact ⟨_, _, rfl, map_backend_decisions ..⟩
  obtain ⟨ds, st', hres, hds⟩ := hroute
  refine ⟨ds, st', ?_, hds⟩
  unfold routeCandidates
  rw [if_neg hlimit, affinityHead_of_no_session hsession]
  exact hres

/-- The engine with the tiering strategy as the primary one, and a sampler. -/
def tiered (t : ModelTierStrategy F) (e : RoutingEngine F σ)
    (sampleIndex : List F → σ → Option Nat × σ) : RoutingEngine F σ :=
  { e.withPrimaryStrategy t.strategy with sampleIndex := sampleIndex }

/-- Whatever is drawn, the tiers are tried in order. -/
def TriedInOrder (t : ModelTierStrategy F) (e : RoutingEngine F σ) (now : Nat)
    (ctx : RoutingContext) (limit : Nat) (st : EngineState F σ) : Prop :=
  ∀ sampleIndex, Samples sampleIndex → ∀ ds st',
    (t.tiered e sampleIndex).routeCandidates now ctx limit st = (.ok ds, st') →
      t.InOrder ctx st.store (ds.map (·.backend))

section Rounded

variable [RoundedFloating F]

open RoundedFloating

theorem ord_scoreOf_le_iff (hpolicy : t.cfg.policy = .fallback) (store : MetadataStore F)
    (a b : BackendId) :
    ord (t.scoreOf ctx store b).score ≤ ord (t.scoreOf ctx store a).score ↔
      place (t.resolveTier store ctx.modelName a) ≤ place (t.resolveTier store ctx.modelName b) := by
  rw [score_scoreOf hpolicy, score_scoreOf hpolicy]
  exact ord_fallbackScore_le_iff _ _

/-- The order of the tiers is the order of the scores. -/
theorem inOrder_iff_sorted (hpolicy : t.cfg.policy = .fallback) {store : MetadataStore F}
    {scores : List (ScoredBackend F)} (hscores : scores ⊆ t.candidateScores ctx store) :
    t.InOrder ctx store (scores.map (·.backendId)) ↔
      scores.Pairwise fun a b => ord b.score ≤ ord a.score := by
  unfold InOrder
  rw [List.pairwise_map]
  apply List.Pairwise.iff_of_mem
  intro a b ha hb
  obtain ⟨cand, -, rfl⟩ := List.mem_map.1 (hscores ha)
  obtain ⟨cand', -, rfl⟩ := List.mem_map.1 (hscores hb)
  rw [backendId_scoreOf, backendId_scoreOf]
  exact (ord_scoreOf_le_iff hpolicy store cand cand').symm

theorem not_isNan_candidateScores (hpolicy : t.cfg.policy = .fallback) (store : MetadataStore F)
    {s : ScoredBackend F} (hs : s ∈ t.candidateScores ctx store) : ¬IsNan s.score := by
  obtain ⟨cand, -, rfl⟩ := List.mem_map.1 hs
  rw [score_scoreOf hpolicy]
  exact not_isNan_of_val (val_fallbackScore _)

omit [RoundedFloating F] in
/-- With some sampler, any list that can be drawn is what is tried. -/
theorem exists_tried (hsession : ctx.sessionId = none)
    (hnodup : ((t.candidateScores ctx st.store).map (·.backendId)).Nodup)
    {first : ScoredBackend F} {rest : List (ScoredBackend F)}
    (hout : Draws.Drawn (Drawable e.temperature) limit (t.candidateScores ctx st.store)
      (first :: rest)) :
    ∃ sampleIndex, Samples sampleIndex ∧ ∃ ds st',
      (t.tiered e sampleIndex).routeCandidates now ctx limit st = (.ok ds, st') ∧
        ds.map (·.backend) = (first :: rest).map (·.backendId) := by
  have hlen := hout.length_eq
  rw [List.length_cons] at hlen
  have hcands : candidates ctx none st.store ≠ [] := by
    intro hnil
    rw [candidateScores, hnil, List.map_nil, List.length_nil] at hlen
    omega
  obtain ⟨plan, hplan⟩ := exists_plan (σ := σ) hout hnodup
  have hselect := hplan plan (fun _ _ => rfl) (t.tiered e (samplePlan plan)) rfl st.inner
  refine ⟨samplePlan plan, samples_samplePlan plan, ?_⟩
  exact exists_routeCandidates rfl hsession (by omega) hcands hselect

/-- The tiers are tried in order whatever is drawn exactly if only candidates of the best tier left
can be drawn while more than one is still to be. -/
theorem inOrder_iff (t : ModelTierStrategy F) (hpolicy : t.cfg.policy = .fallback)
    (e : RoutingEngine F σ) (m : MetadataStore F) (ops : List RegistryOp)
    (prefixHistory : PrefixReuseHistory) (inner : σ) (now : Nat) (ctx : RoutingContext)
    (hsession : ctx.sessionId = none) (limit : Nat) :
    let st : EngineState F σ :=
      ⟨m.withRegistry (ops.foldl BackendRegistry.step .new), prefixHistory, inner⟩
    t.TriedInOrder e now ctx limit st ↔
      Draws.Steady (Drawable e.temperature) (fun s => ord s.score) limit
        (t.candidateScores ctx st.store) := by
  intro st
  have hnodup : ((t.candidateScores ctx st.store).map (·.backendId)).Nodup := by
    rw [ids_candidateScores]
    exact (candidates_spec ctx none m ops rfl).1
  have hpick : ∀ left, left ⊆ t.candidateScores ctx st.store → left ≠ [] →
      ∃ x ∈ left, Drawable e.temperature left x ∧ ∀ y ∈ left, ord y.score ≤ ord x.score := by
    intro left hsub hne
    refine exists_drawable_max hne ?_
    exact fun y hy => not_isNan_candidateScores hpolicy st.store (hsub hy)
  constructor
  · intro hall
    -- every list that can be drawn is tried with some sampler, so it has to be sorted
    refine (Draws.sorted_iff_steady hpick limit).1 ?_
    intro out hout
    rcases out with _ | ⟨first, rest⟩
    · exact List.Pairwise.nil
    · obtain ⟨sampleIndex, hs, ds, st', hres, hds⟩ := exists_tried hsession hnodup hout
      have horder := hall sampleIndex hs ds st' hres
      rw [hds, inOrder_iff_sorted hpolicy fun x hx => hout.mem hx] at horder
      exact horder
  · intro hsteady sampleIndex hs ds st' hres
    rcases backends_of_routeCandidates rfl hsession hres with rfl | hds
    · exact List.Pairwise.nil
    · have hdrawn : Draws.Drawn (Drawable e.temperature) limit (t.candidateScores ctx st.store)
          ((t.tiered e sampleIndex).selectRanked (t.candidateScores ctx st.store) e.temperature limit
            st.inner).1 := drawn_selectLoop hs limit hnodup st.inner
      rw [hds, inOrder_iff_sorted hpolicy]
      · exact hsteady.sorted hdrawn
      · exact fun x hx => hdrawn.mem hx

/-- If the temperature is not positive, or NaN, the tiers are tried in order. -/
theorem steady_of_cold (hpolicy : t.cfg.policy = .fallback) {temperature : F}
    (hcold : ¬Floating.lt (Floating.ofNat 0) temperature = true) (store : MetadataStore F) :
    Draws.Steady (Drawable temperature) (fun s => ord s.score) limit
      (t.candidateScores ctx store) := by
  apply Draws.steady_of_highest
  intro left x hsub hdraw
  exact max_of_cold hcold (fun y hy => not_isNan_candidateScores hpolicy store (hsub hy)) hdraw

end Rounded

/-- With exact numbers, the tiers are not tried in order at a positive temperature, unless there is
one tier, or one slot. -/
theorem steady_iff {t : ModelTierStrategy ExtRat} (hpolicy : t.cfg.policy = .fallback)
    (temperature : ExtRat) (limit : Nat) (ctx : RoutingContext) (store : MetadataStore ExtRat) :
    Draws.Steady (Drawable temperature) (fun s => RoundedFloating.ord s.score) limit
        (t.candidateScores ctx store) ↔
      ¬Floating.lt (Floating.ofNat 0) temperature = true ∨ limit ≤ 1 ∨
        ∀ a ∈ candidates ctx none store, ∀ b ∈ candidates ctx none store,
          place (t.resolveTier store ctx.modelName a) =
            place (t.resolveTier store ctx.modelName b) := by
  have hnum : ∀ s ∈ t.candidateScores ctx store, ∃ q, s.score = .num q := by
    intro s hs
    obtain ⟨cand, -, rfl⟩ := List.mem_map.1 hs
    rw [score_scoreOf hpolicy]
    exact ⟨_, val_fallbackScore (F := ExtRat) (t.resolveTier store ctx.modelName cand)⟩
  constructor
  · intro hsteady
    by_cases hwarm : Floating.lt (Floating.ofNat 0) temperature = true
    · right
      rcases limit with _ | _ | limit
      · exact Or.inl (Nat.zero_le 1)
      · exact Or.inl (Nat.le_refl 1)
      · right
        -- each candidate may be the first, and is then of the best tier
        have hbest : ∀ a ∈ candidates ctx none store, ∀ b ∈ candidates ctx none store,
            place (t.resolveTier store ctx.modelName a) ≤
              place (t.resolveTier store ctx.modelName b) := by
          intro a ha b hb
          have hmem : t.scoreOf ctx store a ∈ t.candidateScores ctx store := List.mem_map_of_mem ha
          obtain ⟨l, r, heq⟩ := List.append_of_mem hmem
          have hfirst := (hsteady l _ r heq (drawable_of_warm hwarm hnum hmem)).1
          exact (ord_scoreOf_le_iff hpolicy store a b).1 (hfirst _ (List.mem_map_of_mem hb))
        exact fun a ha b hb => le_antisymm (hbest a ha b hb) (hbest b hb a ha)
    · exact Or.inl hwarm
  · rintro (hcold | hone | htier)
    · exact steady_of_cold hpolicy hcold store
    · rcases limit with _ | _ | limit
      · exact trivial
      · exact trivial
      · omega
    · apply Draws.steady_of_highest
      intro left x hsub hdraw y hy
      obtain ⟨a, ha, rfl⟩ := List.mem_map.1 (hsub (mem_of_drawable hdraw))
      obtain ⟨b, hb, rfl⟩ := List.mem_map.1 (hsub hy)
      exact (ord_scoreOf_le_iff hpolicy store a b).2 (htier a ha b hb).le

end Primary

/-! ## A small and a large model -/

open RoutingEngine TwoBackends

/-- Of two backends, the first serves a small model and the second a large one. -/
def smallAndLarge : List RegistryOp :=
  [.register ⟨second, [⟨"l", "", 4096, false⟩], ⟨"r1"⟩, ⟨0⟩⟩,
    .register ⟨first, [⟨"s", "", 4096, false⟩], ⟨"r1"⟩, ⟨0⟩⟩]

/-- The state with the two backends. -/
def tieredState : EngineState ExtRat Unit :=
  ⟨(store .new).withRegistry (smallAndLarge.foldl BackendRegistry.step .new),
    PrefixReuseHistory.new 10000, ()⟩

/-- The small model first. -/
def smallFirst : ModelTierStrategy ExtRat :=
  ⟨⟨Floating.ofNat 1, .fallback, [⟨"s", .small⟩, ⟨"l", .large⟩]⟩⟩

theorem candidates_tieredState :
    candidates RoutingContext.default none tieredState.store = [first, second] := by
  have hids : ((tieredState.store.backendsAll.map (·.id)).filter fun id => some id ≠ none) =
      [first, second] := by decide +kernel
  show List.mergeSort _ backendLe = [first, second]
  rw [hids]
  exact List.mergeSort_of_pairwise (by decide +kernel)

/-- A greedy engine tries the small model first. -/
theorem inOrder_iff_greedy :
    smallFirst.TriedInOrder engine 0 RoutingContext.default 2 tieredState :=
  (inOrder_iff smallFirst rfl engine (store .new) smallAndLarge (PrefixReuseHistory.new 10000) () 0
    RoutingContext.default rfl 2).2 (steady_of_cold rfl (by decide +kernel) tieredState.store)

/-- At temperature 1, the large model may be drawn first. -/
theorem not_inOrder_largeDrawn :
    let e := smallFirst.tiered warmEngine (samplePlan fun n => n - 1)
    Samples e.sampleIndex ∧ ∃ ds st',
      e.routeCandidates 0 RoutingContext.default 2 tieredState = (.ok ds, st') ∧
        ds.map (·.backend) = [second, first] ∧
        ¬smallFirst.InOrder RoutingContext.default tieredState.store (ds.map (·.backend)) := by
  intro e
  have hids : (e.selectRanked (smallFirst.candidateScores RoutingContext.default
      tieredState.store) e.temperature 2 ()).1.map (·.backendId) = [second, first] := by
    unfold candidateScores
    rw [candidates_tieredState]
    decide +kernel
  have hcands : candidates RoutingContext.default none tieredState.store ≠ [] := by
    rw [candidates_tieredState]
    exact List.cons_ne_nil _ _
  obtain ⟨pick, ranked, hselect⟩ := List.exists_cons_of_ne_nil fun hnil =>
    List.cons_ne_nil second [first] (hids.symm.trans (congrArg _ hnil))
  obtain ⟨ds, st', hres, hds⟩ :=
    exists_routeCandidates rfl rfl (Nat.succ_ne_zero 1) hcands hselect
  rw [← hselect, hids] at hds
  refine ⟨samples_samplePlan fun n => n - 1, ds, st', hres, hds, ?_⟩
  rw [hds]
  unfold InOrder
  decide +kernel

end ModelTierStrategy

end HierKvGateway
