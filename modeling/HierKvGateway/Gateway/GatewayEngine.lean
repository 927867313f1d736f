import HierKvGateway.Routing.Comparison
import HierKvGateway.Routing.Dominance
import HierKvGateway.Routing.EffectiveWeights
import HierKvGateway.Routing.RoundRobin
import HierKvGateway.Routing.SpecCatalog

/-!
# Gateway.GatewayEngine — the engine that a configuration makes

The gateway builds its routing engine from the configuration (`build_routing_engine` in `main.rs`):
the hybrid strategy with the plugins that are enabled and, if that is enabled, the weight controller;
and the strategy in charge.

`GatewayConfig.route_undominated`: whatever is enabled, the engine does not decide for a backend if
another one that serves the same models is no worse in anything and better in something that counts.
-/

namespace HierKvGateway

/-! ## The configuration -/

/-- `StrategyType`. -/
inductive StrategyType where
  | hybrid
  | kv
  | model
  | load
  | topology
  | roundRobin
deriving DecidableEq, Repr

/-- `RoutingConfig`, as the engine is built from it. -/
structure RoutingConfig (F : Type) where
  strategy : StrategyType
  overlapScoreCredit : F
  prefillLoadScale : F
  temperature : F
  sessionAffinityTtlSecs : Nat
  maxRetries : Nat
  weights : AdaptiveWeights F
  /-- `adaptive.enabled`. -/
  adaptiveEnabled : Bool
  adaptive : AdaptiveConfig F

/-- `GatewayConfig`, as the engine is built from it. -/
structure GatewayConfig (F : Type) where
  /-- `region.id`. -/
  regionId : RegionId
  routing : RoutingConfig F
  cost : CostConfig F
  /-- `model_tier.enabled`. -/
  modelTierEnabled : Bool
  modelTier : ModelTierConfig F
  kvEstimate : KvEstimateConfig F

/-! ## The engine -/

/-- What the strategies of the gateway read and write besides the store. -/
structure StrategyState (C : Type) where
  indices : RoutingIndices
  roundRobin : RoundRobinStrategy
  controller : C
  /-- The clock. -/
  now : Nat

/-- What an engine runs on. -/
structure EngineParts (F C : Type) where
  xxh3 : Xxh3
  /-- The number with these bits. -/
  f64 : F64 → F
  /-- `effective_weights` of the controller, at an instant. -/
  control : Nat → MetadataStore F → C → StrategyWeights F × C
  sampleIndex : List F → StrategyState C → Option Nat × StrategyState C

namespace HybridStrategy

variable {F σ : Type}

/-- `HybridStrategy::new`. -/
def new (kv model load topology : RoutingStrategy F σ) (weights : StrategyWeights F)
    (temperature : F) : HybridStrategy F σ where
  kv := kv
  model := model
  load := load
  topology := topology
  weights := weights
  temperature := temperature
  adaptive := none
  plugins := []

/-- `with_adaptive`. -/
def withAdaptive (h : HybridStrategy F σ)
    (control : MetadataStore F → σ → StrategyWeights F × σ) : HybridStrategy F σ :=
  { h with adaptive := some control }

/-- `with_plugin`. -/
def withPlugin (h : HybridStrategy F σ) (plugin : RoutingStrategy F σ) : HybridStrategy F σ :=
  { h with plugins := h.plugins ++ [plugin] }

end HybridStrategy

namespace StrategyState

variable {F C : Type} [Floating F]

/-- The controller as the hybrid strategy asks it. -/
def askController (control : Nat → MetadataStore F → C → StrategyWeights F × C)
    (store : MetadataStore F) (s : StrategyState C) : StrategyWeights F × StrategyState C :=
  let (w, controller) := control s.now store s.controller
  (w, { s with controller := controller })

/-- The round-robin strategy in this state. -/
def roundRobinStrategy : RoutingStrategy F (StrategyState C) where
  name := RoundRobinStrategy.strategy.name (F := F)
  evaluate ctx candidates store s :=
    let (out, roundRobin) := RoundRobinStrategy.strategy.evaluate ctx candidates store s.roundRobin
    (out, { s with roundRobin := roundRobin })
  isAvailable := RoundRobinStrategy.strategy.isAvailable
  weight := RoundRobinStrategy.strategy.weight

end StrategyState

namespace GatewayConfig

variable {F C : Type} [Casting F]

/-- The KV-aware strategy of the configuration. -/
def kvAware (cfg : GatewayConfig F) : KvAwareStrategy F :=
  ⟨cfg.routing.overlapScoreCredit, cfg.routing.prefillLoadScale, Floating.ofNat 0⟩

/-- The topology-aware strategy of the configuration. -/
def topologyAware (cfg : GatewayConfig F) : TopologyAwareStrategy F :=
  ⟨Floating.ofNat 1, Floating.ofNat 0, cfg.regionId⟩

/-- `CostAwareStrategy::new`. -/
def costAware (cfg : GatewayConfig F) : CostAwareStrategy F :=
  ⟨cfg.cost.buildModel.costModel, cfg.cost⟩

/-- The KV-capacity strategy of the configuration. -/
def kvCapacity (cfg : GatewayConfig F) : KvCapacityStrategy F :=
  .new (.withCatalog cfg.kvEstimate.buildCatalog) cfg.kvEstimate

/-- The tier policy is to pick. -/
def picksTier (cfg : GatewayConfig F) : Bool :=
  match cfg.modelTier.policy with
  | .pick .. => true
  | .fallback => false

/-- The hybrid strategy, with what is enabled. -/
def hybrid (cfg : GatewayConfig F) (parts : EngineParts F C) :
    HybridStrategy F (StrategyState C) :=
  let w := cfg.routing.weights
  let h := HybridStrategy.new (cfg.kvAware.strategy parts.xxh3 (·.indices))
    ModelAwareStrategy.strategy (LoadAwareStrategy.default.strategy parts.f64)
    (cfg.topologyAware.strategy parts.f64 (·.indices)) ⟨w.kv, w.load, w.topology⟩
    cfg.routing.temperature
  let h := if cfg.routing.adaptiveEnabled then
    h.withAdaptive (StrategyState.askController parts.control) else h
  let h := if cfg.cost.enabled then h.withPlugin cfg.costAware.strategy else h
  -- the fallback policy is no plugin, it takes charge
  let h := if cfg.modelTierEnabled && cfg.picksTier then
    h.withPlugin (ModelTierStrategy.mk cfg.modelTier).strategy else h
  if cfg.kvEstimate.enabled then h.withPlugin cfg.kvCapacity.strategy else h

/-- The strategy in charge; none if that is the hybrid one. -/
def primary (cfg : GatewayConfig F) (parts : EngineParts F C) :
    Option (RoutingStrategy F (StrategyState C)) :=
  if cfg.modelTierEnabled && !cfg.picksTier then
    some (ModelTierStrategy.mk cfg.modelTier).strategy
  else
    match cfg.routing.strategy with
    | .hybrid => none
    | .roundRobin => some StrategyState.roundRobinStrategy
    | .kv => some (cfg.kvAware.strategy parts.xxh3 (·.indices))
    | .model => some ModelAwareStrategy.strategy
    | .load => some (LoadAwareStrategy.default.strategy parts.f64)
    | .topology => some (cfg.topologyAware.strategy parts.f64 (·.indices))

/-- `build_routing_engine`. -/
def buildRoutingEngine (cfg : GatewayConfig F) (parts : EngineParts F C) :
    RoutingEngine F (StrategyState C) :=
  let engine := RoutingEngine.new (cfg.hybrid parts) (.fromSecs cfg.routing.sessionAffinityTtlSecs)
    cfg.routing.maxRetries cfg.regionId parts.xxh3 parts.sampleIndex
  match cfg.primary parts with
  | some p => engine.withPrimaryStrategy p
  | none => engine

/-! ## What is built -/

/-- The plugins that are enabled. -/
def plugins (cfg : GatewayConfig F) : List (RoutingStrategy F (StrategyState C)) :=
  (if cfg.cost.enabled then [cfg.costAware.strategy] else []) ++
    (if cfg.modelTierEnabled && cfg.picksTier then [(ModelTierStrategy.mk cfg.modelTier).strategy]
      else []) ++
    (if cfg.kvEstimate.enabled then [cfg.kvCapacity.strategy] else [])

theorem hybrid_eq (cfg : GatewayConfig F) (parts : EngineParts F C) :
    cfg.hybrid parts =
      { kv := cfg.kvAware.strategy parts.xxh3 (·.indices)
        model := ModelAwareStrategy.strategy
        load := LoadAwareStrategy.default.strategy parts.f64
        topology := cfg.topologyAware.strategy parts.f64 (·.indices)
        weights := ⟨cfg.routing.weights.kv, cfg.routing.weights.load, cfg.routing.weights.topology⟩
        temperature := cfg.routing.temperature
        adaptive := if cfg.routing.adaptiveEnabled then
          some (StrategyState.askController parts.control) else none
        plugins := cfg.plugins } := by
  unfold hybrid plugins
  dsimp only
  split <;> split <;> split <;> split <;> rfl

end GatewayConfig

/-! ## The strategies agree on what is no worse -/

/-- The strategy scores the candidates one by one; in this state they all have a cost, and one that
is no worse than another does not cost more. -/
structure RoutingStrategy.Respects {C : Type} (p : RoutingStrategy ExtRat (StrategyState C))
    (H : Xxh3) (ctx : RoutingContext) (store : MetadataStore ExtRat) (selfRegion : RegionId)
    (s : StrategyState C) (score : RoutingContext → MetadataStore ExtRat → StrategyState C →
      BackendId → ScoredBackend ExtRat) : Prop where
  each : p.ScoresEach score
  cost : ∀ cand, (score ctx store s cand).rawCost = .posInf ∨
    ∃ q, (score ctx store s cand).rawCost = .num q
  noDearer : ∀ x y, NoWorse H ctx store s.indices selfRegion x y →
    (score ctx store s x).rawCost.NoDearer (score ctx store s y).rawCost

/-- The metrics and the latencies of a gateway are sane. -/
structure SaneState {C : Type} (store : MetadataStore ExtRat) (s : StrategyState C) : Prop where
  metrics : ∀ backend m, store.loadGetMetrics backend = some m → m.Sane
  timed : TopologyAwareStrategy.Timed ExtRat.ofBits s.indices

namespace GatewayConfig

open AdaptiveWeightController

/-- The numbers of a configuration are numbers, and no weight, scale or part is negative. -/
structure Exact (cfg : GatewayConfig ExtRat) (minWeight : Rat) : Prop where
  routing : ExactConfig cfg.routing.weights cfg.routing.adaptive
  minWeight : cfg.routing.adaptive.minWeight = .num minWeight
  prefillLoadScale : cfg.routing.prefillLoadScale.NonNegative
  costWeight : cfg.cost.weight.NonNegative
  tierWeight : cfg.modelTier.weight.NonNegative
  capacityWeight : cfg.kvEstimate.weight.NonNegative
  fraction : cfg.kvEstimate.gpuMemSafetyFraction.NonNegative

section Strategies

variable {C : Type} {cfg : GatewayConfig ExtRat} {minWeight : Rat} (H : Xxh3)
  (ctx : RoutingContext) (selfRegion : RegionId)

section Sane

variable {store : MetadataStore ExtRat} {s : StrategyState C}

theorem respects_loadAware (hsane : SaneState store s) :
    (LoadAwareStrategy.default.strategy ExtRat.ofBits).Respects H ctx store selfRegion s
      fun ctx store _ => LoadAwareStrategy.default.scoreOf ExtRat.ofBits ctx store where
  each := ⟨fun _ _ _ _ => rfl, fun ctx store _ cand =>
    LoadAwareStrategy.default.backendId_scoreOf ExtRat.ofBits ctx store cand⟩
  cost cand := by
    unfold LoadAwareStrategy.scoreOf
    split
    · exact Or.inr ⟨_, rfl⟩
    · rename_i m hm
      split
      · exact Or.inr ⟨_, rfl⟩
      · exact (LoadAwareStrategy.isCost_loadCost ctx (hsane.metrics cand m hm)).cases
  noDearer _ _ h := LoadAwareStrategy.noDearer_scoreOf h

theorem respects_topologyAware (cfg : GatewayConfig ExtRat) (hsane : SaneState store s) :
    (cfg.topologyAware.strategy ExtRat.ofBits (·.indices)).Respects H ctx store cfg.regionId s
      fun _ _ s => cfg.topologyAware.scoreOf ExtRat.ofBits s.indices where
  each := ⟨fun _ _ _ _ => rfl, fun _ _ _ _ => rfl⟩
  cost cand := (TopologyAwareStrategy.isCost_networkCost (ExtRat.ofNat_eq 1) (by norm_num)
    hsane.timed cand).cases
  noDearer _ _ h :=
    TopologyAwareStrategy.noDearer_scoreOf (ExtRat.ofNat_eq 1) (by norm_num) h

end Sane

variable (store : MetadataStore ExtRat) (s : StrategyState C)

theorem respects_kvAware (hcfg : cfg.Exact minWeight) :
    (cfg.kvAware.strategy H (·.indices)).Respects H ctx store selfRegion s
      fun ctx store s => cfg.kvAware.scoreOf H s.indices ctx store where
  each := ⟨fun _ _ _ _ => rfl, fun ctx store s cand =>
    cfg.kvAware.backendId_scoreOf H s.indices ctx store cand⟩
  cost cand := by
    rcases hcfg.prefillLoadScale with ⟨scale, -, hscale⟩
    exact Or.inr ⟨_, KvAwareStrategy.rawCost_scoreOf hscale
      (KvAwareStrategy.totalOverlap_eq rfl ctx.blockHashes cand)⟩
  noDearer _ _ h := KvAwareStrategy.noDearer_scoreOf rfl hcfg.prefillLoadScale h

theorem respects_costAware (c : CostAwareStrategy ExtRat) :
    c.strategy.Respects H ctx store selfRegion s fun ctx store _ => c.scoreOf ctx store where
  each := ⟨fun _ _ _ _ => rfl, fun ctx store _ cand => c.backendId_scoreOf ctx store cand⟩
  cost cand := (c.isCost_rawCost ctx store cand).cases
  noDearer _ _ h := c.noDearer_scoreOf h

theorem respects_modelTier {t : ModelTierStrategy ExtRat} (hpick : t.cfg.policy ≠ .fallback) :
    t.strategy.Respects H ctx store selfRegion s fun ctx store _ => t.scoreOf ctx store where
  each := ⟨fun _ _ _ _ => rfl, fun ctx store _ cand => t.backendId_scoreOf ctx store cand⟩
  cost cand := (ModelTierStrategy.isCost_rawCost hpick ctx store cand).cases
  noDearer _ _ h := ModelTierStrategy.noDearer_scoreOf hpick h

theorem respects_kvCapacity {k : KvCapacityStrategy ExtRat}
    (hfraction : k.gpuMemSafetyFraction.NonNegative) :
    k.strategy.Respects H ctx store selfRegion s fun ctx store _ => k.scoreOf ctx store where
  each := ⟨fun _ _ _ _ => rfl, fun ctx store _ cand => k.backendId_scoreOf ctx store cand⟩
  cost cand := KvCapacityStrategy.rawCost_cases hfraction ctx store cand
  noDearer _ _ h := KvCapacityStrategy.noDearer_scoreOf hfraction h

/-- The plugins are those three. -/
theorem mem_plugins {p : RoutingStrategy ExtRat (StrategyState C)} (hp : p ∈ cfg.plugins) :
    p = cfg.costAware.strategy ∨
      (cfg.modelTier.policy ≠ .fallback ∧ p = (ModelTierStrategy.mk cfg.modelTier).strategy) ∨
        p = cfg.kvCapacity.strategy := by
  unfold plugins at hp
  simp only [List.mem_append, List.mem_ite_nil_right, List.mem_singleton, Bool.and_eq_true] at hp
  rcases hp with (⟨-, rfl⟩ | ⟨⟨-, hpick⟩, rfl⟩) | ⟨-, rfl⟩
  · exact Or.inl rfl
  · refine Or.inr (Or.inl ⟨?_, rfl⟩)
    intro hfallback
    unfold picksTier at hpick
    rw [hfallback] at hpick
    exact Bool.false_ne_true hpick
  · exact Or.inr (Or.inr rfl)

/-- So does every plugin. -/
theorem exists_respects (hcfg : cfg.Exact minWeight)
    {p : RoutingStrategy ExtRat (StrategyState C)} (hp : p ∈ cfg.plugins) :
    ∃ score, p.Respects H ctx store selfRegion s score := by
  rcases mem_plugins hp with rfl | ⟨hpick, rfl⟩ | rfl
  · exact ⟨_, respects_costAware H ctx selfRegion store s cfg.costAware⟩
  · exact ⟨_, respects_modelTier H ctx selfRegion store s hpick⟩
  · exact ⟨_, respects_kvCapacity H ctx selfRegion store s hcfg.fraction⟩

theorem nonNegative_weight (hcfg : cfg.Exact minWeight)
    {p : RoutingStrategy ExtRat (StrategyState C)} (hp : p ∈ cfg.plugins) :
    p.weight.NonNegative := by
  rcases mem_plugins hp with rfl | ⟨-, rfl⟩ | rfl
  · exact hcfg.costWeight
  · exact hcfg.tierWeight
  · exact hcfg.capacityWeight

end Strategies

/-! ## The weights -/

variable {cfg : GatewayConfig ExtRat} {minWeight : Rat}

/-- The controllers that the engine of a configuration can come to have. -/
abbrev Controller (cfg : GatewayConfig ExtRat) (minWeight : Rat) : Type :=
  InEffect cfg.routing.weights cfg.routing.adaptive minWeight

/-- The parts of an engine over exact numbers. -/
def exactParts (hcfg : cfg.Exact minWeight) (H : Xxh3) (sqrt : ExtRat → ExtRat)
    (sampleIndex : List ExtRat → StrategyState (Controller cfg minWeight) →
      Option Nat × StrategyState (Controller cfg minWeight)) :
    EngineParts ExtRat (Controller cfg minWeight) where
  xxh3 := H
  f64 := ExtRat.ofBits
  control := controlled hcfg.routing hcfg.minWeight sqrt
  sampleIndex := sampleIndex

/-- A weight counts: it is positive, and the controller, if there is one, does not take it away. -/
def Counts (cfg : GatewayConfig ExtRat) (minWeight : Rat) (weight : ExtRat) : Prop :=
  (∃ q, weight = .num q ∧ 0 < q) ∧ (cfg.routing.adaptiveEnabled = true → 0 < minWeight)

/-- A weight that counts is positive in effect. -/
theorem Counts.exists_pos {w : AdaptiveWeights ExtRat}
    (hw : w = cfg.routing.weights ∨ cfg.routing.adaptiveEnabled = true ∧
      AreShares (effectiveFloor minWeight) w) (field : AdaptiveWeights ExtRat → ExtRat)
    (hfield : field w ∈ [w.kv, w.load, w.topology])
    (hcounts : cfg.Counts minWeight (field cfg.routing.weights)) :
    ∃ q, field w = .num q ∧ 0 < q := by
  rcases hw with rfl | ⟨hadaptive, kv, load, topology, cost, rfl, -, hfloor⟩
  · exact hcounts.1
  · have hpos : 0 < effectiveFloor minWeight :=
      lt_max_of_lt_right (lt_min (hcounts.2 hadaptive) (by norm_num))
    simp only [List.mem_cons, List.not_mem_nil, or_false] at hfield
    rcases hfield with h | h | h
    · exact ⟨kv, h, hpos.trans_le (hfloor kv (by simp))⟩
    · exact ⟨load, h, hpos.trans_le (hfloor load (by simp))⟩
    · exact ⟨topology, h, hpos.trans_le (hfloor topology (by simp))⟩

section Built

variable (hcfg : cfg.Exact minWeight) (H : Xxh3) (sqrt : ExtRat → ExtRat)
  (sampleIndex : List ExtRat → StrategyState (Controller cfg minWeight) →
    Option Nat × StrategyState (Controller cfg minWeight))
  (store : MetadataStore ExtRat) (s : StrategyState (Controller cfg minWeight))

/-- The weights in effect are the configured ones or, with the controller, shares of one. -/
theorem exists_baseWeights :
    ∃ w : AdaptiveWeights ExtRat,
      ((cfg.hybrid (exactParts hcfg H sqrt sampleIndex)).effectiveBaseWeights store s).1 =
        ⟨w.kv, w.load, w.topology⟩ ∧
      (w = cfg.routing.weights ∨ cfg.routing.adaptiveEnabled = true ∧
        AreShares (effectiveFloor minWeight) w) := by
  rw [hybrid_eq]
  unfold HybridStrategy.effectiveBaseWeights
  dsimp only
  cases hadaptive : cfg.routing.adaptiveEnabled with
  | false => exact ⟨cfg.routing.weights, rfl, Or.inl rfl⟩
  | true =>
    have hcurrent := (s.controller.property.adjust hcfg.routing hcfg.minWeight sqrt store
      s.now).current
    refine ⟨(s.controller.val.adjust sqrt store s.now).current, rfl, ?_⟩
    exact hcurrent.imp_right fun hshares => ⟨rfl, hshares⟩

/-- The controller does not write the indices. -/
theorem indices_effectiveBaseWeights :
    ((cfg.hybrid (exactParts hcfg H sqrt sampleIndex)).effectiveBaseWeights store s).2.indices =
      s.indices := by
  rw [hybrid_eq]
  unfold HybridStrategy.effectiveBaseWeights
  dsimp only
  cases cfg.routing.adaptiveEnabled with
  | false => rfl
  | true => rfl

theorem nonNegative_hybrid :
    (cfg.hybrid (exactParts hcfg H sqrt sampleIndex)).NonNegative := by
  refine ⟨fun store s => ?_, fun p hp => ?_⟩
  · rcases exists_baseWeights hcfg H sqrt sampleIndex store s with ⟨w, hw, rfl | ⟨-, hshares⟩⟩
    · rw [hw]
      exact ⟨hcfg.routing.kv, hcfg.routing.load, hcfg.routing.topology⟩
    · rcases hshares with ⟨kv, load, topology, cost, rfl, -, hfloor⟩
      have hnonneg : ∀ v ∈ [kv, load, topology, cost], 0 ≤ v :=
        fun v hv => (le_max_left 0 _).trans (hfloor v hv)
      rw [hw]
      exact ⟨⟨kv, hnonneg kv (by simp), rfl⟩, ⟨load, hnonneg load (by simp), rfl⟩,
        ⟨topology, hnonneg topology (by simp), rfl⟩⟩
  · rw [hybrid_eq] at hp
    exact nonNegative_weight hcfg hp

/-! ## The votes -/

variable {hcfg H sqrt sampleIndex store s} {ctx : RoutingContext} {cands : List BackendId}

theorem saneState_effectiveBaseWeights (hsane : SaneState store s) :
    SaneState store
      ((cfg.hybrid (exactParts hcfg H sqrt sampleIndex)).effectiveBaseWeights store s).2 where
  metrics := hsane.metrics
  timed := by
    rw [indices_effectiveBaseWeights]
    exact hsane.timed

/-- All strategies that vote respect what is no worse. -/
theorem exists_respects_of_ballot (ctx : RoutingContext) (hsane : SaneState store s)
    {w : HybridStrategy.DecisionWeights ExtRat}
    {p : RoutingStrategy ExtRat (StrategyState (Controller cfg minWeight)) × ExtRat}
    (hp : p ∈ (cfg.hybrid (exactParts hcfg H sqrt sampleIndex)).ballot w) :
    ∃ score, p.1.Respects H ctx store cfg.regionId s score := by
  rw [hybrid_eq] at hp
  unfold HybridStrategy.ballot at hp
  simp only [List.mem_cons] at hp
  rcases hp with rfl | rfl | rfl | hq
  · exact ⟨_, respects_kvAware H ctx cfg.regionId store s hcfg⟩
  · exact ⟨_, respects_loadAware H ctx cfg.regionId hsane⟩
  · exact ⟨_, respects_topologyAware H ctx cfg hsane⟩
  · exact exists_respects H ctx cfg.regionId store s hcfg (List.of_mem_zip hq).1

theorem scoresEach_hybrid (hsane : SaneState store s) :
    (cfg.hybrid (exactParts hcfg H sqrt sampleIndex)).ScoresEach := by
  intro p hp
  rw [hybrid_eq] at hp
  unfold HybridStrategy.subStrategies at hp
  simp only [List.mem_cons] at hp
  rcases hp with rfl | rfl | rfl | rfl | hp
  · exact ⟨fun ctx store _ => ModelAwareStrategy.scoreOf ctx store, fun _ _ _ _ => rfl,
      fun ctx store _ cand => ModelAwareStrategy.backendId_scoreOf ctx store cand⟩
  · exact ⟨_, (respects_kvAware H .default cfg.regionId store s hcfg).each⟩
  · exact ⟨_, (respects_loadAware H .default cfg.regionId hsane).each⟩
  · exact ⟨_, (respects_topologyAware H .default cfg hsane).each⟩
  · rcases exists_respects H .default cfg.regionId store s hcfg hp with ⟨score, hscore⟩
    exact ⟨score, hscore.each⟩

/-- A vote is made of the scores of a strategy that respects what is no worse. -/
theorem exists_scores_of_vote (hsane : SaneState store s) {v : HybridStrategy.Vote ExtRat}
    (hv : v ∈ (cfg.hybrid (exactParts hcfg H sqrt sampleIndex)).votes ctx cands store s) :
    let h := cfg.hybrid (exactParts hcfg H sqrt sampleIndex)
    let s' := (h.effectiveBaseWeights store s).2
    ∃ (p : RoutingStrategy ExtRat (StrategyState (Controller cfg minWeight)))
      (score : RoutingContext → MetadataStore ExtRat → StrategyState (Controller cfg minWeight) →
        BackendId → ScoredBackend ExtRat),
      p.Respects H ctx store cfg.regionId s' score ∧
        v.scores = (h.passed ctx cands store s).map (score ctx store s') := by
  intro h s'
  rcases (HybridStrategy.mem_votes (scoresEach_hybrid hsane) v).1 hv with ⟨p, hp, -, -, heval⟩
  rcases exists_respects_of_ballot ctx (saneState_effectiveBaseWeights hsane) hp with
    ⟨score, hscore⟩
  refine ⟨p.1, score, hscore, ?_⟩
  rw [hscore.each.evaluate] at heval
  exact (Except.ok.inj (Prod.mk.inj heval).1).symm

theorem covers_of_vote (hsane : SaneState store s) {v : HybridStrategy.Vote ExtRat}
    (hv : v ∈ (cfg.hybrid (exactParts hcfg H sqrt sampleIndex)).votes ctx cands store s) :
    v.Covers ((cfg.hybrid (exactParts hcfg H sqrt sampleIndex)).passed ctx cands store s) := by
  rcases exists_scores_of_vote hsane hv with ⟨p, score, hscore, hscores⟩
  unfold HybridStrategy.Vote.Covers
  rw [hscores]
  constructor
  · rw [List.map_map]
    refine List.Perm.of_eq ((List.map_congr_left ?_).trans (List.map_id _))
    exact fun cand _ => hscore.each.backendId ctx store _ cand
  · intro scored hmem
    rcases List.mem_map.1 hmem with ⟨cand, -, rfl⟩
    exact hscore.cost cand

/-- Every vote is for what is no worse. -/
theorem prefers_of_noWorse (hsane : SaneState store s) {x y : BackendId}
    (h : NoWorse H ctx store s.indices cfg.regionId x y) {v : HybridStrategy.Vote ExtRat}
    (hv : v ∈ (cfg.hybrid (exactParts hcfg H sqrt sampleIndex)).votes ctx cands store s) :
    v.Prefers x y := by
  rcases exists_scores_of_vote hsane hv with ⟨p, score, hscore, hscores⟩
  intro a ha b hb hx hy
  rw [hscores] at ha hb
  rcases List.mem_map.1 ha with ⟨x', -, rfl⟩
  rcases List.mem_map.1 hb with ⟨y', -, rfl⟩
  rw [hscore.each.backendId] at hx hy
  subst hx hy
  rw [← indices_effectiveBaseWeights hcfg H sqrt sampleIndex store s] at h
  exact (hscore.noDearer _ _ h).le

end Built

/-! ## The decision -/

/-- A backend is cheaper than another one, both with a finite cost. -/
def Cheaper (score : BackendId → ScoredBackend ExtRat) (x y : BackendId) : Prop :=
  ∃ p q, (score x).rawCost = .num p ∧ (score y).rawCost = .num q ∧ p < q

/-- A backend is better than another one in something that counts: it has more to reuse, is less
loaded or nearer, and the weight of that counts. -/
def Better (cfg : GatewayConfig ExtRat) (minWeight : Rat) (H : Xxh3) (ctx : RoutingContext)
    (store : MetadataStore ExtRat) (ix : RoutingIndices) (x y : BackendId) : Prop :=
  cfg.Counts minWeight cfg.routing.weights.kv ∧
      Floating.lt (Floating.ofNat 0) store.kvConfidence = true ∧
        Cheaper (cfg.kvAware.scoreOf H ix ctx store) x y ∨
    cfg.Counts minWeight cfg.routing.weights.load ∧
      Cheaper (LoadAwareStrategy.default.scoreOf ExtRat.ofBits ctx store) x y ∨
    cfg.Counts minWeight cfg.routing.weights.topology ∧
      Cheaper (cfg.topologyAware.scoreOf ExtRat.ofBits ix) x y

section Decision

variable {hcfg : cfg.Exact minWeight} {H : Xxh3} {sqrt : ExtRat → ExtRat}
  {sampleIndex : List ExtRat → StrategyState (Controller cfg minWeight) →
    Option Nat × StrategyState (Controller cfg minWeight)}
  {ctx : RoutingContext} {cands : List BackendId} {store : MetadataStore ExtRat}
  {s : StrategyState (Controller cfg minWeight)}

/-- Where one is better than the other, a vote says so. -/
theorem exists_vote_of_better (hsane : SaneState store s) {x y : BackendId}
    (hx : x ∈ (cfg.hybrid (exactParts hcfg H sqrt sampleIndex)).passed ctx cands store s)
    (hy : y ∈ (cfg.hybrid (exactParts hcfg H sqrt sampleIndex)).passed ctx cands store s)
    (hbetter : cfg.Better minWeight H ctx store s.indices x y) :
    ∃ v ∈ (cfg.hybrid (exactParts hcfg H sqrt sampleIndex)).votes ctx cands store s,
      v.PrefersStrictly x y := by
  have hw := nonNegative_hybrid hcfg H sqrt sampleIndex
  have heach : (cfg.hybrid (exactParts hcfg H sqrt sampleIndex)).ScoresEach :=
    scoresEach_hybrid hsane
  have hindices := indices_effectiveBaseWeights hcfg H sqrt sampleIndex store s
  have heq := hybrid_eq cfg (exactParts hcfg H sqrt sampleIndex)
  rcases exists_baseWeights hcfg H sqrt sampleIndex store s with ⟨w, hbase, hcases⟩
  rcases hbetter with ⟨hcounts, havailable, hcheaper⟩ | ⟨hcounts, hcheaper⟩ | ⟨hcounts, hcheaper⟩
  · rcases Counts.exists_pos hcases AdaptiveWeights.kv (by simp) hcounts with ⟨q, hq, hpos⟩
    have hscore : (cfg.hybrid (exactParts hcfg H sqrt sampleIndex)).kv.ScoresEach
        fun ctx store s => cfg.kvAware.scoreOf H s.indices ctx store := by
      rw [heq]
      exact (respects_kvAware H ctx cfg.regionId store s hcfg).each
    have hactive :
        (cfg.hybrid (exactParts hcfg H sqrt sampleIndex)).kv.isAvailable store = true := by
      rw [heq]
      exact havailable
    rw [← hindices] at hcheaper
    refine HybridStrategy.exists_prefersStrictly heach hscore ?_ List.mem_cons_self hx hy hcheaper
    exact HybridStrategy.kv_decisionWeights_pos hw _ hactive hpos (by rw [hbase, hq])
  · rcases Counts.exists_pos hcases AdaptiveWeights.load (by simp) hcounts with ⟨q, hq, hpos⟩
    have hscore : (cfg.hybrid (exactParts hcfg H sqrt sampleIndex)).load.ScoresEach
        fun ctx store _ => LoadAwareStrategy.default.scoreOf ExtRat.ofBits ctx store := by
      rw [heq]
      exact (respects_loadAware H ctx cfg.regionId hsane).each
    refine HybridStrategy.exists_prefersStrictly heach hscore ?_
      (List.mem_cons_of_mem _ List.mem_cons_self) hx hy hcheaper
    exact HybridStrategy.load_decisionWeights_pos hw _ hpos (by rw [hbase, hq])
  · rcases Counts.exists_pos hcases AdaptiveWeights.topology (by simp) hcounts with ⟨q, hq, hpos⟩
    have hscore : (cfg.hybrid (exactParts hcfg H sqrt sampleIndex)).topology.ScoresEach
        fun _ _ s => cfg.topologyAware.scoreOf ExtRat.ofBits s.indices := by
      rw [heq]
      exact (respects_topologyAware H ctx cfg hsane).each
    rw [← hindices] at hcheaper
    refine HybridStrategy.exists_prefersStrictly heach hscore ?_
      (List.mem_cons_of_mem _ (List.mem_cons_of_mem _ List.mem_cons_self)) hx hy hcheaper
    exact HybridStrategy.topology_decisionWeights_pos hw _ hpos (by rw [hbase, hq])

/-- With the hybrid strategy in charge. -/
theorem buildRoutingEngine_hybrid {C : Type} (parts : EngineParts ExtRat C)
    (hstrategy : cfg.routing.strategy = .hybrid)
    (htier : cfg.modelTierEnabled = true → cfg.picksTier = true) :
    cfg.buildRoutingEngine parts =
      RoutingEngine.new (cfg.hybrid parts) (.fromSecs cfg.routing.sessionAffinityTtlSecs)
        cfg.routing.maxRetries cfg.regionId parts.xxh3 parts.sampleIndex := by
  have hprimary : cfg.primary parts = none := by
    unfold primary
    rw [if_neg, hstrategy]
    simpa using htier
  unfold buildRoutingEngine
  rw [hprimary]

/-- An engine with such a hybrid strategy does not decide for a backend that is worse. -/
theorem route_undominated_of {e : RoutingEngine ExtRat (StrategyState (Controller cfg minWeight))}
    (hhybrid : e.hybrid = cfg.hybrid (exactParts hcfg H sqrt sampleIndex))
    (hprimary : e.primary = none) (htrace : e.traceSubScores = false)
    (hcold : Floating.le e.temperature (Floating.ofNat 0) = true) (hsession : ctx.sessionId = none)
    {st : EngineState ExtRat (StrategyState (Controller cfg minWeight))}
    (hsane : SaneState st.store st.inner)
    (hnodup : (RoutingEngine.candidates ctx none st.store).Nodup)
    (hpasses : ∃ cand ∈ RoutingEngine.candidates ctx none st.store,
      ModelAwareStrategy.Passes ctx st.store cand) (now : Nat) :
    ∃ d st', e.route now ctx st = (.ok d, st') ∧ d.strategy = HybridStrategy.name ∧
      d.backend ∈ RoutingEngine.candidates ctx none st.store ∧
      ModelAwareStrategy.Passes ctx st.store d.backend ∧
      ∀ cand ∈ RoutingEngine.candidates ctx none st.store,
        ModelAwareStrategy.Passes ctx st.store cand →
        NoWorse H ctx st.store st.inner.indices cfg.regionId cand d.backend →
          ¬cfg.Better minWeight H ctx st.store st.inner.indices cand d.backend := by
  have hmodel : e.hybrid.model = ModelAwareStrategy.strategy := by
    rw [hhybrid, hybrid_eq]
  have hmem : ∀ cand, cand ∈ e.passed ctx st ↔
      cand ∈ RoutingEngine.candidates ctx none st.store ∧
        ModelAwareStrategy.Passes ctx st.store cand :=
    fun cand => HybridStrategy.mem_passed_iff hmodel
  have hpassed : e.passed ctx st ≠ [] := by
    rcases hpasses with ⟨cand, hcand, hpass⟩
    exact List.ne_nil_of_mem ((hmem cand).2 ⟨hcand, hpass⟩)
  have honce : e.hybrid.model.OneCostEach ctx st.store := by
    rw [hmodel]
    exact HybridStrategy.oneCostEach_modelAware
  have hw : e.hybrid.NonNegative := by
    rw [hhybrid]
    exact nonNegative_hybrid hcfg H sqrt sampleIndex
  have heach : e.hybrid.ScoresEach := by
    rw [hhybrid]
    exact scoresEach_hybrid hsane
  have hcovers : ∀ v ∈ e.votes ctx st, v.Covers (e.passed ctx st) := by
    unfold RoutingEngine.votes RoutingEngine.passed
    rw [hhybrid]
    exact fun v hv => covers_of_vote hsane hv
  rcases RoutingEngine.route_not_dearer hprimary htrace hw heach hcold hsession
    (HybridStrategy.passed_spec honce hnodup).1 hcovers hpassed now with
    ⟨d, st', hroute, hname, hd, hnot⟩
  refine ⟨d, st', hroute, hname, ((hmem d.backend).1 hd).1, ((hmem d.backend).1 hd).2, ?_⟩
  intro cand hcand hpass hworse hbetter
  have hcand' := (hmem cand).2 ⟨hcand, hpass⟩
  have hprefers : ∀ v ∈ e.votes ctx st, v.Prefers cand d.backend := by
    unfold RoutingEngine.votes
    rw [hhybrid]
    exact fun v hv => prefers_of_noWorse hsane hworse hv
  have hvote : ∃ v ∈ e.votes ctx st, v.PrefersStrictly cand d.backend := by
    unfold RoutingEngine.passed at hd hcand'
    unfold RoutingEngine.votes
    rw [hhybrid] at hd hcand' ⊢
    exact exists_vote_of_better hsane hcand' hd hbetter
  rcases hvote with ⟨v, hv, hstrict⟩
  exact hnot cand hcand' hprefers v hv hstrict

variable (hcfg H sqrt sampleIndex) in
/-- Whatever is enabled: the hybrid strategy has a decision for every request that a backend can
serve, and no backend that can serve it is no worse than the decided one and better in something
that counts. -/
theorem route_undominated (hstrategy : cfg.routing.strategy = .hybrid)
    (htier : cfg.modelTierEnabled = true → cfg.picksTier = true)
    (hcold : Floating.le cfg.routing.temperature (Floating.ofNat 0) = true)
    (hsession : ctx.sessionId = none)
    (st : EngineState ExtRat (StrategyState (Controller cfg minWeight)))
    (hsane : SaneState st.store st.inner) (m : MetadataStore ExtRat) (ops : List RegistryOp)
    (hbackends : st.store.backends =
      (m.withRegistry (ops.foldl BackendRegistry.step .new)).backends)
    (hpasses : ∃ cand ∈ RoutingEngine.candidates ctx none st.store,
      ModelAwareStrategy.Passes ctx st.store cand) (now : Nat) :
    ∃ d st', (cfg.buildRoutingEngine (exactParts hcfg H sqrt sampleIndex)).route now ctx st =
        (.ok d, st') ∧ d.strategy = HybridStrategy.name ∧
      d.backend ∈ RoutingEngine.candidates ctx none st.store ∧
      ModelAwareStrategy.Passes ctx st.store d.backend ∧
      ∀ cand ∈ RoutingEngine.candidates ctx none st.store,
        ModelAwareStrategy.Passes ctx st.store cand →
        NoWorse H ctx st.store st.inner.indices cfg.regionId cand d.backend →
          ¬cfg.Better minWeight H ctx st.store st.inner.indices cand d.backend := by
  rw [buildRoutingEngine_hybrid _ hstrategy htier]
  refine route_undominated_of rfl rfl rfl ?_ hsession hsane
    (RoutingEngine.candidates_spec ctx none m ops hbackends).1 hpasses now
  show Floating.le (cfg.hybrid (exactParts hcfg H sqrt sampleIndex)).temperature _ = true
  rw [hybrid_eq]
  exact hcold

end Decision

/-! Everything is enabled, and of two backends in the same Region one has fewer requests. -/

open TwoBackends

/-- The configuration. -/
def everything : GatewayConfig ExtRat where
  regionId := ⟨"r1"⟩
  routing := ⟨.hybrid, .num 0, .num 1, .num 0, 300, 3, ⟨.num (7 / 20), .num (3 / 10), .num (1 / 5),
    .num 0⟩, true, ⟨.num (1 / 5), .num (1 / 4), .num (1 / 20), 10⟩⟩
  cost := { CostConfig.default with enabled := true }
  modelTierEnabled := true
  modelTier := ⟨.num (1 / 10), .pick 1000 1000 true, [⟨"m", .small⟩]⟩
  kvEstimate := { KvEstimateConfig.default with enabled := true }

theorem exact_everything : everything.Exact (1 / 20) where
  routing := ⟨⟨7 / 20, by norm_num, rfl⟩, ⟨3 / 10, by norm_num, rfl⟩, ⟨1 / 5, by norm_num, rfl⟩,
    ⟨0, le_rfl, rfl⟩, ⟨_, rfl⟩, ⟨_, rfl⟩⟩
  minWeight := rfl
  prefillLoadScale := ⟨1, zero_le_one, rfl⟩
  costWeight := ⟨15 / 10 ^ 2, by norm_num, rfl⟩
  tierWeight := ⟨1 / 10, by norm_num, rfl⟩
  capacityWeight := ⟨20 / 10 ^ 2, by norm_num, rfl⟩
  fraction := ⟨5 / 10 ^ 1, by norm_num, rfl⟩

/-- Both backends serve the model. -/
def bothServe : List RegistryOp :=
  [.register ⟨first, [⟨"m", "", 4096, false⟩], ⟨"r1"⟩, ⟨0⟩⟩,
    .register ⟨second, [⟨"m", "", 4096, false⟩], ⟨"r1"⟩, ⟨0⟩⟩]

/-- The first backend has four requests, and the second one has one. -/
def fourAndOneStore : MetadataStore ExtRat :=
  { (TwoBackends.store .new).withRegistry (bothServe.foldl BackendRegistry.step .new) with
    loadGetMetrics := fun backend =>
      some (HybridStrategy.metricsOf (if backend = first then 4 else 1) 0) }

/-- A request for the model. -/
def plainRequest : RoutingContext := { RoutingContext.default with modelName := some "m" }

theorem mem_candidates_plainRequest (b : BackendId) :
    b ∈ RoutingEngine.candidates plainRequest none fourAndOneStore ↔ b = first ∨ b = second := by
  have hmodel : fourAndOneStore.modelFindBackends "m" = [second, first] := by decide +kernel
  have hids : [second, first].filter (fun id => some id ≠ none) = [second, first] := rfl
  have hnamed : plainRequest.modelName = some "m" := rfl
  unfold RoutingEngine.candidates
  rw [hnamed]
  dsimp only
  rw [if_neg (by decide), hmodel, if_neg (List.cons_ne_nil _ _)]
  unfold RoutingEngine.collect
  rw [hids, List.mem_mergeSort, List.mem_cons, List.mem_singleton]
  exact or_comm

/-- The state of the engine: nothing is known of KV caches and latencies. -/
def plainState : EngineState ExtRat (StrategyState (Controller everything (1 / 20))) :=
  ⟨fourAndOneStore, PrefixReuseHistory.new 10000, ⟨⟨.new, .new, .new⟩, .new,
    ⟨.new everything.routing.weights everything.routing.adaptive 0, effective_new ..⟩, 0⟩⟩

theorem saneState_plainState : SaneState plainState.store plainState.inner where
  metrics := by
    have hzero : (ExtRat.ofBits 0).IsCost := Or.inr ⟨0, le_rfl, by decide +kernel⟩
    intro backend m hm
    rw [← Option.some.inj hm]
    exact ⟨hzero, hzero⟩
  timed := by
    intro source target
    show (ExtRat.ofBits (TopologyGraph.new.rttMs source target)).IsCost
    unfold TopologyGraph.rttMs
    split
    · exact Or.inr ⟨0, le_rfl, by decide +kernel⟩
    · have hinf : ExtRat.ofBits F64.infinity = .posInf := by decide +kernel
      exact Or.inl hinf

/-- The second backend is no worse than the first one. -/
theorem noWorse_second :
    NoWorse .short plainRequest fourAndOneStore plainState.inner.indices everything.regionId second
      first where
  models := by decide +kernel
  localHits := Nat.le_refl 0
  globalHits := Nat.le_refl 0
  near := ExtRat.NoDearer.refl (saneState_plainState.timed _ _)
  load := by
    refine ⟨HybridStrategy.metricsOf 1 0, HybridStrategy.metricsOf 4 0, rfl, rfl, ?_, by decide,
      by decide⟩
    have hzero : (ExtRat.ofBits 0).NoDearer (ExtRat.ofBits 0) :=
      ExtRat.NoDearer.refl (Or.inr ⟨0, le_rfl, by decide +kernel⟩)
    exact ⟨by decide, by decide, by decide, by decide, by decide, rfl, hzero, by decide, rfl, hzero⟩

/-- The request is routed to the backend with one request. -/
theorem route_undominated_second :
    ∃ d st', (everything.buildRoutingEngine
        (exactParts exact_everything .short id fun _ s => (none, s))).route 0 plainRequest
      plainState = (.ok d, st') ∧ d.backend = second := by
  have hpass : ModelAwareStrategy.Passes plainRequest fourAndOneStore second := by decide +kernel
  have hsecond := (mem_candidates_plainRequest second).2 (Or.inr rfl)
  rcases route_undominated exact_everything .short id (fun _ s => (none, s)) rfl (fun _ => rfl)
    (by decide +kernel) rfl plainState saneState_plainState (TwoBackends.store .new) bothServe rfl
    ⟨second, hsecond, hpass⟩ 0 with ⟨d, st', hroute, -, hd, -, hundominated⟩
  refine ⟨d, st', hroute, ?_⟩
  rcases (mem_candidates_plainRequest d.backend).1 hd with hfirst | hd
  · have hone : LoadAwareStrategy.default.loadCost ExtRat.ofBits plainRequest
        (HybridStrategy.metricsOf 1 0) = .num 1 := by decide +kernel
    have hfour : LoadAwareStrategy.default.loadCost ExtRat.ofBits plainRequest
        (HybridStrategy.metricsOf 4 0) = .num 4 := by decide +kernel
    have hcounts : everything.Counts (1 / 20) everything.routing.weights.load :=
      ⟨⟨3 / 10, rfl, by norm_num⟩, fun _ => by norm_num⟩
    have hcheaper : Cheaper (LoadAwareStrategy.default.scoreOf ExtRat.ofBits plainRequest
        fourAndOneStore) second first := ⟨1, 4, hone, hfour, by norm_num⟩
    rw [hfirst] at hundominated
    exact absurd (Or.inr (Or.inl ⟨hcounts, hcheaper⟩))
      (hundominated second hsecond hpass noWorse_second)
  · exact hd

end GatewayConfig

end HierKvGateway
