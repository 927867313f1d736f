import HierKvGateway.Lib.LastWrite
import HierKvGateway.Routing.KvBlocks
import HierKvGateway.Routing.ModelCatalog

/-!
# Routing.SpecCatalog — whose estimate counts

The footprint of a model is estimated by the first estimator that knows the model (`registry.rs`).
The standard one asks the configured models first and then the builtin patterns (`plugin.rs`,
`config.rs`); plugins are registered before it or behind it.

`KvCapacityStrategy.excluded_configured`: whatever plugins for other models are registered, the
strategy that the configuration makes excludes a backend by the blocks of the last entry for its
model, or of the first builtin pattern that its name contains.
-/

namespace HierKvGateway

/-! ## Estimators -/

/-- An estimator: which models it knows, and its estimate for them. -/
structure KvEstimator where
  specFor : String → Option ModelSpec
  estimate : ModelSpec → EstimateInput → KvFootprint

/-- What an estimator says of a model: its own estimate, if it knows the model. -/
def KvEstimator.answer (e : KvEstimator) (model : String) (input : EstimateInput) :
    Option KvFootprint :=
  (e.specFor model).map fun spec => e.estimate spec input

/-- The models that the operator has added. -/
structure SpecCatalog where
  custom : String → Option ModelSpec

namespace SpecCatalog

/-- `SpecCatalog::from_specs`: of two entries for a name, the later one. -/
def fromSpecs (specs : List (String × ModelSpec)) : SpecCatalog :=
  ⟨LastWrite.apply (fun _ => none) specs⟩

/-- `SpecCatalog::lookup`: the added models, and then the builtin patterns. -/
def lookup (c : SpecCatalog) (model : String) : Option ModelSpec :=
  -- the search of the patterns is never out of bounds
  (c.custom model).or ((lookupBuiltin model).getD none)

end SpecCatalog

/-- `StandardEstimator`, over a catalog. -/
def standardEstimator (catalog : SpecCatalog) : KvEstimator where
  specFor := catalog.lookup
  estimate := estimateKv

/-- The estimators in the order in which they are asked. -/
structure KvEstimationRegistry where
  estimators : List KvEstimator

namespace KvEstimationRegistry

/-- `KvEstimationRegistry::with_catalog`. -/
def withCatalog (catalog : SpecCatalog) : KvEstimationRegistry := ⟨[standardEstimator catalog]⟩

/-- `with_estimator`: at the back. -/
def withEstimator (r : KvEstimationRegistry) (plugin : KvEstimator) : KvEstimationRegistry :=
  ⟨r.estimators ++ [plugin]⟩

/-- `with_estimator_front`. -/
def withEstimatorFront (r : KvEstimationRegistry) (plugin : KvEstimator) : KvEstimationRegistry :=
  ⟨plugin :: r.estimators⟩

/-- `KvEstimationRegistry::spec_for`. -/
def specFor (r : KvEstimationRegistry) (model : String) : Option ModelSpec :=
  r.estimators.findSome? fun e => e.specFor model

/-- `KvEstimationRegistry::estimate`. -/
def estimate (r : KvEstimationRegistry) (model : String) (input : EstimateInput) :
    Option KvFootprint :=
  r.estimators.findSome? fun e => e.answer model input

end KvEstimationRegistry

/-! ## The configuration -/

/-- A model in the configuration. -/
structure NamedModelSpec where
  name : String
  spec : ModelSpec
deriving DecidableEq, Repr

/-- The configuration of the estimates. -/
structure KvEstimateConfig (F : Type) where
  enabled : Bool
  weight : F
  gpuMemSafetyFraction : F
  excludeOnUnknownSpec : Bool
  models : List NamedModelSpec

namespace KvEstimateConfig

variable {F : Type}

/-- `KvEstimateConfig::default`. -/
def default [Floating F] : KvEstimateConfig F where
  enabled := false
  weight := Floating.lit 20 2
  gpuMemSafetyFraction := Floating.lit 5 1
  excludeOnUnknownSpec := false
  models := []

/-- `KvEstimateConfig::build_catalog`. -/
def buildCatalog (cfg : KvEstimateConfig F) : SpecCatalog :=
  .fromSpecs (cfg.models.map fun n => (n.name, n.spec))

/-- The last entry for a name. -/
def lastEntry (cfg : KvEstimateConfig F) (model : String) : Option ModelSpec :=
  ((cfg.models.filter fun n => n.name = model).getLast?).map (·.spec)

/-- What a name stands for: the last entry for it, or else what the first builtin pattern that
occurs in it stands for. -/
def Resolves (cfg : KvEstimateConfig F) (model : String) (spec : Option ModelSpec) : Prop :=
  cfg.lastEntry model ≠ none ∧ spec = cfg.lastEntry model ∨
    cfg.lastEntry model = none ∧ FirstOccurring model builtinNameMap spec

theorem custom_buildCatalog (cfg : KvEstimateConfig F) (model : String) :
    cfg.buildCatalog.custom model = cfg.lastEntry model := by
  unfold buildCatalog SpecCatalog.fromSpecs lastEntry
  dsimp only
  rw [LastWrite.apply_eq, Option.or_none, LastWrite.valuesAt_map, List.getLast?_map]

/-- The catalog finds what the name stands for. -/
theorem resolves_lookup (cfg : KvEstimateConfig F) (model : String) :
    cfg.Resolves model (cfg.buildCatalog.lookup model) := by
  unfold SpecCatalog.lookup
  rw [custom_buildCatalog]
  cases hlast : cfg.lastEntry model with
  | some spec =>
    left
    rw [hlast]
    exact ⟨Option.some_ne_none spec, rfl⟩
  | none =>
    right
    rcases lookupLoop_spec model builtinNameMap_ok with ⟨result, hresult, hfirst⟩
    rw [Option.none_or, lookupBuiltin, hresult]
    exact ⟨hlast, hfirst⟩

end KvEstimateConfig

/-! ## Registrations -/

/-- A plugin is registered, before all others or behind them. -/
inductive Registration where
  | front (plugin : KvEstimator)
  | back (plugin : KvEstimator)

namespace Registration

/-- The plugin. -/
def plugin : Registration → KvEstimator
  | .front plugin => plugin
  | .back plugin => plugin

/-- Perform a registration. -/
def perform (r : KvEstimationRegistry) : Registration → KvEstimationRegistry
  | .front plugin => r.withEstimatorFront plugin
  | .back plugin => r.withEstimator plugin

end Registration

namespace KvEstimationRegistry

variable {model : String} {input : EstimateInput}

/-- A plugin that does not know a model does not change its estimate. -/
theorem estimate_perform {op : Registration} (h : op.plugin.specFor model = none)
    (r : KvEstimationRegistry) : (op.perform r).estimate model input = r.estimate model input := by
  have hanswer : op.plugin.answer model input = none := by
    unfold KvEstimator.answer
    rw [h]
    rfl
  cases op with
  | front plugin =>
    exact List.findSome?_cons_of_isNone (Option.isNone_iff_eq_none.2 hanswer)
  | back plugin =>
    have hlast : [plugin].findSome? (fun e => e.answer model input) = none := by
      rw [List.findSome?_eq_none_iff]
      intro e he
      rw [List.mem_singleton.1 he]
      exact hanswer
    show (r.estimators ++ [plugin]).findSome? _ = _
    rw [List.findSome?_append, hlast, Option.or_none]
    rfl

/-- The plugins for other models do not matter, in whatever order they are registered. -/
theorem estimate_registered {ops : List Registration}
    (hops : ∀ op ∈ ops, op.plugin.specFor model = none) (r : KvEstimationRegistry) :
    (ops.foldl Registration.perform r).estimate model input = r.estimate model input := by
  induction ops generalizing r with
  | nil => rfl
  | cons op ops ih =>
    rcases List.forall_mem_cons.1 hops with ⟨hop, hrest⟩
    rw [List.foldl_cons, ih hrest, estimate_perform hop]

theorem estimate_withCatalog (catalog : SpecCatalog) :
    (withCatalog catalog).estimate model input =
      (catalog.lookup model).map fun spec => estimateKv spec input := by
  show [standardEstimator catalog].findSome? (fun e => e.answer model input) = _
  rw [List.findSome?_cons, List.findSome?_nil]
  unfold KvEstimator.answer standardEstimator
  dsimp only
  cases catalog.lookup model with
  | none => rfl
  | some spec => rfl

end KvEstimationRegistry

/-! ## The strategy -/

namespace KvCapacityStrategy

/-- `KvCapacityStrategy::new`. -/
def new {F : Type} (registry : KvEstimationRegistry) (cfg : KvEstimateConfig F) :
    KvCapacityStrategy F where
  estimate model input := (registry.estimate model input).map (·.toKvEstimate)
  weight := cfg.weight
  gpuMemSafetyFraction := cfg.gpuMemSafetyFraction
  excludeOnUnknownSpec := cfg.excludeOnUnknownSpec

/-- The strategy of a configuration, after some registrations. -/
def configured {F : Type} (cfg : KvEstimateConfig F) (ops : List Registration) :
    KvCapacityStrategy F :=
  new (ops.foldl Registration.perform (.withCatalog cfg.buildCatalog)) cfg

/-- The blocks of a request under a specification. -/
def neededBlocks (spec : ModelSpec) (ctx : RoutingContext) : Nat :=
  spec.cached (input ctx).countedTokens ⌈/⌉ ctx.blockSize.toNat

theorem toNat_blocks_input (spec : ModelSpec) (ctx : RoutingContext) :
    (estimateKv spec (input ctx)).blocks.toNat = neededBlocks spec ctx := by
  have hbatch : (input ctx).batch = 1 := rfl
  rw [toNat_blocks, hbatch, Nat.mul_one]
  rfl

variable {cfg : KvEstimateConfig ExtRat} {ops : List Registration} {ctx : RoutingContext}
  {store : MetadataStore ExtRat} {cand : BackendId} {model : String}

/-- The estimate for a model that no plugin knows. -/
theorem estimate_configured (hops : ∀ op ∈ ops, op.plugin.specFor model = none) :
    (configured cfg ops).estimate model (input ctx) =
      (cfg.buildCatalog.lookup model).map fun spec =>
        (estimateKv spec (input ctx)).toKvEstimate := by
  show (KvEstimationRegistry.estimate _ model (input ctx)).map _ = _
  rw [KvEstimationRegistry.estimate_registered hops, KvEstimationRegistry.estimate_withCatalog,
    Option.map_map]
  rfl

/-- What is left of a backend with metrics, compared with an estimate. -/
theorem tooLarge_of_estimate {k : KvCapacityStrategy ExtRat} {est : KvEstimate} {m : BackendMetrics}
    {available : ExtRat} (hserved : resolveServedModel cand ctx.modelName store = some model)
    (hest : k.estimate model (input ctx) = some est) (hm : store.loadGetMetrics cand = some m)
    (havailable : availableBytes est m ctx.blockSize k.gpuMemSafetyFraction = some available) :
    k.TooLarge ctx store cand ↔
      Floating.le available (Floating.ofNat 0) = true ∨
        Floating.lt available (Floating.ofNat est.bytes.toNat) = true := by
  unfold TooLarge
  simp only [hserved, Option.some.injEq, exists_eq_left', hest]
  constructor
  · rintro ⟨m', available', hm', havailable', h⟩
    rcases Option.some.inj (hm.symm.trans hm') with rfl
    rcases Option.some.inj (havailable.symm.trans havailable') with rfl
    exact h
  · intro h
    exact ⟨m, available, hm, havailable, h⟩

/-- A backend is excluded by the blocks of what its model's name stands for, or because it stands
for nothing. -/
theorem excluded_configured
    (hserved : resolveServedModel cand ctx.modelName store = some model)
    (hops : ∀ op ∈ ops, op.plugin.specFor model = none) :
    ∃ resolved, cfg.Resolves model resolved ∧
      (resolved = none →
        (((configured cfg ops).scoreOf ctx store cand).Excluded ↔
          cfg.excludeOnUnknownSpec = true)) ∧
      ∀ spec, resolved = some spec → 0 < (perTokenBytes spec).toNat → 0 < ctx.blockSize.toNat →
        spec.paddedFootprint (input ctx) < 2 ^ 64 →
        (store.loadGetMetrics cand = none →
          ¬((configured cfg ops).scoreOf ctx store cand).Excluded) ∧
        ∀ m, store.loadGetMetrics cand = some m → 0 < m.kvTotalBlocks.toNat →
          (((configured cfg ops).scoreOf ctx store cand).Excluded ↔
            m.freeBlocks = 0 ∨ m.freeBlocks < neededBlocks spec ctx) := by
  have hestimate : (configured cfg ops).estimate model (input ctx) =
      (cfg.buildCatalog.lookup model).map fun spec =>
        (estimateKv spec (input ctx)).toKvEstimate := estimate_configured hops
  refine ⟨cfg.buildCatalog.lookup model, cfg.resolves_lookup model, ?_, ?_⟩
  · intro hnone
    rw [hnone, Option.map_none] at hestimate
    rw [excluded_iff]
    unfold TooLarge
    simp only [hserved, Option.some.injEq, exists_eq_left', hestimate]
    exact Iff.rfl
  · intro spec hspec htoken hblock hfits
    have hblock' : 0 < (input ctx).blockSize.toNat := hblock
    rw [hspec, Option.map_some] at hestimate
    constructor
    · intro hnone
      rw [excluded_iff]
      unfold TooLarge
      simp only [hserved, Option.some.injEq, exists_eq_left', hestimate, hnone]
      rintro ⟨m, available, hm, -⟩
      exact absurd hm nofun
    · intro m hm htotal
      have hperBlock := perBlockBytes_pos htoken hblock'
      have havailable := availableBytes_estimateKv (m := m)
        (configured cfg ops).gpuMemSafetyFraction hblock' htotal hperBlock
      rw [excluded_iff, tooLarge_of_estimate hserved hestimate hm havailable,
        bytes_eq_blocks hblock' hfits, le_zero_bytes hperBlock, lt_bytes hperBlock,
        toNat_blocks_input, decide_eq_true_eq, decide_eq_true_eq]

/-- The backend. -/
def ownBackend : BackendId := ⟨⟨"eu"⟩, ⟨"a"⟩⟩

/-- It serves the model `own`, and two of its four blocks are free. -/
def ownStore : MetadataStore ExtRat where
  backends := ∅
  models := ModelRegistry.new.register ownBackend [⟨"own", "", 4096, false⟩]
  history := .new
  kvFindLocalOverlap _ _ := 0
  kvConfidence := Floating.ofNat 1
  loadFreshness _ := none
  loadGetMetrics _ := some ⟨0, 0, 0, 0, 2, 4, 0, 0, 0, ⟨0, 0, 0, 0⟩, 0⟩

/-- The later entry has a window of one block. -/
def ownTwice : KvEstimateConfig ExtRat :=
  { KvEstimateConfig.default with
    models := [⟨"own", ⟨32, 8, 128, .standard, .bf16, 0, 0, 0⟩⟩,
      ⟨"own", ⟨32, 8, 128, .standard, .bf16, 0, 0, 16⟩⟩] }

/-- A plugin for the model `other`. -/
def otherPlugin : KvEstimator where
  specFor model := if model = "other" then some ⟨1, 1, 1, .standard, .fp8, 0, 0, 0⟩ else none
  estimate := estimateKv

/-- A request of 100 tokens has room: the later entry counts, and the plugin does not. -/
theorem excluded_configured_own :
    ¬((configured ownTwice [.front otherPlugin]).scoreOf
      { RoutingContext.default with blockSize := 16, estimatedOutputTokens := 100 } ownStore
      ownBackend).Excluded := by
  rcases @excluded_configured ownTwice [.front otherPlugin]
    { RoutingContext.default with blockSize := 16, estimatedOutputTokens := 100 } ownStore
    ownBackend "own" (by decide) (by decide) with ⟨resolved, hresolves | hresolves, -, hspec⟩
  · have hlast : ownTwice.lastEntry "own" =
        some ⟨32, 8, 128, .standard, .bf16, 0, 0, 16⟩ := by decide
    rcases hspec _ (hresolves.2.trans hlast) (by decide) (by decide) (by decide +kernel) with
      ⟨-, hmetrics⟩
    intro hexcluded
    have hfew := (hmetrics _ rfl (by decide)).1 hexcluded
    exact absurd hfew (by decide)
  · exact absurd hresolves.1 (by decide)

end KvCapacityStrategy

end HierKvGateway
