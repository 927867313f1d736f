import HierKvGateway.Gateway.GatewayEngine
import HierKvGateway.Lib.FirstOf
import HierKvGateway.Routing.ModelCapability

/-!
# Gateway.ModelList — the models a gateway offers

The list of models (`handlers.rs`) names every model of the registered backends once, with the
first backend that hosts it. What is listed can be asked for: `listed_routable`.
-/

namespace HierKvGateway

/-- A model in the list. -/
structure OpenAIModel where
  id : String
  object : String
  created : Int
  ownedBy : Option String
deriving DecidableEq, Repr

/-- The list of models. -/
structure OpenAIModelList where
  object : String
  data : List OpenAIModel
deriving DecidableEq, Repr

/-- `OpenAIModelList::from_model_ids`, in the second `created`. -/
def OpenAIModelList.fromModelIds (created : Int) (ids : List (String × Option String)) :
    OpenAIModelList where
  object := "list"
  data := ids.map fun (id, ownedBy) => ⟨id, "model", created, ownedBy⟩

/-- `GET /v1/models`. -/
def listModels (created : Int) (backends : List BackendInfo) : OpenAIModelList :=
  let noteModels (s : FirstOf.State String (Option String)) (b : BackendInfo) :=
    b.models.foldl (fun s m => FirstOf.note s (m.modelName, some b.id.display)) s
  .fromModelIds created (backends.foldl noteModels (∅, [])).2

/-- The models of some backends, each with its backend. -/
def hostedModels (backends : List BackendInfo) : List (String × Option String) :=
  backends.flatMap fun b => b.models.map fun m => (m.modelName, some b.id.display)

theorem listModels_eq (created : Int) (backends : List BackendInfo) :
    listModels created backends =
      .fromModelIds created (FirstOf.kept (hostedModels backends)) := by
  unfold listModels FirstOf.kept hostedModels
  rw [List.foldl_flatMap]
  simp only [List.foldl_map]

/-- The backend is the first one that hosts a model of the name. -/
def FirstHost (backends : List BackendInfo) (name : String) (info : BackendInfo) : Prop :=
  ∃ before after, backends = before ++ info :: after ∧
    (∃ m ∈ info.models, m.modelName = name) ∧
    ∀ other ∈ before, ∀ m ∈ other.models, m.modelName ≠ name

/-- Every model that some backend hosts is listed once, under the first host, and nothing else. -/
structure ListsHosted (created : Int) (backends : List BackendInfo) (list : OpenAIModelList) :
    Prop where
  object : list.object = "list"
  once : (list.data.map (·.id)).Nodup
  hosts : ∀ entry, entry ∈ list.data ↔ ∃ info, FirstHost backends entry.id info ∧
    entry = ⟨entry.id, "model", created, some info.id.display⟩

theorem find?_hostedModels (backends : List BackendInfo) (name : String) (owner : Option String) :
    (hostedModels backends).find? (·.1 = name) = some (name, owner) ↔
      ∃ info, FirstHost backends name info ∧ owner = some info.id.display := by
  have hfind (b : BackendInfo) :
      (b.models.map fun m => (m.modelName, some b.id.display)).find? (·.1 = name) =
        if ∃ m ∈ b.models, m.modelName = name then some (name, some b.id.display) else none := by
    rw [List.find?_map]
    split
    · next h =>
      cases hm : b.models.find? ((fun e : String × Option String => decide (e.1 = name)) ∘
          fun m => (m.modelName, some b.id.display)) with
      | none =>
        rcases h with ⟨m, hmem, rfl⟩
        simpa using List.find?_eq_none.1 hm m hmem
      | some m =>
        have hname := List.find?_some hm
        simp only [Function.comp_apply, decide_eq_true_eq] at hname
        rw [Option.map_some, hname]
    · next h =>
      rw [Option.map_eq_none_iff, List.find?_eq_none]
      intro m hmem hname
      exact h ⟨m, hmem, by simpa using hname⟩
  unfold hostedModels
  rw [List.find?_flatMap, List.findSome?_eq_some_iff]
  simp only [hfind, Option.ite_none_right_eq_some, Option.some.injEq, Prod.mk.injEq, true_and,
    ite_eq_right_iff, reduceCtorEq, imp_false, not_exists, not_and]
  constructor
  · rintro ⟨before, info, after, hsplit, ⟨hhosts, howner⟩, hbefore⟩
    exact ⟨info, ⟨before, after, hsplit, hhosts, hbefore⟩, howner.symm⟩
  · rintro ⟨info, ⟨before, after, hsplit, hhosts, hbefore⟩, howner⟩
    exact ⟨before, info, after, hsplit, ⟨hhosts, howner.symm⟩, hbefore⟩

theorem listsHosted_listModels (created : Int) (backends : List BackendInfo) :
    ListsHosted created backends (listModels created backends) := by
  rw [listModels_eq]
  refine ⟨rfl, ?_, ?_⟩
  · show (((FirstOf.kept (hostedModels backends)).map _).map _).Nodup
    rw [List.map_map]
    exact FirstOf.nodup_keys (hostedModels backends)
  · intro entry
    show entry ∈ (FirstOf.kept (hostedModels backends)).map _ ↔ _
    rw [List.mem_map]
    constructor
    · rintro ⟨⟨name, owner⟩, hkept, rfl⟩
      rcases (find?_hostedModels backends name owner).1 (FirstOf.mem_kept_iff.1 hkept) with
        ⟨info, hfirst, rfl⟩
      exact ⟨info, hfirst, rfl⟩
    · rintro ⟨info, hfirst, hentry⟩
      refine ⟨(entry.id, some info.id.display), FirstOf.mem_kept_iff.2 ?_, hentry.symm⟩
      exact (find?_hostedModels backends entry.id _).2 ⟨info, hfirst, rfl⟩

/-! ## Asking for a listed model -/

namespace RoutingEngine

variable {F : Type} [Floating F] [RoundedFloating F] {store : MetadataStore F}
  {ctx : RoutingContext}

omit [Floating F] [RoundedFloating F] in
theorem mem_collect {id : BackendId} {ids : List BackendId} (h : id ∈ ids) :
    id ∈ collect none ids :=
  List.mem_mergeSort.2 (List.mem_filter.2 ⟨h, decide_eq_true (Option.some_ne_none id)⟩)

omit [RoundedFloating F] in
/-- A backend is a candidate if it is registered and found by the name. -/
theorem mem_candidates {info : BackendInfo} (hinfo : info ∈ store.backendsAll)
    (hfound : info.id ∈ store.modelFindBackends (ctx.modelName.getD "")) :
    info.id ∈ candidates ctx none store := by
  have hall := mem_collect (List.mem_map_of_mem (f := (·.id)) hinfo)
  unfold candidates
  split
  · next name hname =>
    rw [hname] at hfound
    split
    · exact hall
    · dsimp only
      split
      · exact hall
      · exact mem_collect hfound
  · exact hall

end RoutingEngine

namespace MetadataStore

variable {F : Type}

/-- The backends and the models are those of a registry after some calls. -/
structure Registered (store : MetadataStore F) (ops : List RegistryOp) : Prop where
  backends : store.backends = (ops.foldl BackendRegistry.step .new).backends
  models : store.models = (ops.foldl BackendRegistry.step .new).models

namespace Registered

variable {store : MetadataStore F} {ops : List RegistryOp} (h : store.Registered ops)

include h

theorem modelGetInstances_eq (backend : BackendId) :
    store.modelGetInstances backend = ((store.backendGet backend).map (·.models)).getD [] := by
  unfold modelGetInstances backendGet ModelRegistry.getInstances
  rw [h.models, h.backends, BackendRegistry.run_hosted ops backend]
  rfl

theorem mem_backendsAll {info : BackendInfo} (hinfo : info ∈ store.backendsAll) :
    store.backendGet info.id = some info := by
  rcases List.mem_map.1 hinfo with ⟨⟨backend, info⟩, hmem, rfl⟩
  have hlookup : store.backendGet backend = some info := AList.mem_lookup_iff.2 hmem
  have hid : info.id = backend := by
    unfold backendGet at hlookup
    rw [h.backends] at hlookup
    exact BackendRegistry.run_keyed ops backend info hlookup
  show store.backendGet info.id = some info
  rw [hid, hlookup]

end Registered

end MetadataStore

namespace GatewayConfig

open AdaptiveWeightController ModelAwareStrategy

variable {cfg : GatewayConfig ExtRat} {minWeight : Rat}

/-- The decision of the hybrid strategy for a registered backend that has a model of the name. -/
structure DecidesFor (store : MetadataStore ExtRat) (name : String) (d : RouteDecision ExtRat) :
    Prop where
  strategy : d.strategy = HybridStrategy.name
  serves : ∃ info, store.backendGet d.backend = some info ∧
    ∃ inst ∈ info.models, ModelRegistry.nameMatches inst name = true

/-- What a backend serves is decided for. -/
theorem route_of_serves (hcfg : cfg.Exact minWeight) (H : Xxh3) (sqrt : ExtRat → ExtRat)
    (sampleIndex : List ExtRat → StrategyState (Controller cfg minWeight) →
      Option Nat × StrategyState (Controller cfg minWeight))
    (hstrategy : cfg.routing.strategy = .hybrid)
    (htier : cfg.modelTierEnabled = true → cfg.picksTier = true)
    (hcold : Floating.le cfg.routing.temperature (Floating.ofNat 0) = true)
    {st : EngineState ExtRat (StrategyState (Controller cfg minWeight))}
    (hsane : SaneState st.store st.inner) {ops : List RegistryOp}
    (hstore : st.store.Registered ops) {ctx : RoutingContext} (hsession : ctx.sessionId = none)
    {host : BackendInfo} (hhost : host ∈ st.store.backendsAll) {inst : ModelInstance}
    (hinst : inst ∈ host.models) (hserves : Serves ctx inst) (now : Nat) :
    ∃ d st', (cfg.buildRoutingEngine (exactParts hcfg H sqrt sampleIndex)).route now ctx st =
      (.ok d, st') ∧ DecidesFor st.store (ctx.modelName.getD "") d := by
  have hinstances : inst ∈ st.store.modelGetInstances host.id := by
    rw [hstore.modelGetInstances_eq, hstore.mem_backendsAll hhost]
    exact hinst
  have hcandidate := RoutingEngine.mem_candidates hhost
    (ModelRegistry.mem_modelFindBackends hinstances hserves.1)
  have hpasses : Passes ctx st.store host.id := by
    have hnamed : inst ∈ named ctx st.store host.id :=
      List.mem_filter.2 ⟨hinstances, hserves.1⟩
    exact (passes_iff ctx st.store host.id).2
      ⟨⟨inst, hnamed, ctxOk_of_length hserves.2.1⟩, inst, hnamed, toolOk_iff.2 hserves.2.2⟩
  have hnodup := (RoutingEngine.candidates_spec ctx none st.store ops hstore.backends).1
  have hcold' : Floating.le (cfg.hybrid (exactParts hcfg H sqrt sampleIndex)).temperature
      (Floating.ofNat 0) = true := by
    rw [hybrid_eq]
    exact hcold
  have hbuilt := buildRoutingEngine_hybrid (exactParts hcfg H sqrt sampleIndex) hstrategy htier
  rcases route_undominated_of (e := cfg.buildRoutingEngine (exactParts hcfg H sqrt sampleIndex))
    (congrArg (·.hybrid) hbuilt) (congrArg (·.primary) hbuilt) (congrArg (·.traceSubScores) hbuilt)
    (by rw [hbuilt]; exact hcold') hsession hsane hnodup ⟨host.id, hcandidate, hpasses⟩ now with
    ⟨d, st', hroute, hname, -, hpass, -⟩
  refine ⟨d, st', hroute, hname, ?_⟩
  rcases ((passes_iff ctx st.store d.backend).1 hpass).1 with ⟨found, hfound, -⟩
  rcases List.mem_filter.1 hfound with ⟨hmem, hmatches⟩
  rw [hstore.modelGetInstances_eq] at hmem
  cases hget : st.store.backendGet d.backend with
  | none =>
    rw [hget] at hmem
    exact absurd hmem List.not_mem_nil
  | some info =>
    rw [hget] at hmem
    exact ⟨info, rfl, found, hmem, hmatches⟩

/-- In whatever order the backends are read: every model that a backend hosts is listed once, with
the first host, which is registered; and a request for a listed model that some backend can serve
gets a decision, for a registered backend that has a model of the name or the architecture. -/
theorem listed_routable (hcfg : cfg.Exact minWeight) (H : Xxh3) (sqrt : ExtRat → ExtRat)
    (sampleIndex : List ExtRat → StrategyState (Controller cfg minWeight) →
      Option Nat × StrategyState (Controller cfg minWeight))
    (hstrategy : cfg.routing.strategy = .hybrid)
    (htier : cfg.modelTierEnabled = true → cfg.picksTier = true)
    (hcold : Floating.le cfg.routing.temperature (Floating.ofNat 0) = true)
    (st : EngineState ExtRat (StrategyState (Controller cfg minWeight)))
    (hsane : SaneState st.store st.inner) (ops : List RegistryOp)
    (hstore : st.store.Registered ops) (created : Int) (backends : List BackendInfo)
    (horder : backends.Perm st.store.backendsAll) :
    ListsHosted created backends (listModels created backends) ∧
      ∀ entry ∈ (listModels created backends).data,
        (∃ host ∈ st.store.backendsAll, entry.ownedBy = some host.id.display ∧
          ∃ inst ∈ host.models, inst.modelName = entry.id) ∧
        ∀ ctx, ctx.modelName = some entry.id → ctx.sessionId = none →
          (∃ host ∈ st.store.backendsAll, ∃ inst ∈ host.models, Serves ctx inst) →
            ∀ now, ∃ d st',
              (cfg.buildRoutingEngine (exactParts hcfg H sqrt sampleIndex)).route now ctx st =
                (.ok d, st') ∧ DecidesFor st.store entry.id d := by
  have hlists := listsHosted_listModels created backends
  refine ⟨hlists, ?_⟩
  intro entry hentry
  rcases (hlists.hosts entry).1 hentry with ⟨host, ⟨before, after, rfl, hhosts, -⟩, heq⟩
  have hhost : host ∈ st.store.backendsAll :=
    horder.subset (List.mem_append_right _ List.mem_cons_self)
  refine ⟨⟨host, hhost, congrArg OpenAIModel.ownedBy heq, hhosts⟩, ?_⟩
  rintro ctx hmodel hsession ⟨other, hother, inst, hinst, hserves⟩ now
  have hroute := route_of_serves hcfg H sqrt sampleIndex hstrategy htier hcold hsane hstore hsession
    hother hinst hserves now
  rw [hmodel] at hroute
  exact hroute

/-- Of two backends with the same model the list names the first, and the model can be asked for. -/
theorem listed_routable_twice :
    ∃ entry ∈ (listModels 0 fourAndOneStore.backendsAll).data,
      entry = ⟨"m", "model", 0, some TwoBackends.second.display⟩ ∧
        ∃ d st', (everything.buildRoutingEngine
            (exactParts exact_everything .short id fun _ s => (none, s))).route 0 plainRequest
          plainState = (.ok d, st') ∧ DecidesFor fourAndOneStore "m" d := by
  have hentry : (⟨"m", "model", 0, some TwoBackends.second.display⟩ : OpenAIModel) ∈
      (listModels 0 fourAndOneStore.backendsAll).data := by decide +kernel
  refine ⟨_, hentry, rfl, ?_⟩
  rcases (listed_routable exact_everything .short id (fun _ s => (none, s)) rfl (fun _ => rfl)
    (by decide +kernel) plainState saneState_plainState bothServe ⟨rfl, rfl⟩ 0 _
    (List.Perm.refl _)).2 _ hentry with ⟨⟨host, hhost, -, inst, hinst, hname⟩, hroute⟩
  refine hroute plainRequest rfl rfl ⟨host, hhost, inst, hinst, ?_, Or.inl rfl, ?_⟩ 0
  · unfold ModelRegistry.nameMatches
    rw [hname]
    rfl
  · intro htools
    exact absurd htools Bool.false_ne_true

end GatewayConfig

end HierKvGateway
