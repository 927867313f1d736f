import HierKvGateway.Lib.ReverseIndex
import HierKvGateway.Lib.Run
import HierKvGateway.Lib.Update
import HierKvGateway.Metadata.Store

/-!
# Metadata.Registry — registering and unregistering backends

The tables of the store (`store.rs`) that a registration writes: the backends by id,
the ids by Region and by indexer domain, the models and the load. `register_backend`
overwrites the entry of an id that is registered already and appends the id to the
lists of its new Region and domain, but takes it out of no list; only
`unregister_backend` looks at the entry it removes.
-/

namespace HierKvGateway

/-- The tables of the store that a registration writes. -/
structure BackendRegistry where
  backends : AList fun _ : BackendId => BackendInfo
  byRegion : RegionId → Option (List BackendId)
  byDomain : IndexerDomainId → Option (List BackendId)
  models : ModelRegistry
  load : LoadStats

/-- A call that changes the registry. -/
inductive RegistryOp where
  | register (info : BackendInfo)
  | unregister (backend : BackendId)

namespace BackendRegistry

/-- An empty registry. -/
def new : BackendRegistry := ⟨∅, fun _ => none, fun _ => none, .new, .new⟩

/-- Register a backend (`register_backend`). -/
def registerBackend (info : BackendInfo) (r : BackendRegistry) : BackendRegistry where
  backends := r.backends.insert info.id info
  models := r.models.register info.id info.models
  byRegion := ReverseIndex.push info.region info.id r.byRegion
  byDomain := ReverseIndex.push info.indexerDomain info.id r.byDomain
  load := r.load

/-- Unregister a backend (`unregister_backend`). -/
def unregisterBackend (backend : BackendId) (r : BackendRegistry) : BackendRegistry :=
  let lists :=
    match r.backends.lookup backend with
    | some info =>
      (ReverseIndex.drop info.region info.id r.byRegion,
        ReverseIndex.drop info.indexerDomain info.id r.byDomain)
    | none => (r.byRegion, r.byDomain)
  { backends := r.backends.erase backend
    byRegion := lists.1
    byDomain := lists.2
    models := r.models.unregister backend
    load := r.load.remove backend }

/-- The backends of a Region. -/
def backendsByRegion (r : BackendRegistry) (region : RegionId) : List BackendId :=
  (r.byRegion region).getD []

/-- The backends of an indexer domain. -/
def backendsByDomain (r : BackendRegistry) (domain : IndexerDomainId) : List BackendId :=
  (r.byDomain domain).getD []

/-- A registered backend. -/
def backendGet (r : BackendRegistry) (backend : BackendId) : Option BackendInfo :=
  r.backends.lookup backend

/-- One call. -/
def step (r : BackendRegistry) : RegistryOp → BackendRegistry
  | .register info => r.registerBackend info
  | .unregister backend => r.unregisterBackend backend

/-- Every Region and every domain lists the backends registered in it, each once,
and nothing else. -/
structure Indexed (r : BackendRegistry) : Prop where
  regionNodup : ∀ region, (r.backendsByRegion region).Nodup
  region : ∀ region b,
    b ∈ r.backendsByRegion region ↔ ∃ info, r.backendGet b = some info ∧ info.region = region
  domainNodup : ∀ domain, (r.backendsByDomain domain).Nodup
  domain : ∀ domain b,
    b ∈ r.backendsByDomain domain ↔
      ∃ info, r.backendGet b = some info ∧ info.indexerDomain = domain

/-- The id is not registered yet. -/
def NewId (r : BackendRegistry) : RegistryOp → Prop
  | .register info => r.backendGet info.id = none
  | .unregister _ => True

/-! ## The entries -/

/-- Every entry is stored under its own id. -/
def Keyed (r : BackendRegistry) : Prop :=
  ∀ backend info, r.backendGet backend = some info → info.id = backend

variable {r : BackendRegistry}

theorem new_keyed : Keyed new := fun _ _ h => absurd h (Option.some_ne_none _).symm

theorem step_keyed (hr : Keyed r) (op : RegistryOp) : Keyed (step r op) := by
  intro backend info h
  cases op with
  | register info' =>
    rcases AList.lookup_of_insert h with ⟨rfl, rfl⟩ | ⟨_, hold⟩
    · rfl
    · exact hr backend info hold
  | unregister backend' => exact hr backend info (AList.lookup_of_erase h).2

/-- In every state reached, every entry is stored under its own id. -/
theorem run_keyed (ops : List RegistryOp) : Keyed (ops.foldl step new) :=
  Run.foldl_preserves (P := Keyed) (fun _ op hr => step_keyed hr op) new_keyed ops

/-! ## The models -/

/-- The models of a backend are those of its entry. -/
def Hosted (r : BackendRegistry) : Prop :=
  ∀ backend, r.models.backends.lookup backend = (r.backendGet backend).map (·.models)

theorem step_hosted (hr : Hosted r) (op : RegistryOp) : Hosted (step r op) := by
  intro backend
  cases op with
  | register info =>
    show (r.models.backends.insert info.id info.models).lookup backend =
      ((r.backends.insert info.id info).lookup backend).map (·.models)
    by_cases hid : backend = info.id
    · subst hid
      rw [AList.lookup_insert, AList.lookup_insert]
      rfl
    · rw [AList.lookup_insert_ne hid, AList.lookup_insert_ne hid]
      exact hr backend
  | unregister gone =>
    show (r.models.backends.erase gone).lookup backend =
      ((r.backends.erase gone).lookup backend).map (·.models)
    by_cases hid : backend = gone
    · subst hid
      rw [AList.lookup_erase, AList.lookup_erase]
      rfl
    · rw [AList.lookup_erase_ne hid, AList.lookup_erase_ne hid]
      exact hr backend

/-- In every state reached, the models are those of the entries. -/
theorem run_hosted (ops : List RegistryOp) : Hosted (ops.foldl step new) :=
  Run.foldl_preserves (P := Hosted) (fun _ op hr => step_hosted hr op) (fun _ => rfl) ops

/-! ## The lists -/

/-- Both lists match the entries. -/
theorem indexed_iff : Indexed r ↔
    ReverseIndex.Matches BackendInfo.region r.backendGet r.byRegion ∧
      ReverseIndex.Matches BackendInfo.indexerDomain r.backendGet r.byDomain := by
  constructor
  · rintro ⟨hn, hm, hn', hm'⟩
    exact ⟨⟨hn, hm⟩, ⟨hn', hm'⟩⟩
  · rintro ⟨⟨hn, hm⟩, ⟨hn', hm'⟩⟩
    exact ⟨hn, hm, hn', hm'⟩

theorem new_indexed : Indexed new :=
  indexed_iff.2 ⟨ReverseIndex.matches_empty, ReverseIndex.matches_empty⟩

theorem backendGet_registerBackend (info : BackendInfo) :
    (r.registerBackend info).backendGet = Function.update r.backendGet info.id (some info) := by
  funext b
  by_cases hb : b = info.id
  · subst hb
    rw [Function.update_self]
    exact AList.lookup_insert _
  · rw [Function.update_of_ne hb]
    exact AList.lookup_insert_ne hb

theorem backendGet_unregisterBackend (backend : BackendId) :
    (r.unregisterBackend backend).backendGet = Function.update r.backendGet backend none := by
  funext b
  by_cases hb : b = backend
  · subst hb
    rw [Function.update_self]
    exact AList.lookup_erase _ _
  · rw [Function.update_of_ne hb]
    exact AList.lookup_erase_ne hb

/-- A registration keeps the lists exactly when the id is new. -/
theorem indexed_registerBackend_iff (hr : Indexed r) (info : BackendInfo) :
    Indexed (r.registerBackend info) ↔ r.backendGet info.id = none := by
  obtain ⟨hregion, hdomain⟩ := indexed_iff.1 hr
  rw [indexed_iff, backendGet_registerBackend]
  constructor
  · exact fun h => (ReverseIndex.matches_insert_iff hregion).1 h.1
  · intro hnew
    exact ⟨(ReverseIndex.matches_insert_iff hregion).2 hnew,
      (ReverseIndex.matches_insert_iff hdomain).2 hnew⟩

/-- Unregistering keeps the lists. -/
theorem indexed_unregisterBackend (hk : Keyed r) (hr : Indexed r) (backend : BackendId) :
    Indexed (r.unregisterBackend backend) := by
  obtain ⟨hregion, hdomain⟩ := indexed_iff.1 hr
  rw [indexed_iff, backendGet_unregisterBackend]
  cases hb : r.backendGet backend with
  | none =>
    have hsame : Function.update r.backendGet backend none = r.backendGet := by
      rw [← hb, Function.update_eq_self]
    have hlookup : r.backends.lookup backend = none := hb
    simp only [unregisterBackend, hlookup]
    rw [hsame]
    exact ⟨hregion, hdomain⟩
  | some info =>
    have hid : info.id = backend := hk backend info hb
    have hlookup : r.backends.lookup backend = some info := hb
    simp only [unregisterBackend, hlookup, hid]
    exact ⟨hregion.erase hb, hdomain.erase hb⟩

theorem step_indexed_iff (hk : Keyed r) (hr : Indexed r) (op : RegistryOp) :
    Indexed (step r op) ↔ NewId r op := by
  cases op with
  | register info => exact indexed_registerBackend_iff hr info
  | unregister backend => exact iff_of_true (indexed_unregisterBackend hk hr backend) trivial

/-- The lists match the entries in every state of a run exactly when no id is
registered that is registered already. -/
theorem indexed_iff_newIds (ops : List RegistryOp) :
    Run.All step Indexed new ops ↔ Run.Each step NewId new ops :=
  Run.all_iff_each (D := fun _ _ => True) (J := Keyed) (fun _ op hk _ => step_keyed hk op)
    (fun _ op hk _ hr => step_indexed_iff hk hr op) new_keyed new_indexed
    (Run.each_of_forall (fun _ _ => trivial) new ops)

/-- A backend that is announced a second time, as it was. -/
def announcedTwice : List RegistryOp :=
  let info : BackendInfo := ⟨⟨⟨"r1"⟩, ⟨"b"⟩⟩, [], ⟨"r1"⟩, ⟨0⟩⟩
  [.register info, .register info]

/-- Its Region lists it twice. -/
theorem not_indexed_announcedTwice : ¬ ∀ ops, Run.All step Indexed new ops := by
  intro h
  have hlast := (h announcedTwice).2.2
  exact absurd (hlast.regionNodup ⟨"r1"⟩) (by decide)

end BackendRegistry

/-- The store of a registry, as routing sees it. -/
def MetadataStore.withRegistry {F : Type} (r : BackendRegistry) (m : MetadataStore F) :
    MetadataStore F :=
  { m with
    backends := r.backends
    models := r.models
    loadGetMetrics := r.load.get }

end HierKvGateway
