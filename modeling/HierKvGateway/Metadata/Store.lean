import HierKvGateway.Metadata.LoadStats
import HierKvGateway.Metadata.ModelRegistry
import HierKvGateway.Metadata.RoutingHistory

/-!
# Metadata.Store — what routing reads

The parts of the metadata store (`store.rs`) that a routing decision reads and writes: the
registered backends, their models and the session records. The KV index and the load
statistics are models of their own; a decision sees what they answer.
-/

namespace HierKvGateway

/-- The metadata store, as routing sees it. -/
structure MetadataStore (F : Type) where
  backends : AList fun _ : BackendId => BackendInfo
  models : ModelRegistry
  history : RoutingHistory
  /-- What the KV index answers: how many leading blocks a backend holds. -/
  kvFindLocalOverlap : List (BitVec 64) → BackendId → BitVec 32
  kvConfidence : F
  /-- The age of the load metrics of a backend. -/
  loadFreshness : BackendId → Option Duration
  /-- The latest load metrics of a backend. -/
  loadGetMetrics : BackendId → Option BackendMetrics

namespace MetadataStore

variable {F : Type}

/-- The store with the load statistics as they are read at a time (`load_freshness`,
`load_get_metrics`). -/
def withLoad (stats : LoadStats) (now : Duration) (m : MetadataStore F) : MetadataStore F :=
  { m with
    loadFreshness := fun backend => stats.freshness now backend
    loadGetMetrics := stats.get }

/-- `session_get`. -/
def sessionGet (m : MetadataStore F) (session : SessionId) : Option SessionAffinity :=
  m.history.get session

/-- `session_set` in the second `now`. -/
def sessionSet (now : Nat) (session : SessionId) (backend : BackendId) (overlap : BitVec 32)
    (m : MetadataStore F) : MetadataStore F :=
  { m with history := m.history.set now session backend overlap }

/-- `session_evict_expired`. -/
def sessionEvictExpired (now : Nat) (ttl : Duration) (m : MetadataStore F) :
    Nat × MetadataStore F :=
  let (evicted, history) := m.history.evictExpired now ttl
  (evicted, { m with history := history })

/-- All registered backends. -/
def backendsAll (m : MetadataStore F) : List BackendInfo := m.backends.entries.map Sigma.snd

/-- A registered backend. -/
def backendGet (m : MetadataStore F) (backend : BackendId) : Option BackendInfo :=
  m.backends.lookup backend

/-- How many backends are registered. -/
def backendsLen (m : MetadataStore F) : Nat := m.backends.entries.length

/-- `model_find_backends`. -/
def modelFindBackends [Floating F] (m : MetadataStore F) (modelName : String) : List BackendId :=
  m.models.modelFindBackends F modelName

/-- `model_match_score`. -/
def modelMatchScore [Floating F] (m : MetadataStore F) (backend : BackendId) (modelName : String) :
    F := m.models.modelMatchScore backend modelName

/-- `model_get_instances`. -/
def modelGetInstances (m : MetadataStore F) (backend : BackendId) : List ModelInstance :=
  m.models.getInstances backend

end MetadataStore

end HierKvGateway
