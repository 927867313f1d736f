import HierKvGateway.Gateway.BackendIds
import HierKvGateway.Gateway.ClusterBridge
import HierKvGateway.Metadata.Registry

/-!
# Gateway.GatewayStore — what a gateway tells another one

The gossip handler (`cluster_bridge.rs`) stands between the engine and the metadata store. It
answers a sync request with the metrics of the registered backends and with the known Regions,
and writes into the store what an answer or a broadcast brings. The versions it advertises count
what gossip has written; a local write changes them only if it says so.

`latest_receive`, `regions_receive`: a gateway that receives the answer of another one has the
other's metrics of every backend the other has registered, and the other's Regions; everything
else is as it was.
-/

namespace HierKvGateway

/-- The categories of metadata. -/
inductive MetaKey where
  | kvState
  | modelState
  | loadState
  | topologyState
  | members
deriving DecidableEq, Repr

/-- The name of a category in a request. -/
def MetaKey.asStr : MetaKey → String
  | .kvState => "kv_state"
  | .modelState => "model_state"
  | .loadState => "load_state"
  | .topologyState => "topology_state"
  | .members => "members"

/-- How often each category was written. -/
structure VersionCounter where
  kv : BitVec 64
  model : BitVec 64
  load : BitVec 64
  topology : BitVec 64
  members : BitVec 64
deriving DecidableEq, Repr

namespace VersionCounter

/-- `VersionCounter::new`. -/
def new : VersionCounter := ⟨0, 0, 0, 0, 0⟩

/-- Count a local write (`bump_kv_version` and its siblings). -/
def bump (v : VersionCounter) : MetaKey → VersionCounter
  | .kvState => { v with kv := v.kv + 1 }
  | .modelState => { v with model := v.model + 1 }
  | .loadState => { v with load := v.load + 1 }
  | .topologyState => { v with topology := v.topology + 1 }
  | .members => { v with members := v.members + 1 }

end VersionCounter

/-- The wire formats. -/
structure Wire extends Codec where
  /-- The binary encoding of the metrics of some backends, in base64. -/
  encodeLoad : List (String × BackendMetrics) → String
  /-- A Region in JSON. -/
  encodeRegion : RegionInfo → Json

/-- What is read is what was written; the coordinates of a Region are decimal numbers in JSON
and may be rounded. -/
structure Wire.Sound (w : Wire) : Prop where
  load : ∀ entries entries', w.decodeLoad (w.encodeLoad entries) = some entries' →
    entries' = entries
  region : ∀ info info', w.decodeRegion (w.encodeRegion info) = some info' →
    { info' with geo := info.geo } = info

/-- What the gossip handler reads and writes. -/
structure GatewayStore where
  registry : BackendRegistry
  topology : TopologyGraph
  filters : CkfConsumer
  sessions : RoutingHistory
  versions : VersionCounter

/-- The orders in which the maps of a store are listed (`backends_all`, `all_regions`). -/
structure Listing where
  backends : List BackendInfo
  regions : List RegionId

/-- A change of the store that does not come from gossip. -/
inductive LocalWrite where
  /-- `register_backend` or `unregister_backend`. -/
  | registry (op : RegistryOp)
  /-- The metrics loop of a connector has metrics of a backend. -/
  | loadUpdate (backend : BackendId) (metrics : BackendMetrics)
  | addRegion (info : RegionInfo)
  | updateLatency (a b : RegionId) (estimate : LatencyEstimate)
  /-- A write is counted. -/
  | bump (key : MetaKey)

namespace GatewayStore

/-- A store that nothing has been written to. -/
def new : GatewayStore := ⟨.new, .new, .new, .new, .new⟩

/-! ## Local writes -/

/-- A local write. -/
def write (g : GatewayStore) : LocalWrite → GatewayStore
  | .registry op => { g with registry := g.registry.step op }
  | .loadUpdate backend metrics =>
    { g with registry := { g.registry with load := g.registry.load.update backend metrics } }
  | .addRegion info => { g with topology := g.topology.addRegion info }
  | .updateLatency a b estimate => { g with topology := g.topology.updateLatency a b estimate }
  | .bump key => { g with versions := g.versions.bump key }

/-! ## Answers -/

/-- The versions of the store (`current_meta_digest`). -/
def currentMetaDigest (g : GatewayStore) : MetaDigest :=
  ⟨g.versions.kv, g.versions.model, g.versions.load, g.versions.topology, g.versions.members⟩

/-- The metrics of some backends, of those that have any. -/
def reports (backends : List BackendInfo) (g : GatewayStore) : List (BackendId × BackendMetrics) :=
  backends.filterMap fun info => (g.registry.load.get info.id).map (info.id, ·)

/-- The payload of `load_state`. -/
def serializeLoadState (w : Wire) (backends : List BackendInfo) (g : GatewayStore) : Json :=
  .string (w.encodeLoad (wireEntries (g.reports backends)))

/-- The payload of `topology_state`. -/
def serializeTopologyState (w : Wire) (regions : List RegionId) (g : GatewayStore) : Json :=
  .array (regions.filterMap fun rid =>
    (g.topology.regions rid).map fun info => .object [("region", w.encodeRegion info)])

/-- The answer to one key of a sync request: of three categories only the version is told, and
an unknown key has no answer. -/
def syncEntry (w : Wire) (listing : Listing) (g : GatewayStore) (key : String) :
    Option MetaEntry :=
  if key = MetaKey.loadState.asStr then
    some ⟨key, g.serializeLoadState w listing.backends, g.versions.load⟩
  else if key = MetaKey.topologyState.asStr then
    some ⟨key, g.serializeTopologyState w listing.regions, g.versions.topology⟩
  else if key = MetaKey.kvState.asStr then some ⟨key, .null, g.versions.kv⟩
  else if key = MetaKey.modelState.asStr then some ⟨key, .null, g.versions.model⟩
  else if key = MetaKey.members.asStr then some ⟨key, .null, g.versions.members⟩
  else none

/-- The answer to a sync request. -/
def handleSyncRequest (w : Wire) (listing : Listing) (g : GatewayStore) (keys : List String) :
    List MetaEntry :=
  keys.filterMap (g.syncEntry w listing)

/-- The handler, as it answers at one moment. -/
def handler (w : Wire) (listing : Listing) (g : GatewayStore) : GossipHandler where
  currentMetaDigest := g.currentMetaDigest
  handleSyncRequest := g.handleSyncRequest w listing

/-- A listing names every registered backend and every known Region once. -/
structure Lists (g : GatewayStore) (listing : Listing) : Prop where
  backends : listing.backends.Perm (g.registry.backends.entries.map Sigma.snd)
  nodup : listing.regions.Nodup
  regions : ∀ r, r ∈ listing.regions ↔ (g.topology.regions r).isSome = true

/-! ## Writes of gossip -/

/-- The load and the topology, with their versions. -/
def gossiped (g : GatewayStore) : GossipedState :=
  ⟨g.registry.load, g.topology, g.versions.load, g.versions.topology⟩

def withGossiped (g : GatewayStore) (s : GossipedState) : GatewayStore :=
  { g with
    registry := { g.registry with load := s.load }
    topology := s.topology
    versions := { g.versions with load := s.loadVersion, topology := s.topologyVersion } }

/-- The filters, with their version. -/
def ckf (g : GatewayStore) : MetadataGossipHandler := ⟨g.filters, g.versions.kv⟩

def withCkf (g : GatewayStore) (s : MetadataGossipHandler) : GatewayStore :=
  { g with filters := s.consumer, versions := { g.versions with kv := s.kvVersion } }

/-- A call of the gossip engine, in the second `now`. -/
def handle (c : Codec) (now : Nat) (g : GatewayStore) : HandlerCall → GatewayStore
  | .handleCkf message => g.withCkf (g.ckf.handle message)
  | .handleSessionAffinity session backendRegion backendInstance =>
    { g with sessions := g.sessions.set now session ⟨backendRegion, ⟨backendInstance⟩⟩ 0 }
  | .applySyncResponse entries => g.withGossiped (g.gossiped.applySyncResponse c entries)
  | .handleMetricsBroadcast region payload =>
    g.withGossiped (g.gossiped.handleMetricsBroadcast c region payload)
  | .handleTopologyUpdate source target estimate =>
    g.withGossiped (g.gossiped.handleTopologyUpdate source target estimate)

/-- The calls of the gossip engine, in order. -/
def handleAll (c : Codec) (now : Nat) (g : GatewayStore) (calls : List HandlerCall) :
    GatewayStore :=
  calls.foldl (handle c now) g

end GatewayStore

/-! ## What a call writes -/

namespace GossipedState

/-- The Regions an entry of a sync response brings. -/
def entryRegions (c : Codec) (entry : MetaEntry) : List RegionInfo :=
  if entry.key = "load_state" then []
  else if entry.key = "topology_state" then
    (entry.value.asArray.getD []).filterMap fun e => (e.get "region").bind c.decodeRegion
  else []

/-- The Regions a call brings, each under its id. -/
def regionWrites (c : Codec) : HandlerCall → List (RegionId × RegionInfo)
  | .applySyncResponse entries =>
    (entries.flatMap (entryRegions c)).map fun info => (info.id, info)
  | .handleMetricsBroadcast _ _ | .handleTopologyUpdate _ _ _ | .handleCkf _
  | .handleSessionAffinity _ _ _ => []

variable (c : Codec) (g : GossipedState)

theorem regions_applyEntry (entry : MetaEntry) :
    (g.applyEntry c entry).topology.regions =
      LastWrite.apply g.topology.regions
        ((entryRegions c entry).map fun info => (info.id, info)) := by
  unfold applyEntry entryRegions
  split
  · unfold applyLoadState
    cases entry.value.asStr.bind c.decodeLoad with
    | none => rfl
    | some entries => rfl
  · split
    · unfold applyTopologyState
      cases entry.value.asArray with
      | none => rfl
      | some arr => exact TopologyGraph.regions_addRegions _ g.topology
    · rfl

theorem regions_applySyncResponse (entries : List MetaEntry) :
    (g.applySyncResponse c entries).topology.regions =
      LastWrite.apply g.topology.regions
        ((entries.flatMap (entryRegions c)).map fun info => (info.id, info)) := by
  rw [List.map_flatMap]
  exact LastWrite.apply_foldl (fun g : GossipedState => g.topology.regions)
    (fun g entry => regions_applyEntry c g entry) g entries

end GossipedState

namespace GatewayStore

section Handle

variable (c : Codec) (now : Nat) (g : GatewayStore) (call : HandlerCall) (calls : List HandlerCall)

theorem latest_handle :
    (g.handle c now call).registry.load.latest =
      LastWrite.apply g.registry.load.latest (GossipedState.metricsWrites c call) := by
  have h := g.gossiped.latest_handle c call
  cases call with
  | handleCkf | handleSessionAffinity => rfl
  | applySyncResponse | handleMetricsBroadcast | handleTopologyUpdate => exact h

theorem entries_handle :
    (g.handle c now call).topology.entries =
      LastWrite.apply g.topology.entries (GossipedState.latencyWrites call) := by
  have h := g.gossiped.entries_handle c call
  cases call with
  | handleCkf | handleSessionAffinity => rfl
  | applySyncResponse | handleMetricsBroadcast | handleTopologyUpdate => exact h

theorem regions_handle :
    (g.handle c now call).topology.regions =
      LastWrite.apply g.topology.regions (GossipedState.regionWrites c call) := by
  cases call with
  | applySyncResponse entries => exact g.gossiped.regions_applySyncResponse c entries
  | handleMetricsBroadcast region payload =>
    rw [handle, GossipedState.handleMetricsBroadcast]
    cases payload.decode c with
    | none => rfl
    | some backends => rfl
  | handleTopologyUpdate source target estimate =>
    exact TopologyGraph.regions_updateLatency source target estimate g.topology
  | handleCkf | handleSessionAffinity => rfl

/-- Gossip registers no backends. -/
theorem backends_handle : (g.handle c now call).registry.backends = g.registry.backends := by
  cases call with
  | applySyncResponse | handleMetricsBroadcast | handleTopologyUpdate | handleCkf
  | handleSessionAffinity => rfl

theorem latest_handleAll :
    (g.handleAll c now calls).registry.load.latest =
      LastWrite.apply g.registry.load.latest (calls.flatMap (GossipedState.metricsWrites c)) :=
  LastWrite.apply_foldl (fun g : GatewayStore => g.registry.load.latest)
    (fun g call => latest_handle c now g call) g calls

theorem entries_handleAll :
    (g.handleAll c now calls).topology.entries =
      LastWrite.apply g.topology.entries (calls.flatMap GossipedState.latencyWrites) :=
  LastWrite.apply_foldl (fun g : GatewayStore => g.topology.entries)
    (fun g call => entries_handle c now g call) g calls

theorem regions_handleAll :
    (g.handleAll c now calls).topology.regions =
      LastWrite.apply g.topology.regions (calls.flatMap (GossipedState.regionWrites c)) :=
  LastWrite.apply_foldl (fun g : GatewayStore => g.topology.regions)
    (fun g call => regions_handle c now g call) g calls

theorem backends_handleAll :
    (g.handleAll c now calls).registry.backends = g.registry.backends :=
  Run.foldl_preserves (P := fun g' => g'.registry.backends = g.registry.backends)
    (fun g' call h => (backends_handle c now g' call).trans h) rfl calls

end Handle

/-! ## What an answer brings -/

section Answer

variable {w : Wire} {listing : Listing} {g : GatewayStore} {b : BackendId} {m : BackendMetrics}

theorem mem_reports {backends : List BackendInfo} :
    (b, m) ∈ g.reports backends ↔
      (∃ info ∈ backends, info.id = b) ∧ g.registry.load.get b = some m := by
  unfold reports
  rw [List.mem_filterMap]
  constructor
  · rintro ⟨info, hinfo, hm⟩
    rcases Option.map_eq_some_iff.1 hm with ⟨m', hget, heq⟩
    rcases Prod.mk.inj heq with ⟨rfl, rfl⟩
    exact ⟨⟨info, hinfo, rfl⟩, hget⟩
  · rintro ⟨⟨info, hinfo, rfl⟩, hget⟩
    exact ⟨info, hinfo, by rw [hget]; rfl⟩

/-- The identifiers of the backends that are listed are read as what they are. -/
def IdsReadBack (listing : Listing) : Prop :=
  ∀ info ∈ listing.backends, BackendId.parse info.id.display = some info.id

theorem IdsReadBack.reports (h : IdsReadBack listing) (g : GatewayStore) :
    GossipedState.acceptedSynced (wireEntries (g.reports listing.backends)) =
      g.reports listing.backends := by
  apply acceptedSynced_wireEntries
  rintro ⟨b, m⟩ hr
  rcases mem_reports.1 hr with ⟨⟨info, hinfo, rfl⟩, -⟩
  exact h info hinfo

variable {key : String} {entry : MetaEntry} {keys : List String}

theorem key_of_syncEntry (h : g.syncEntry w listing key = some entry) : entry.key = key := by
  unfold syncEntry at h
  split_ifs at h <;> exact Option.some.inj h ▸ rfl

/-- Only the answer to `load_state` has metrics. -/
theorem entryMetrics_syncEntry (h : g.syncEntry w listing key = some entry) :
    GossipedState.entryMetrics w.toCodec entry =
      if key = MetaKey.loadState.asStr then
        GossipedState.acceptedSynced
          ((w.decodeLoad (w.encodeLoad (wireEntries (g.reports listing.backends)))).getD [])
      else [] := by
  unfold GossipedState.entryMetrics
  rw [key_of_syncEntry h]
  by_cases hkey : key = MetaKey.loadState.asStr
  · rw [syncEntry, if_pos hkey] at h
    rw [if_pos hkey, ← Option.some.inj h]
    exact if_pos hkey
  · rw [if_neg hkey]
    exact if_neg hkey

/-- The Regions that are listed, as they are read. -/
def readRegions (w : Wire) (regions : List RegionId) (g : GatewayStore) : List RegionInfo :=
  regions.filterMap fun rid =>
    (g.topology.regions rid).bind fun info => w.decodeRegion (w.encodeRegion info)

/-- Only the answer to `topology_state` has Regions. -/
theorem entryRegions_syncEntry (h : g.syncEntry w listing key = some entry) :
    GossipedState.entryRegions w.toCodec entry =
      if key = MetaKey.topologyState.asStr then g.readRegions w listing.regions else [] := by
  unfold GossipedState.entryRegions
  rw [key_of_syncEntry h]
  have hnames : MetaKey.topologyState.asStr ≠ MetaKey.loadState.asStr := by decide
  by_cases hkey : key = MetaKey.topologyState.asStr
  · subst hkey
    rw [syncEntry, if_neg hnames, if_pos rfl] at h
    rw [← Option.some.inj h, if_pos rfl]
    refine ((if_neg hnames).trans (if_pos rfl)).trans ?_
    unfold readRegions
    simp only [serializeTopologyState, Json.asArray, Option.getD_some, List.filterMap_filterMap]
    congr 1
    funext rid
    cases g.topology.regions rid with
    | none => rfl
    | some info => rfl
  · rw [if_neg hkey]
    split
    · rfl
    · exact if_neg hkey

theorem mem_flatMap_handleSyncRequest {α : Type*} {f : MetaEntry → List α} {a : α} :
    a ∈ (g.handleSyncRequest w listing keys).flatMap f ↔
      ∃ key ∈ keys, ∃ entry, g.syncEntry w listing key = some entry ∧ a ∈ f entry := by
  unfold handleSyncRequest
  simp only [List.mem_flatMap, List.mem_filterMap]
  constructor
  · rintro ⟨entry, ⟨key, hkey, hentry⟩, ha⟩
    exact ⟨key, hkey, entry, hentry, ha⟩
  · rintro ⟨key, hkey, entry, hentry, ha⟩
    exact ⟨entry, ⟨key, hkey, hentry⟩, ha⟩

/-- What an answer says of a backend is what the store says. -/
theorem reported_of_answer (hw : w.Sound) (hids : IdsReadBack listing)
    (h : (b, m) ∈ (g.handleSyncRequest w listing keys).flatMap
      (GossipedState.entryMetrics w.toCodec)) : (b, m) ∈ g.reports listing.backends := by
  rcases mem_flatMap_handleSyncRequest.1 h with ⟨key, -, entry, hentry, hmem⟩
  rw [entryMetrics_syncEntry hentry] at hmem
  split at hmem
  · cases hread : w.decodeLoad (w.encodeLoad (wireEntries (g.reports listing.backends))) with
    | none =>
      rw [hread] at hmem
      exact absurd hmem List.not_mem_nil
    | some entries =>
      rw [hread, hw.load _ _ hread, Option.getD_some, hids.reports] at hmem
      exact hmem
  · exact absurd hmem List.not_mem_nil

/-- A Region of an answer is known to the store, but for its coordinates. -/
theorem known_of_answer (hw : w.Sound) {info : RegionInfo}
    (h : info ∈ (g.handleSyncRequest w listing keys).flatMap
      (GossipedState.entryRegions w.toCodec)) :
    ∃ r known, g.topology.regions r = some known ∧ { info with geo := known.geo } = known := by
  rcases mem_flatMap_handleSyncRequest.1 h with ⟨key, -, entry, hentry, hmem⟩
  rw [entryRegions_syncEntry hentry] at hmem
  split at hmem
  · rcases List.mem_filterMap.1 hmem with ⟨r, -, hread⟩
    rcases Option.bind_eq_some_iff.1 hread with ⟨known, hknown, hdecode⟩
    exact ⟨r, known, hknown, hw.region known info hdecode⟩
  · exact absurd hmem List.not_mem_nil

/-! ## An answer that arrives -/

/-- Everything a store tells can be read as it was. -/
structure ReadsBack (w : Wire) (listing : Listing) (g : GatewayStore) : Prop where
  ids : IdsReadBack listing
  load : w.decodeLoad (w.encodeLoad (wireEntries (g.reports listing.backends))) =
    some (wireEntries (g.reports listing.backends))
  regions : ∀ r info, g.topology.regions r = some info →
    w.decodeRegion (w.encodeRegion info) = some info

/-- `r'` is `r` with what `g` has to say under the keys: the metrics of the backends that `g` has
registered and the Regions that `g` knows. -/
structure Merged (keys : List String) (g r r' : GatewayStore) : Prop where
  load : ∀ b, r'.registry.load.get b =
    if MetaKey.loadState.asStr ∈ keys ∧ (g.registry.backendGet b).isSome then
      (g.registry.load.get b).or (r.registry.load.get b)
    else r.registry.load.get b
  regions : ∀ id, r'.topology.regions id =
    if MetaKey.topologyState.asStr ∈ keys then
      (g.topology.regions id).or (r.topology.regions id)
    else r.topology.regions id
  /-- Latencies are not told. -/
  latencies : r'.topology.entries = r.topology.entries
  backends : r'.registry.backends = r.registry.backends
  filters : r'.filters = r.filters
  sessions : r'.sessions = r.sessions
  versions : r'.versions = { r.versions with
    load := r.versions.load + BitVec.ofNat 64 (keys.count MetaKey.loadState.asStr)
    topology := r.versions.topology + BitVec.ofNat 64 (keys.count MetaKey.topologyState.asStr) }

/-- Every Region is filed under its id. -/
def RegionsKeyed (g : GatewayStore) : Prop :=
  ∀ id info, g.topology.regions id = some info → info.id = id

theorem Lists.mem_backends (h : g.Lists listing) (hkeyed : g.registry.Keyed) {info : BackendInfo} :
    info ∈ listing.backends ↔ g.registry.backendGet info.id = some info := by
  rw [h.backends.mem_iff, List.mem_map]
  constructor
  · rintro ⟨⟨b, info⟩, he, rfl⟩
    have hget : g.registry.backendGet b = some info := AList.mem_lookup_iff.2 he
    rw [hkeyed b info hget]
    exact hget
  · intro hget
    exact ⟨⟨info.id, info⟩, AList.mem_lookup_iff.1 hget, rfl⟩

theorem Lists.listed_iff (h : g.Lists listing) (hkeyed : g.registry.Keyed) (b : BackendId) :
    (∃ info ∈ listing.backends, info.id = b) ↔ (g.registry.backendGet b).isSome = true := by
  rw [Option.isSome_iff_exists]
  constructor
  · rintro ⟨info, hinfo, rfl⟩
    exact ⟨info, (h.mem_backends hkeyed).1 hinfo⟩
  · rintro ⟨info, hget⟩
    obtain rfl := hkeyed b info hget
    exact ⟨info, (h.mem_backends hkeyed).2 hget, rfl⟩

/-- The metrics in an answer. -/
theorem mem_answer_iff (h : g.ReadsBack w listing) :
    (b, m) ∈ (g.handleSyncRequest w listing keys).flatMap
        (GossipedState.entryMetrics w.toCodec) ↔
      MetaKey.loadState.asStr ∈ keys ∧ (b, m) ∈ g.reports listing.backends := by
  rw [mem_flatMap_handleSyncRequest]
  have hreports : GossipedState.acceptedSynced
      ((w.decodeLoad (w.encodeLoad (wireEntries (g.reports listing.backends)))).getD []) =
        g.reports listing.backends := by
    rw [h.load, Option.getD_some, h.ids.reports]
  constructor
  · rintro ⟨key, hkey, entry, hentry, hmem⟩
    rw [entryMetrics_syncEntry hentry, hreports] at hmem
    split at hmem
    · next heq => exact ⟨heq ▸ hkey, hmem⟩
    · exact absurd hmem List.not_mem_nil
  · rintro ⟨hkey, hmem⟩
    have hentry : g.syncEntry w listing MetaKey.loadState.asStr =
        some ⟨MetaKey.loadState.asStr, g.serializeLoadState w listing.backends,
          g.versions.load⟩ := rfl
    refine ⟨_, hkey, _, hentry, ?_⟩
    rw [entryMetrics_syncEntry hentry, if_pos rfl, hreports]
    exact hmem

/-- The Regions in an answer. -/
theorem mem_answerRegions_iff (h : g.ReadsBack w listing) (hlists : g.Lists listing)
    {info : RegionInfo} :
    info ∈ (g.handleSyncRequest w listing keys).flatMap (GossipedState.entryRegions w.toCodec) ↔
      MetaKey.topologyState.asStr ∈ keys ∧ ∃ r, g.topology.regions r = some info := by
  rw [mem_flatMap_handleSyncRequest]
  have hread : info ∈ g.readRegions w listing.regions ↔ ∃ r, g.topology.regions r = some info := by
    unfold readRegions
    rw [List.mem_filterMap]
    constructor
    · rintro ⟨r, -, hr⟩
      rcases Option.bind_eq_some_iff.1 hr with ⟨known, hknown, hdecode⟩
      rw [h.regions r known hknown] at hdecode
      exact ⟨r, hknown.trans hdecode⟩
    · rintro ⟨r, hr⟩
      refine ⟨r, (hlists.regions r).2 (by rw [hr]; rfl), ?_⟩
      rw [hr]
      exact h.regions r info hr
  constructor
  · rintro ⟨key, hkey, entry, hentry, hmem⟩
    rw [entryRegions_syncEntry hentry] at hmem
    split at hmem
    · next heq => exact ⟨heq ▸ hkey, hread.1 hmem⟩
    · exact absurd hmem List.not_mem_nil
  · rintro ⟨hkey, hmem⟩
    have hentry : g.syncEntry w listing MetaKey.topologyState.asStr =
        some ⟨MetaKey.topologyState.asStr, g.serializeTopologyState w listing.regions,
          g.versions.topology⟩ := rfl
    refine ⟨_, hkey, _, hentry, ?_⟩
    rw [entryRegions_syncEntry hentry, if_pos rfl]
    exact hread.2 hmem

/-- A payload that is written is counted. -/
theorem versions_applyEntry (h : g.ReadsBack w listing)
    (hentry : g.syncEntry w listing key = some entry) (s : GossipedState) :
    (s.applyEntry w.toCodec entry).loadVersion =
        s.loadVersion + BitVec.ofNat 64 ([key].count MetaKey.loadState.asStr) ∧
      (s.applyEntry w.toCodec entry).topologyVersion =
        s.topologyVersion + BitVec.ofNat 64 ([key].count MetaKey.topologyState.asStr) := by
  have hkey := key_of_syncEntry hentry
  rw [List.count_singleton, List.count_singleton]
  by_cases hload : key = MetaKey.loadState.asStr
  · subst hload
    have hread : entry.value.asStr.bind w.decodeLoad =
        some (wireEntries (g.reports listing.backends)) := by
      rw [← Option.some.inj hentry]
      exact h.load
    have happly : s.applyEntry w.toCodec entry = s.applyLoadState w.toCodec entry.value :=
      if_pos hkey
    rw [happly, GossipedState.applyLoadState, hread]
    exact ⟨rfl, (BitVec.add_zero _).symm⟩
  · have hload' : entry.key ≠ "load_state" := by
      rw [hkey]
      exact hload
    rw [if_neg (by simpa using hload)]
    by_cases htopology : key = MetaKey.topologyState.asStr
    · subst htopology
      have happly : s.applyEntry w.toCodec entry = s.applyTopologyState w.toCodec entry.value :=
        (if_neg hload').trans (if_pos hkey)
      rw [happly, ← Option.some.inj hentry]
      exact ⟨(BitVec.add_zero _).symm, rfl⟩
    · have htopology' : entry.key ≠ "topology_state" := by
        rw [hkey]
        exact htopology
      have happly : s.applyEntry w.toCodec entry = s := (if_neg hload').trans (if_neg htopology')
      rw [happly, if_neg (by simpa using htopology)]
      exact ⟨(BitVec.add_zero _).symm, (BitVec.add_zero _).symm⟩

theorem versions_applySyncResponse (h : g.ReadsBack w listing) (keys : List String)
    (s : GossipedState) :
    (s.applySyncResponse w.toCodec (g.handleSyncRequest w listing keys)).loadVersion =
        s.loadVersion + BitVec.ofNat 64 (keys.count MetaKey.loadState.asStr) ∧
      (s.applySyncResponse w.toCodec (g.handleSyncRequest w listing keys)).topologyVersion =
        s.topologyVersion + BitVec.ofNat 64 (keys.count MetaKey.topologyState.asStr) := by
  induction keys generalizing s with
  | nil => exact ⟨(BitVec.add_zero _).symm, (BitVec.add_zero _).symm⟩
  | cons key keys ih =>
    have hcount (name : String) : BitVec.ofNat 64 ((key :: keys).count name) =
        BitVec.ofNat 64 ([key].count name) + BitVec.ofNat 64 (keys.count name) := by
      rw [← List.singleton_append, List.count_append, BitVec.ofNat_add]
    rw [hcount, hcount, ← BitVec.add_assoc, ← BitVec.add_assoc]
    cases hentry : g.syncEntry w listing key with
    | none =>
      -- an unknown key is neither of the two
      have hrest : g.handleSyncRequest w listing (key :: keys) =
          g.handleSyncRequest w listing keys := List.filterMap_cons_none hentry
      have hother (name : String) (hname : g.syncEntry w listing name ≠ none) :
          [key].count name = 0 := by
        apply List.count_eq_zero.2
        rw [List.mem_singleton]
        rintro rfl
        exact hname hentry
      have hload : g.syncEntry w listing MetaKey.loadState.asStr ≠ none := Option.some_ne_none _
      have htopology : g.syncEntry w listing MetaKey.topologyState.asStr ≠ none :=
        Option.some_ne_none _
      rw [hrest, hother _ hload, hother _ htopology, BitVec.add_zero, BitVec.add_zero]
      exact ih s
    | some entry =>
      have hrest : g.handleSyncRequest w listing (key :: keys) =
          entry :: g.handleSyncRequest w listing keys := List.filterMap_cons_some hentry
      rcases versions_applyEntry h hentry s with ⟨hload, htopology⟩
      rw [hrest, ← hload, ← htopology]
      exact ih (s.applyEntry w.toCodec entry)

/-- A store that receives an answer takes over what the answer tells, and nothing else. -/
theorem merged_receive (h : g.ReadsBack w listing) (hlists : g.Lists listing)
    (hkeyed : g.registry.Keyed) (hregions : g.RegionsKeyed) (now : Nat) (r : GatewayStore) :
    Merged keys g r
      (r.handle w.toCodec now (.applySyncResponse (g.handleSyncRequest w listing keys))) where
  load b := by
    unfold LoadStats.get
    rw [latest_handle]
    have hmem (m : BackendMetrics) : (b, m) ∈ GossipedState.metricsWrites w.toCodec
        (.applySyncResponse (g.handleSyncRequest w listing keys)) ↔
          (MetaKey.loadState.asStr ∈ keys ∧ (g.registry.backendGet b).isSome = true) ∧
            g.registry.load.latest b = some m := by
      refine (mem_answer_iff h).trans ?_
      rw [mem_reports, hlists.listed_iff hkeyed, and_assoc]
      rfl
    split
    · next htold => exact LastWrite.apply_eq_or fun m => (hmem m).trans (and_iff_right htold)
    · next htold =>
      exact LastWrite.apply_of_notMem fun m hm => htold ((hmem m).1 hm).1
  regions id := by
    rw [regions_handle]
    have hmem (info : RegionInfo) : (id, info) ∈ GossipedState.regionWrites w.toCodec
        (.applySyncResponse (g.handleSyncRequest w listing keys)) ↔
          MetaKey.topologyState.asStr ∈ keys ∧ g.topology.regions id = some info := by
      refine List.mem_map.trans ?_
      constructor
      · rintro ⟨info', hinfo, heq⟩
        rcases Prod.mk.inj heq with ⟨rfl, rfl⟩
        rcases (mem_answerRegions_iff h hlists).1 hinfo with ⟨hkey, r, hr⟩
        rw [hregions r info' hr]
        exact ⟨hkey, hr⟩
      · rintro ⟨hkey, hget⟩
        refine ⟨info, (mem_answerRegions_iff h hlists).2 ⟨hkey, id, hget⟩, ?_⟩
        rw [hregions id info hget]
    split
    · next htold => exact LastWrite.apply_eq_or fun info => (hmem info).trans (and_iff_right htold)
    · next htold =>
      exact LastWrite.apply_of_notMem fun info hinfo => htold ((hmem info).1 hinfo).1
  latencies := (entries_handle w.toCodec now r _).trans rfl
  backends := rfl
  filters := rfl
  sessions := rfl
  versions := by
    have hversions := versions_applySyncResponse h keys r.gossiped
    rw [handle, withGossiped, hversions.1, hversions.2]
    rfl

end Answer

/-! ## Stores whose backends can be told -/

/-- A backend is registered under a name that has no slash in the Region. -/
def WriteReadable : LocalWrite → Prop
  | .registry (.register info) => info.id.Named ∧ '/' ∉ info.id.region.str.toList
  | _ => True

/-- Backends and Regions are filed under their ids, and the backends' ids can be read. -/
structure Filed (g : GatewayStore) : Prop where
  keyed : g.registry.Keyed
  readable : ∀ b info, g.registry.backendGet b = some info → BackendId.parse b.display = some b
  regions : g.RegionsKeyed

theorem Filed.new : Filed new where
  keyed := BackendRegistry.new_keyed
  readable _ _ h := absurd h (Option.some_ne_none _).symm
  regions _ _ h := absurd h (Option.some_ne_none _).symm

section Filed

variable {g : GatewayStore} (h : Filed g)

include h

theorem Filed.idsReadBack {listing : Listing} (hlists : g.Lists listing) : IdsReadBack listing := by
  intro info hinfo
  exact h.readable info.id info ((hlists.mem_backends h.keyed).1 hinfo)

theorem Filed.write {op : LocalWrite} (hop : WriteReadable op) : Filed (g.write op) := by
  cases op with
  | registry op =>
    refine ⟨BackendRegistry.step_keyed h.keyed op, ?_, h.regions⟩
    intro b info hget
    cases op with
    | register info' =>
      have hget : (g.registry.registerBackend info').backendGet b = some info := hget
      rw [BackendRegistry.backendGet_registerBackend, Function.update_apply] at hget
      split at hget
      · next hb =>
        subst hb
        exact (BackendId.parse_display_iff hop.1).2 hop.2
      · exact h.readable b info hget
    | unregister backend =>
      have hget : (g.registry.unregisterBackend backend).backendGet b = some info := hget
      rw [BackendRegistry.backendGet_unregisterBackend, Function.update_apply] at hget
      split at hget
      · exact nomatch hget
      · exact h.readable b info hget
  | loadUpdate backend metrics => exact ⟨h.keyed, h.readable, h.regions⟩
  | addRegion info' =>
    refine ⟨h.keyed, h.readable, ?_⟩
    intro id info hget
    have hget : Function.update g.topology.regions info'.id (some info') id = some info := hget
    rw [Function.update_apply] at hget
    split at hget
    · next hid => rw [hid, Option.some.inj hget]
    · exact h.regions id info hget
  | updateLatency a b estimate =>
    refine ⟨h.keyed, h.readable, ?_⟩
    intro id info hget
    have hget : (g.topology.updateLatency a b estimate).regions id = some info := hget
    rw [TopologyGraph.regions_updateLatency] at hget
    exact h.regions id info hget
  | bump key => exact ⟨h.keyed, h.readable, h.regions⟩

theorem Filed.handleAll (c : Codec) (now : Nat) (calls : List HandlerCall) :
    Filed (g.handleAll c now calls) := by
  have hbackends : (g.handleAll c now calls).registry.backendGet = g.registry.backendGet := by
    unfold BackendRegistry.backendGet
    rw [backends_handleAll]
  refine ⟨?_, ?_, ?_⟩
  · intro b info hget
    rw [hbackends] at hget
    exact h.keyed b info hget
  · intro b info hget
    rw [hbackends] at hget
    exact h.readable b info hget
  · intro id info hget
    rw [regions_handleAll] at hget
    rcases LastWrite.mem_or_of_apply hget with hmem | hold
    · rcases List.mem_flatMap.1 hmem with ⟨call, -, hcall⟩
      cases call with
      | applySyncResponse entries =>
        rcases List.mem_map.1 hcall with ⟨info', -, heq⟩
        rcases Prod.mk.inj heq with ⟨rfl, rfl⟩
        rfl
      | handleMetricsBroadcast | handleTopologyUpdate | handleCkf | handleSessionAffinity =>
        exact absurd hcall List.not_mem_nil
    · exact h.regions id info hold

end Filed

end GatewayStore

end HierKvGateway
