import HierKvGateway.Cluster.Gossip
import HierKvGateway.Metadata.LoadStats
import HierKvGateway.Metadata.TopologyGraph

/-!
# Gateway.GossipedState — load metrics and topology received by gossip

The gossip handler (`cluster_bridge.rs`) writes what it receives into the load
statistics and the topology graph, and counts the writes in the digest it
advertises. Both stores keep what was written last: metrics and estimates carry the
time they were made at, but no handler compares it with what is stored.
-/

namespace HierKvGateway

/-- The decoders of the wire formats. -/
structure Codec where
  /-- Base64, then the binary encoding of the metrics of some backends. -/
  decodeLoad : String → Option (List (String × BackendMetrics))
  /-- A Region in JSON. -/
  decodeRegion : Json → Option RegionInfo

/-- The encoding version of a full payload. -/
def LoadPayload.versionFull : BitVec 8 := 1

/-- The metrics in a payload; `none` if the version is unknown. -/
def LoadPayload.decode (c : Codec) (p : LoadPayload) : Option (List (String × BackendMetrics)) :=
  if p.v = versionFull then c.decodeLoad p.data else none

/-- The stores the gossip handler writes metrics and topology into, with the version
counters of the two categories. -/
structure GossipedState where
  load : LoadStats
  topology : TopologyGraph
  loadVersion : BitVec 64
  topologyVersion : BitVec 64

namespace GossipedState

/-- The metrics of a Region's broadcast that are stored: malformed backend identifiers and
those of other Regions are skipped. -/
def acceptedFrom (region : RegionId) (backends : List (String × BackendMetrics)) :
    List (BackendId × BackendMetrics) :=
  backends.filterMap fun (idStr, metrics) =>
    match BackendId.parse idStr with
    | some backend => if backend.region ≠ region then none else some (backend, metrics)
    | none => none

/-- A broadcast of a Region's metrics arrives. -/
def handleMetricsBroadcast (c : Codec) (region : RegionId) (payload : LoadPayload)
    (g : GossipedState) : GossipedState :=
  match payload.decode c with
  | none => g
  | some backends =>
    let accepted := acceptedFrom region backends
    let updated := accepted.length
    { g with
      load := g.load.updateAll accepted
      loadVersion :=
        if updated > 0 then g.loadVersion + BitVec.ofNat 64 updated else g.loadVersion }

/-- The metrics of a sync response that are stored: a backend may be of any Region. -/
def acceptedSynced (entries : List (String × BackendMetrics)) :
    List (BackendId × BackendMetrics) :=
  entries.filterMap fun (idStr, metrics) => (BackendId.parse idStr).map (·, metrics)

/-- The entry `load_state` of a sync response. -/
def applyLoadState (c : Codec) (value : Json) (g : GossipedState) : GossipedState :=
  match value.asStr.bind c.decodeLoad with
  | none => g
  | some entries =>
    { g with
      load := g.load.updateAll (acceptedSynced entries)
      loadVersion := g.loadVersion + 1 }

/-- The entry `topology_state` of a sync response: Regions, without latencies. -/
def applyTopologyState (c : Codec) (value : Json) (g : GossipedState) : GossipedState :=
  match value.asArray with
  | none => g
  | some arr =>
    let infos := arr.filterMap fun entry => (entry.get "region").bind c.decodeRegion
    { g with
      topology := infos.foldl (fun t info => t.addRegion info) g.topology
      topologyVersion := g.topologyVersion + 1 }

/-- One entry of a sync response; keys without a payload and unknown keys are skipped. -/
def applyEntry (c : Codec) (g : GossipedState) (entry : MetaEntry) : GossipedState :=
  if entry.key = "load_state" then g.applyLoadState c entry.value
  else if entry.key = "topology_state" then g.applyTopologyState c entry.value
  else g

/-- A sync response arrives. -/
def applySyncResponse (c : Codec) (entries : List MetaEntry) (g : GossipedState) :
    GossipedState :=
  entries.foldl (applyEntry c) g

/-- A latency estimate arrives. -/
def handleTopologyUpdate (source target : RegionId) (estimate : LatencyEstimate)
    (g : GossipedState) : GossipedState :=
  { g with
    topology := g.topology.updateLatency source target estimate
    topologyVersion := g.topologyVersion + 1 }

/-- A call of the gossip engine. -/
def handle (c : Codec) (g : GossipedState) : HandlerCall → GossipedState
  | .applySyncResponse entries => g.applySyncResponse c entries
  | .handleMetricsBroadcast region payload => g.handleMetricsBroadcast c region payload
  | .handleTopologyUpdate source target estimate => g.handleTopologyUpdate source target estimate
  -- filters and sessions are kept in other stores
  | .handleCkf _ => g
  | .handleSessionAffinity _ _ _ => g

/-- The calls of the gossip engine, in the order they come in. -/
def handleAll (c : Codec) (g : GossipedState) (calls : List HandlerCall) : GossipedState :=
  calls.foldl (handle c) g

/-! ## What a call writes -/

/-- The metrics an entry of a sync response writes. -/
def entryMetrics (c : Codec) (entry : MetaEntry) : List (BackendId × BackendMetrics) :=
  if entry.key = "load_state" then
    acceptedSynced ((entry.value.asStr.bind c.decodeLoad).getD [])
  else []

/-- The metrics a call writes. -/
def metricsWrites (c : Codec) : HandlerCall → List (BackendId × BackendMetrics)
  | .applySyncResponse entries => entries.flatMap (entryMetrics c)
  | .handleMetricsBroadcast region payload => acceptedFrom region ((payload.decode c).getD [])
  | .handleTopologyUpdate _ _ _ | .handleCkf _ | .handleSessionAffinity _ _ _ => []

/-- The estimates a call writes. -/
def latencyWrites : HandlerCall → List ((RegionId × RegionId) × LatencyEstimate)
  | .handleTopologyUpdate source target estimate =>
    TopologyGraph.latencyWrites source target estimate
  | .applySyncResponse _ | .handleMetricsBroadcast _ _ | .handleCkf _
  | .handleSessionAffinity _ _ _ => []

/-- The metrics of a backend that some calls write, in order. -/
def metricsOf (c : Codec) (calls : List HandlerCall) (backend : BackendId) :
    List BackendMetrics :=
  LastWrite.valuesAt backend (calls.flatMap (metricsWrites c))

/-- The estimates for two Regions that some calls write, in order. -/
def estimatesOf (calls : List HandlerCall) (a b : RegionId) : List LatencyEstimate :=
  LastWrite.valuesAt (a, b) (calls.flatMap latencyWrites)

section Writes

variable (c : Codec) (g : GossipedState)

theorem latest_applyEntry (entry : MetaEntry) :
    (g.applyEntry c entry).load.latest = LastWrite.apply g.load.latest (entryMetrics c entry) := by
  unfold applyEntry entryMetrics
  split
  · unfold applyLoadState
    cases entry.value.asStr.bind c.decodeLoad with
    | none => rfl
    | some entries => exact g.load.latest_updateAll (acceptedSynced entries)
  · split
    · unfold applyTopologyState
      cases entry.value.asArray with
      | none => rfl
      | some arr => rfl
    · rfl

theorem entries_applyEntry (entry : MetaEntry) :
    (g.applyEntry c entry).topology.entries = g.topology.entries := by
  unfold applyEntry
  split
  · unfold applyLoadState
    cases entry.value.asStr.bind c.decodeLoad with
    | none => rfl
    | some entries => rfl
  · split
    · unfold applyTopologyState
      cases entry.value.asArray with
      | none => rfl
      | some arr => exact TopologyGraph.entries_addRegions _ g.topology
    · rfl

theorem latest_applySyncResponse (entries : List MetaEntry) :
    (g.applySyncResponse c entries).load.latest =
      LastWrite.apply g.load.latest (entries.flatMap (entryMetrics c)) :=
  LastWrite.apply_foldl (fun g : GossipedState => g.load.latest)
    (fun g entry => latest_applyEntry c g entry) g entries

theorem entries_applySyncResponse (entries : List MetaEntry) :
    (g.applySyncResponse c entries).topology.entries = g.topology.entries := by
  unfold applySyncResponse
  induction entries generalizing g with
  | nil => rfl
  | cons entry entries ih => exact (ih (g.applyEntry c entry)).trans (entries_applyEntry c g entry)

theorem latest_handle (call : HandlerCall) :
    (g.handle c call).load.latest =
      LastWrite.apply g.load.latest (metricsWrites c call) := by
  cases call with
  | applySyncResponse entries => exact latest_applySyncResponse c g entries
  | handleMetricsBroadcast region payload =>
    rw [handle, handleMetricsBroadcast, metricsWrites]
    cases payload.decode c with
    | none => rfl
    | some backends => exact g.load.latest_updateAll (acceptedFrom region backends)
  | handleTopologyUpdate source target estimate => rfl
  | handleCkf message => rfl
  | handleSessionAffinity session backendRegion backendInstance => rfl

theorem entries_handle (call : HandlerCall) :
    (g.handle c call).topology.entries =
      LastWrite.apply g.topology.entries (latencyWrites call) := by
  cases call with
  | applySyncResponse entries => exact entries_applySyncResponse c g entries
  | handleMetricsBroadcast region payload =>
    rw [handle, handleMetricsBroadcast, latencyWrites]
    cases payload.decode c with
    | none => rfl
    | some backends => rfl
  | handleTopologyUpdate source target estimate =>
    exact g.topology.entries_updateLatency source target estimate
  | handleCkf message => rfl
  | handleSessionAffinity session backendRegion backendInstance => rfl

variable (calls : List HandlerCall)

/-- The latest metrics of a backend are those of the call handled last. -/
theorem get_handleAll (backend : BackendId) :
    (g.handleAll c calls).load.get backend =
      (metricsOf c calls backend).getLast?.or (g.load.get backend) := by
  have hlatest : (g.handleAll c calls).load.latest =
      LastWrite.apply g.load.latest (calls.flatMap (metricsWrites c)) :=
    LastWrite.apply_foldl (fun g : GossipedState => g.load.latest) (latest_handle c) g calls
  unfold LoadStats.get metricsOf
  rw [hlatest, LastWrite.apply_eq]

theorem estimatesOf_self (a : RegionId) : estimatesOf calls a a = [] := by
  apply LastWrite.valuesAt_eq_nil
  intro w hw
  rcases List.mem_flatMap.1 hw with ⟨call, -, hwrite⟩
  cases call with
  | handleTopologyUpdate source target estimate =>
    exact TopologyGraph.ne_of_mem_latencyWrites hwrite
  | _ => exact absurd hwrite List.not_mem_nil

/-- The estimates of both directions are the same. -/
theorem estimatesOf_swap (a b : RegionId) : estimatesOf calls a b = estimatesOf calls b a := by
  unfold estimatesOf
  induction calls with
  | nil => rfl
  | cons call calls ih =>
    rw [List.flatMap_cons, LastWrite.valuesAt_append, LastWrite.valuesAt_append, ih]
    congr 1
    cases call with
    | handleTopologyUpdate source target estimate =>
      exact TopologyGraph.valuesAt_latencyWrites_swap source target a b estimate
    | _ => rfl

/-- The round-trip time between two Regions is that of the update handled last. -/
theorem rttMs_handleAll (a b : RegionId) :
    (g.handleAll c calls).topology.rttMs a b =
      ((estimatesOf calls a b).getLast?.map (·.rttP50Ms)).getD (g.topology.rttMs a b) := by
  have hentries : (g.handleAll c calls).topology.entries =
      LastWrite.apply g.topology.entries (calls.flatMap latencyWrites) :=
    LastWrite.apply_foldl (fun g : GossipedState => g.topology.entries)
      (entries_handle c) g calls
  apply TopologyGraph.rttMs_of_apply hentries
  · rintro rfl
    exact estimatesOf_self calls a
  · exact estimatesOf_swap calls a b

end Writes

/-! ## What a gateway has after some messages -/

/-- The calls a message leads to. -/
def callsOf : GossipMessage → List HandlerCall
  | .syncResponse entries => [.applySyncResponse entries]
  | .ckf message => [.handleCkf message]
  | .metricsBroadcast region payload => [.handleMetricsBroadcast region payload]
  | .topologyUpdate source target estimate => [.handleTopologyUpdate source target estimate]
  | .sessionAffinityBroadcast session backendRegion backendInstance =>
    [.handleSessionAffinity session backendRegion backendInstance]
  | .ping .. | .pong .. | .meet .. | .syncRequest .. => []

/-- The engine makes these calls, whatever its state. -/
theorem receive_calls (e : GossipEngine) (h : GossipHandler) (l : MemberList) (now : Nat)
    (msg : GossipMessage) : (e.receive h l now msg).calls = callsOf msg := by
  unfold GossipEngine.receive
  split
  · -- our own messages are ignored, and those that lead to calls name no sender
    next hself =>
    cases msg with
    | ping | pong | meet | syncRequest => rfl
    | _ => exact absurd hself Bool.false_ne_true
  · cases msg with
    | ping sender region digest timestamp =>
      unfold GossipEngine.dispatchMessage
      dsimp only
      split
      · rfl
      · rfl
    | syncRequest sender keys =>
      unfold GossipEngine.dispatchMessage
      dsimp only
      split
      · rfl
      · rfl
    | _ => rfl

/-- The messages, in the order they are delivered. -/
def handleMessages (c : Codec) (g : GossipedState) (msgs : List GossipMessage) : GossipedState :=
  g.handleAll c (msgs.flatMap callsOf)

/-- The metrics of a backend that some messages carry, in the order they are written. -/
def metricsIn (c : Codec) (msgs : List GossipMessage) (backend : BackendId) :
    List BackendMetrics :=
  metricsOf c (msgs.flatMap callsOf) backend

/-- The estimates for two Regions that some messages carry, in the order they are written. -/
def estimatesIn (msgs : List GossipMessage) (a b : RegionId) : List LatencyEstimate :=
  estimatesOf (msgs.flatMap callsOf) a b

/-- No two estimates for two Regions and no two metrics of a backend bear the same time. -/
structure DistinctTimes (c : Codec) (msgs : List GossipMessage) : Prop where
  estimates : ∀ a b, ((estimatesIn msgs a b).map (·.lastUpdatedUnix)).Nodup
  metrics : ∀ backend, ((metricsIn c msgs backend).map (·.timestamp)).Nodup

/-- Of all estimates for two Regions the newest is written last, and so are the newest
metrics of each backend. -/
structure NewestLast (c : Codec) (msgs : List GossipMessage) : Prop where
  estimates : ∀ a b, LastWrite.NewestLast (·.lastUpdatedUnix) (estimatesIn msgs a b)
  metrics : ∀ backend, LastWrite.NewestLast (·.timestamp) (metricsIn c msgs backend)

section Orders

variable {c : Codec} {msgs msgs' : List GossipMessage}

theorem metricsIn_perm (hperm : msgs.Perm msgs') (backend : BackendId) :
    (metricsIn c msgs backend).Perm (metricsIn c msgs' backend) :=
  LastWrite.valuesAt_perm backend ((hperm.flatMap_right callsOf).flatMap_right _)

theorem estimatesIn_perm (hperm : msgs.Perm msgs') (a b : RegionId) :
    (estimatesIn msgs a b).Perm (estimatesIn msgs' a b) :=
  LastWrite.valuesAt_perm (a, b) ((hperm.flatMap_right callsOf).flatMap_right _)

theorem DistinctTimes.perm (hperm : msgs.Perm msgs') (h : DistinctTimes c msgs) :
    DistinctTimes c msgs' where
  estimates a b := ((estimatesIn_perm hperm a b).map _).nodup_iff.1 (h.estimates a b)
  metrics backend := ((metricsIn_perm hperm backend).map _).nodup_iff.1 (h.metrics backend)

/-- A gateway that handled the newest values last has them. -/
theorem handleMessages_newest (g : GossipedState) (hdistinct : DistinctTimes c msgs)
    (hlast : NewestLast c msgs) :
    (∀ a b est, LastWrite.IsNewest (·.lastUpdatedUnix) (estimatesIn msgs a b) est →
      (g.handleMessages c msgs).topology.rttMs a b = est.rttP50Ms) ∧
    ∀ backend m, LastWrite.IsNewest (·.timestamp) (metricsIn c msgs backend) m →
      (g.handleMessages c msgs).load.get backend = some m := by
  constructor
  · intro a b est hnewest
    have hget := LastWrite.getLast?_of_isNewest (hdistinct.estimates a b) (hlast.estimates a b)
      hnewest
    unfold estimatesIn at hget
    unfold handleMessages
    rw [rttMs_handleAll, hget]
    rfl
  · intro backend m hnewest
    have hget := LastWrite.getLast?_of_isNewest (hdistinct.metrics backend)
      (hlast.metrics backend) hnewest
    unfold metricsIn at hget
    unfold handleMessages
    rw [get_handleAll, hget]
    rfl

end Orders

/-- Whatever the times, the values handled last remain. So the orders of delivery in which
the newest values are handled last all leave these, and two gateways that received the
same messages in such orders agree on everything the messages tell. -/
theorem handled_last_remains (c : Codec) (g : GossipedState) (msgs : List GossipMessage) :
    (∀ a b, (g.handleMessages c msgs).topology.rttMs a b =
      ((estimatesIn msgs a b).getLast?.map (·.rttP50Ms)).getD (g.topology.rttMs a b)) ∧
    (∀ backend, (g.handleMessages c msgs).load.get backend =
      (metricsIn c msgs backend).getLast?.or (g.load.get backend)) ∧
    ∀ (g' : GossipedState) (msgs' : List GossipMessage), msgs.Perm msgs' → DistinctTimes c msgs →
      NewestLast c msgs → NewestLast c msgs' →
      (∀ a b est, LastWrite.IsNewest (·.lastUpdatedUnix) (estimatesIn msgs a b) est →
        (g.handleMessages c msgs).topology.rttMs a b = est.rttP50Ms ∧
          (g'.handleMessages c msgs').topology.rttMs a b = est.rttP50Ms) ∧
      (∀ backend m, LastWrite.IsNewest (·.timestamp) (metricsIn c msgs backend) m →
        (g.handleMessages c msgs).load.get backend = some m ∧
          (g'.handleMessages c msgs').load.get backend = some m) ∧
      (∀ a b, (g.handleMessages c msgs').topology.rttMs a b =
        (g.handleMessages c msgs).topology.rttMs a b) ∧
      ∀ backend, (g.handleMessages c msgs').load.get backend =
        (g.handleMessages c msgs).load.get backend := by
  refine ⟨rttMs_handleAll c g _, get_handleAll c g _, ?_⟩
  intro g' msgs' hperm hdistinct hlast hlast'
  have hhere := handleMessages_newest g hdistinct hlast
  have hthere := handleMessages_newest g' (hdistinct.perm hperm) hlast'
  refine ⟨fun a b est hnewest => ?_, fun backend m hnewest => ?_, fun a b => ?_,
    fun backend => ?_⟩
  · exact ⟨hhere.1 a b est hnewest,
      hthere.1 a b est (hnewest.perm (estimatesIn_perm hperm a b))⟩
  · exact ⟨hhere.2 backend m hnewest,
      hthere.2 backend m (hnewest.perm (metricsIn_perm hperm backend))⟩
  · have hsame := LastWrite.getLast?_perm (estimatesIn_perm hperm a b) (hdistinct.estimates a b)
      (hlast.estimates a b) (hlast'.estimates a b)
    unfold estimatesIn at hsame
    unfold handleMessages
    rw [rttMs_handleAll, rttMs_handleAll, hsame]
  · have hsame := LastWrite.getLast?_perm (metricsIn_perm hperm backend)
      (hdistinct.metrics backend) (hlast.metrics backend) (hlast'.metrics backend)
    unfold metricsIn at hsame
    unfold handleMessages
    rw [get_handleAll, get_handleAll, hsame]

/-! ### Two values each, of times 1 and 2 -/

/-- Metrics collected at a time. -/
def metricsAt (t : Int) : BackendMetrics := ⟨0, 0, 0, 0, 0, 0, 0, 0, 0, ⟨0, 0, 0, 0⟩, t⟩

/-- The metrics of a backend at time 1 as they are sent. -/
def firstText : String := "AQZlYXN0L2IAAAAAAAAAAAAAAAAAAAAAAAAAAAAAAAAAAAAAAAAAAAAAAAAAAAAAAAI="

/-- At time 2. -/
def secondText : String := "AQZlYXN0L2IAAAAAAAAAAAAAAAAAAAAAAAAAAAAAAAAAAAAAAAAAAAAAAAAAAAAAAAQ="

/-- A codec that reads these two payloads. -/
def twoPayloads : Codec where
  decodeLoad data :=
    if data = firstText then some [("east/b", metricsAt 1)]
    else if data = secondText then some [("east/b", metricsAt 2)]
    else none
  decodeRegion _ := none

/-- An estimate made at a time; the time is also the estimate. -/
def estimateAt (t : Nat) : LatencyEstimate := ⟨BitVec.ofNat 64 t, 0, 0, t⟩

def updateAt (t : Nat) : GossipMessage :=
  .topologyUpdate ⟨"east"⟩ ⟨"west"⟩ (estimateAt t)

def broadcastOf (data : String) : GossipMessage := .metricsBroadcast ⟨"east"⟩ ⟨1, data⟩

def syncOf (data : String) : GossipMessage := .syncResponse [⟨"load_state", .string data, 0⟩]

/-- A gateway that has not heard anything. -/
def new : GossipedState := ⟨.new, .new, 0, 0⟩

/-- Two updates of two Regions write two estimates for them and none for any others. -/
theorem estimatesIn_two (msgs : List GossipMessage) (s t : Nat)
    (h : (msgs.flatMap callsOf).flatMap latencyWrites =
      TopologyGraph.latencyWrites ⟨"east"⟩ ⟨"west"⟩ (estimateAt s) ++
        TopologyGraph.latencyWrites ⟨"east"⟩ ⟨"west"⟩ (estimateAt t)) (a b : RegionId) :
    estimatesIn msgs a b = [estimateAt s, estimateAt t] ∨ estimatesIn msgs a b = [] := by
  have hne : (⟨"east"⟩ : RegionId) ≠ ⟨"west"⟩ := by decide
  unfold estimatesIn estimatesOf
  rw [h, LastWrite.valuesAt_append, TopologyGraph.latencyWrites, TopologyGraph.latencyWrites,
    if_neg hne, if_neg hne]
  simp only [LastWrite.valuesAt_cons, LastWrite.valuesAt_nil]
  by_cases hfwd : (⟨"east"⟩, ⟨"west"⟩) = (a, b)
  · rw [← hfwd]
    exact .inl rfl
  · by_cases hback : (⟨"west"⟩, ⟨"east"⟩) = (a, b)
    · rw [← hback]
      exact .inl rfl
    · simp only [if_neg hfwd, if_neg hback]
      exact .inr rfl

/-- Likewise for the metrics of a backend. -/
theorem metricsIn_two (msgs : List GossipMessage) (backend : BackendId) (s t : Int)
    (h : (msgs.flatMap callsOf).flatMap (metricsWrites twoPayloads) =
      [(backend, metricsAt s), (backend, metricsAt t)]) (x : BackendId) :
    metricsIn twoPayloads msgs x = [metricsAt s, metricsAt t] ∨
      metricsIn twoPayloads msgs x = [] := by
  unfold metricsIn metricsOf
  rw [h]
  simp only [LastWrite.valuesAt_cons, LastWrite.valuesAt_nil]
  by_cases hx : backend = x
  · left
    simp only [if_pos hx]
  · right
    simp only [if_neg hx]

/-- Different times are distinct. -/
theorem distinctTimes_two {msgs : List GossipMessage} {s t : Nat} {s' t' : Int} (hne : s ≠ t)
    (hne' : s' ≠ t')
    (hestimates : ∀ a b, estimatesIn msgs a b = [estimateAt s, estimateAt t] ∨
      estimatesIn msgs a b = [])
    (hmetrics : ∀ x, metricsIn twoPayloads msgs x = [metricsAt s', metricsAt t'] ∨
      metricsIn twoPayloads msgs x = []) : DistinctTimes twoPayloads msgs where
  estimates a b := by
    rcases hestimates a b with h | h
    · rw [h]
      simpa [estimateAt] using hne
    · rw [h]
      exact List.nodup_nil
  metrics x := by
    rcases hmetrics x with h | h
    · rw [h]
      simpa [metricsAt] using hne'
    · rw [h]
      exact List.nodup_nil

/-- Ascending times end with the newest. -/
theorem newestLast_two {msgs : List GossipMessage} {s t : Nat} {s' t' : Int} (hle : s ≤ t)
    (hle' : s' ≤ t')
    (hestimates : ∀ a b, estimatesIn msgs a b = [estimateAt s, estimateAt t] ∨
      estimatesIn msgs a b = [])
    (hmetrics : ∀ x, metricsIn twoPayloads msgs x = [metricsAt s', metricsAt t'] ∨
      metricsIn twoPayloads msgs x = []) : NewestLast twoPayloads msgs where
  estimates a b := by
    rcases hestimates a b with h | h
    · rw [h]
      simpa [LastWrite.NewestLast, LastWrite.IsNewest, estimateAt] using hle
    · rw [h]
      intro v hv
      contradiction
  metrics x := by
    rcases hmetrics x with h | h
    · rw [h]
      simpa [LastWrite.NewestLast, LastWrite.IsNewest, metricsAt] using hle'
    · rw [h]
      intro v hv
      contradiction

/-- The older estimate and the older metrics are handled last, and stay: another order of
the same messages leaves the newer ones. -/
theorem late_values_remain :
    let msgs := [updateAt 2, updateAt 1, syncOf secondText, broadcastOf firstText]
    let msgs' := [updateAt 1, updateAt 2, broadcastOf firstText, syncOf secondText]
    msgs.Perm msgs' ∧ DistinctTimes twoPayloads msgs ∧
      LastWrite.IsNewest (·.lastUpdatedUnix) (estimatesIn msgs ⟨"east"⟩ ⟨"west"⟩) (estimateAt 2) ∧
      (new.handleMessages twoPayloads msgs).topology.rttMs ⟨"east"⟩ ⟨"west"⟩ = 1 ∧
      (new.handleMessages twoPayloads msgs').topology.rttMs ⟨"east"⟩ ⟨"west"⟩ = 2 ∧
      LastWrite.IsNewest (·.timestamp) (metricsIn twoPayloads msgs ⟨⟨"east"⟩, ⟨"b"⟩⟩)
        (metricsAt 2) ∧
      (new.handleMessages twoPayloads msgs).load.get ⟨⟨"east"⟩, ⟨"b"⟩⟩ = some (metricsAt 1) ∧
      (new.handleMessages twoPayloads msgs').load.get ⟨⟨"east"⟩, ⟨"b"⟩⟩ = some (metricsAt 2) := by
  intro msgs msgs'
  refine ⟨?_, ?_, ?_, by decide +kernel, by decide +kernel, ?_, by decide +kernel,
    by decide +kernel⟩
  · exact (List.Perm.swap _ _ _).trans (((List.Perm.swap _ _ _).cons _).cons _)
  · have hestimates := estimatesIn_two msgs 2 1 (by decide +kernel)
    have hmetrics := metricsIn_two msgs ⟨⟨"east"⟩, ⟨"b"⟩⟩ 2 1 (by decide +kernel)
    exact distinctTimes_two (by decide) (by decide) hestimates hmetrics
  · have h : estimatesIn msgs ⟨"east"⟩ ⟨"west"⟩ = [estimateAt 2, estimateAt 1] := by
      decide +kernel
    rw [h]
    simp [LastWrite.IsNewest, estimateAt]
  · have h : metricsIn twoPayloads msgs ⟨⟨"east"⟩, ⟨"b"⟩⟩ = [metricsAt 2, metricsAt 1] := by
      decide +kernel
    rw [h]
    simp [LastWrite.IsNewest, metricsAt]

/-- Two gateways get the newer values last, in different orders. -/
theorem newer_values_remain :
    let msgs := [updateAt 1, updateAt 2, broadcastOf firstText, syncOf secondText]
    let msgs' := [broadcastOf firstText, updateAt 1, syncOf secondText, updateAt 2]
    (new.handleMessages twoPayloads msgs').topology.rttMs ⟨"east"⟩ ⟨"west"⟩ =
      (new.handleMessages twoPayloads msgs).topology.rttMs ⟨"east"⟩ ⟨"west"⟩ ∧
    (new.handleMessages twoPayloads msgs).load.get ⟨⟨"east"⟩, ⟨"b"⟩⟩ = some (metricsAt 2) ∧
    (new.handleMessages twoPayloads msgs').load.get ⟨⟨"east"⟩, ⟨"b"⟩⟩ = some (metricsAt 2) := by
  intro msgs msgs'
  have hperm : msgs.Perm msgs' :=
    ((List.Perm.swap _ _ _).cons _).trans ((List.Perm.swap _ _ _).trans
      (((List.Perm.swap _ _ _).cons _).cons _))
  have hestimates := estimatesIn_two msgs 1 2 (by decide +kernel)
  have hmetrics := metricsIn_two msgs ⟨⟨"east"⟩, ⟨"b"⟩⟩ 1 2 (by decide +kernel)
  have hestimates' := estimatesIn_two msgs' 1 2 (by decide +kernel)
  have hmetrics' := metricsIn_two msgs' ⟨⟨"east"⟩, ⟨"b"⟩⟩ 1 2 (by decide +kernel)
  have hagree := (handled_last_remains twoPayloads new msgs).2.2 new msgs' hperm
    (distinctTimes_two (by decide) (by decide) hestimates hmetrics)
    (newestLast_two (by decide) (by decide) hestimates hmetrics)
    (newestLast_two (by decide) (by decide) hestimates' hmetrics')
  have hnewest : LastWrite.IsNewest (·.timestamp) (metricsIn twoPayloads msgs ⟨⟨"east"⟩, ⟨"b"⟩⟩)
      (metricsAt 2) := by
    have h : metricsIn twoPayloads msgs ⟨⟨"east"⟩, ⟨"b"⟩⟩ = [metricsAt 1, metricsAt 2] := by
      decide +kernel
    rw [h]
    simp [LastWrite.IsNewest, metricsAt]
  have hgets := hagree.2.1 ⟨⟨"east"⟩, ⟨"b"⟩⟩ (metricsAt 2) hnewest
  exact ⟨hagree.2.2.1 ⟨"east"⟩ ⟨"west"⟩, hgets.1, hgets.2⟩

end GossipedState

end HierKvGateway
