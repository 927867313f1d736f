import HierKvGateway.Gateway.SyncRounds

/-!
# Gateway.SyncSources — where a gateway's metadata comes from

Gateways pass on what they have been told, and answers may be lost, duplicated, or come late.
What a gateway has of a backend is then not always the newest, but it is never made up:
`metadata_sourced` says where each value was first.
-/

namespace HierKvGateway

namespace SyncNetwork

variable {F : Fleet} {w : Wire} {s : SyncNetwork}

/-- Some gateway measured the metrics of the backend. -/
def Reported (s : SyncNetwork) (b : BackendId) (m : BackendMetrics) : Prop :=
  ∃ j, LocalWrite.loadUpdate b m ∈ s.writes j

/-- Some gateway added the Region; the coordinates may have been rounded on the way. -/
def Added (s : SyncNetwork) (info : RegionInfo) : Prop :=
  ∃ j known, LocalWrite.addRegion known ∈ s.writes j ∧ { info with geo := known.geo } = known

/-- The gateway estimated the latency itself. -/
def Estimated (s : SyncNetwork) (i : InstanceId) (a b : RegionId) (est : LatencyEstimate) : Prop :=
  LocalWrite.updateLatency a b est ∈ s.writes i ∨ LocalWrite.updateLatency b a est ∈ s.writes i

/-- Whatever a gateway has, some gateway had it first, under the same name. -/
structure Sourced (s : SyncNetwork) : Prop where
  metrics : ∀ i b m, (s.store i).registry.load.get b = some m → s.Reported b m
  regions : ∀ i id info, (s.store i).topology.regions id = some info → info.id = id ∧ s.Added info
  latencies : ∀ i a b est, (s.store i).topology.entries (a, b) = some est → s.Estimated i a b est

/-- The same of what is on its way. -/
structure Carried (w : Wire) (s : SyncNetwork) : Prop where
  metrics : ∀ p ∈ s.gossip.net, ∀ call ∈ GossipedState.callsOf p.msg, ∀ b m,
    (b, m) ∈ GossipedState.metricsWrites w.toCodec call → s.Reported b m
  regions : ∀ p ∈ s.gossip.net, ∀ call ∈ GossipedState.callsOf p.msg, ∀ id info,
    (id, info) ∈ GossipedState.regionWrites w.toCodec call → s.Added info
  latencies : ∀ p ∈ s.gossip.net, ∀ call ∈ GossipedState.callsOf p.msg,
    GossipedState.latencyWrites call = []

section Records

variable {i : InstanceId} {a b : RegionId} {backend : BackendId} {m : BackendMetrics}
  {info : RegionInfo} {est : LatencyEstimate}

theorem Reported.step (h : s.Reported backend m) (l : Label) :
    (SyncNetwork.update F w l s).Reported backend m := by
  rcases h with ⟨j, hj⟩
  exact ⟨j, writes_step hj l⟩

theorem Added.step (h : s.Added info) (l : Label) : (SyncNetwork.update F w l s).Added info := by
  rcases h with ⟨j, known, hj, hknown⟩
  exact ⟨j, known, writes_step hj l, hknown⟩

/-- A Region that differs from an added one in its coordinates. -/
theorem Added.geo {known : RegionInfo} (h : s.Added known)
    (hknown : { info with geo := known.geo } = known) : s.Added info := by
  rcases h with ⟨j, first, hj, hfirst⟩
  refine ⟨j, first, hj, ?_⟩
  rw [← hknown] at hfirst
  exact hfirst

theorem Estimated.step (h : s.Estimated i a b est) (l : Label) :
    (SyncNetwork.update F w l s).Estimated i a b est :=
  h.imp (fun h => writes_step h l) (fun h => writes_step h l)

end Records

/-- What holds in every state. -/
structure Inv (w : Wire) (s : SyncNetwork) : Prop extends WellKept w s where
  sourced : Sourced s
  carried : Carried w s

theorem Inv.initial (h : Initial w s) : Inv w s where
  toWellKept := .initial h
  sourced := by
    refine ⟨?_, ?_, ?_⟩
    · intro i b m hm
      rw [h.store i] at hm
      exact nomatch hm
    · intro i id info hinfo
      rw [h.store i] at hinfo
      exact nomatch hinfo
    · intro i a b est hest
      rw [h.store i] at hest
      exact nomatch hest
  carried := by
    have hnet : ∀ p, p ∉ s.gossip.net := by
      intro p hp
      rw [h.gossip.net] at hp
      exact List.not_mem_nil hp
    exact ⟨fun p hp => absurd hp (hnet p), fun p hp => absurd hp (hnet p),
      fun p hp => absurd hp (hnet p)⟩

/-- A call that is on its way after a step was so before, or brings an answer out of some store. -/
theorem Answers.calls_step (h : Answers w s) {l : Label} {p : Packet} {call : HandlerCall}
    (hp : p ∈ (update F w l s).gossip.net) (hcall : call ∈ GossipedState.callsOf p.msg) :
    p ∈ s.gossip.net ∨ ∃ j listing keys, (s.store j).Lists listing ∧
      call = .applySyncResponse ((s.store j).handleSyncRequest w listing keys) := by
  rcases packet_step hp with hold | ⟨l', -, hfresh⟩
  · exact .inl hold
  · generalize p.msg = msg at hcall hfresh
    cases hfresh with
    | contact hcontact =>
      rw [GossipedState.callsOf_of_contact hcontact] at hcall
      exact nomatch hcall
    | request => exact nomatch hcall
    | @answer j _ _ _ _ keys _ _ =>
      rcases h j with ⟨listing, hlists, hhandler⟩
      rw [hhandler] at hcall
      exact .inr ⟨j, listing, keys, hlists, List.mem_singleton.1 hcall⟩

/-- An answer says what the store of its sender says. -/
theorem Inv.carried_step (h : Inv w s) (hw : w.Sound) (l : Label) :
    Carried w (update F w l s) := by
  refine ⟨?_, ?_, ?_⟩
  · intro p hp call hcall b m hm
    rcases h.answers.calls_step hp hcall with hold | ⟨j, listing, keys, hlists, rfl⟩
    · exact (h.carried.metrics p hold call hcall b m hm).step l
    · have hreport := GatewayStore.reported_of_answer hw ((h.filed j).idsReadBack hlists) hm
      exact (h.sourced.metrics j b m (GatewayStore.mem_reports.1 hreport).2).step l
  · intro p hp call hcall id info hinfo
    rcases h.answers.calls_step hp hcall with hold | ⟨j, listing, keys, -, rfl⟩
    · exact (h.carried.regions p hold call hcall id info hinfo).step l
    · rcases List.mem_map.1 hinfo with ⟨info', hmem, heq⟩
      rcases Prod.mk.inj heq with ⟨-, rfl⟩
      rcases GatewayStore.known_of_answer hw hmem with ⟨r, known, hknown, hgeo⟩
      exact ((h.sourced.regions j r known hknown).2.geo hgeo).step l
  · intro p hp call hcall
    rcases h.answers.calls_step hp hcall with hold | ⟨j, listing, keys, -, rfl⟩
    · exact h.carried.latencies p hold call hcall
    · rfl

/-- What a local write puts into a store is on record. -/
theorem Inv.sourced_write (h : Inv w s) (i : InstanceId) (op : LocalWrite) (listing : Listing) :
    let s' := update F w (.write i op listing) s
    (∀ b m, ((s.store i).write op).registry.load.get b = some m → s'.Reported b m) ∧
    (∀ id info, ((s.store i).write op).topology.regions id = some info → s'.Added info) ∧
    ∀ a b est, ((s.store i).write op).topology.entries (a, b) = some est →
      s'.Estimated i a b est := by
  intro s'
  have hrecord : op ∈ s'.writes i := by
    show op ∈ Function.update s.writes i (s.writes i ++ [op]) i
    rw [Function.update_self]
    exact List.mem_append_right _ (List.mem_singleton_self op)
  refine ⟨?_, ?_, ?_⟩
  · intro b m hm
    have hold (hget : (s.store i).registry.load.latest b = some m) : s'.Reported b m :=
      (h.sourced.metrics i b m hget).step _
    cases op with
    | registry op =>
      cases op with
      | register info => exact hold hm
      | unregister backend =>
        have hm : Function.update (s.store i).registry.load.latest backend none b = some m := hm
        rw [Function.update_apply] at hm
        split at hm
        · exact nomatch hm
        · exact hold hm
    | loadUpdate backend metrics =>
      have hm : Function.update (s.store i).registry.load.latest backend (some metrics) b =
        some m := hm
      rw [Function.update_apply] at hm
      split at hm
      · next hb =>
        rw [hb, ← Option.some.inj hm]
        exact ⟨i, hrecord⟩
      · exact hold hm
    | addRegion | updateLatency | bump => exact hold hm
  · intro id info hinfo
    have hold (hget : (s.store i).topology.regions id = some info) : s'.Added info :=
      (h.sourced.regions i id info hget).2.step _
    cases op with
    | addRegion added =>
      have hinfo : Function.update (s.store i).topology.regions added.id (some added) id =
        some info := hinfo
      rw [Function.update_apply] at hinfo
      split at hinfo
      · rw [← Option.some.inj hinfo]
        exact ⟨i, added, hrecord, rfl⟩
      · exact hold hinfo
    | updateLatency a b estimate =>
      have hinfo : ((s.store i).topology.updateLatency a b estimate).regions id = some info := hinfo
      rw [TopologyGraph.regions_updateLatency] at hinfo
      exact hold hinfo
    | registry op =>
      cases op with
      | register info => exact hold hinfo
      | unregister backend => exact hold hinfo
    | loadUpdate | bump => exact hold hinfo
  · intro a b est hest
    have hold (hget : (s.store i).topology.entries (a, b) = some est) : s'.Estimated i a b est :=
      (h.sourced.latencies i a b est hget).step _
    cases op with
    | updateLatency x y estimate =>
      have hest : ((s.store i).topology.updateLatency x y estimate).entries (a, b) =
        some est := hest
      rw [TopologyGraph.entries_updateLatency] at hest
      rcases LastWrite.mem_or_of_apply hest with hmem | hget
      · unfold TopologyGraph.latencyWrites at hmem
        split at hmem
        · exact nomatch hmem
        · -- both directions are written
          rcases List.mem_pair.1 hmem with heq | heq
          · cases heq
            exact .inl hrecord
          · cases heq
            exact .inr hrecord
      · exact hold hget
    | registry op =>
      cases op with
      | register info => exact hold hest
      | unregister backend => exact hold hest
    | loadUpdate | addRegion | bump => exact hold hest

theorem Inv.sourced_step (h : Inv w s) (l : Label) (hg : guard F w l s)
    (hl : ReadableWrites s l) : Sourced (update F w l s) := by
  have hfiled := (h.toWellKept.step l hg hl).filed
  have hstore (i : InstanceId) :
      (∀ b m, ((update F w l s).store i).registry.load.get b = some m →
        (update F w l s).Reported b m) ∧
      (∀ id info, ((update F w l s).store i).topology.regions id = some info →
        (update F w l s).Added info) ∧
      ∀ a b est, ((update F w l s).store i).topology.entries (a, b) = some est →
        (update F w l s).Estimated i a b est := by
    have hstored := store_step (F := F) (w := w) s l i
    generalize (update F w l s).store i = g at hstored
    cases hstored with
    | same =>
      exact ⟨fun b m hm => (h.sourced.metrics i b m hm).step l,
        fun id info hinfo => (h.sourced.regions i id info hinfo).2.step l,
        fun a b est hest => (h.sourced.latencies i a b est hest).step l⟩
    | written op listing => exact h.sourced_write i op listing
    | received n now listing =>
      refine ⟨?_, ?_, ?_⟩
      · intro b m hm
        rw [LoadStats.get, received, GatewayStore.latest_handleAll] at hm
        rcases LastWrite.mem_or_of_apply hm with hmem | hold
        · rcases List.mem_flatMap.1 hmem with ⟨call, hcall, hwrite⟩
          rcases mem_callsAt hcall with ⟨p, hp, hcalls⟩
          exact (h.carried.metrics p hp call hcalls b m hwrite).step _
        · exact (h.sourced.metrics i b m hold).step _
      · intro id info hinfo
        rw [received, GatewayStore.regions_handleAll] at hinfo
        rcases LastWrite.mem_or_of_apply hinfo with hmem | hold
        · rcases List.mem_flatMap.1 hmem with ⟨call, hcall, hwrite⟩
          rcases mem_callsAt hcall with ⟨p, hp, hcalls⟩
          exact (h.carried.regions p hp call hcalls id info hwrite).step _
        · exact (h.sourced.regions i id info hold).2.step _
      · intro a b est hest
        rw [received, GatewayStore.entries_handleAll] at hest
        rcases LastWrite.mem_or_of_apply hest with hmem | hold
        · rcases List.mem_flatMap.1 hmem with ⟨call, hcall, hwrite⟩
          rcases mem_callsAt hcall with ⟨p, hp, hcalls⟩
          rw [h.carried.latencies p hp call hcalls] at hwrite
          exact absurd hwrite List.not_mem_nil
        · exact (h.sourced.latencies i a b est hold).step _
  refine ⟨fun i => (hstore i).1, fun i id info hinfo => ?_, fun i => (hstore i).2.2⟩
  exact ⟨(hfiled i).regions id info hinfo, (hstore i).2.1 id info hinfo⟩

theorem Inv.step (h : Inv w s) (hw : w.Sound) (l : Label) (hg : guard F w l s)
    (hl : ReadableWrites s l) : Inv w (update F w l s) where
  toWellKept := h.toWellKept.step l hg hl
  sourced := h.sourced_step l hg hl
  carried := h.carried_step hw l

/-- In every state, whatever has been lost, duplicated, reordered or passed on, the metrics of a
backend are metrics of this backend that some gateway measured, a Region is one that some gateway
added, and a latency is one that the gateway estimated itself. -/
theorem metadata_sourced (F : Fleet) (w : Wire) (hw : w.Sound) (s : SyncNetwork)
    (hs : ((system F w).restrict ReadableWrites).Reachable s) : Sourced s := by
  have hinv : Inv w s := by
    refine Lts.invariant (P := Inv w) ?_ ?_ s hs
    · exact fun s h => .initial h
    · exact fun s l h hg => h.step hw l hg.1 hg.2
  exact hinv.sourced

/-- The second gateway has metrics of the backend that it has asked for, and some gateway measured
them. -/
theorem metadata_sourced_joined :
    ∃ s, (s.store ⟨"b"⟩).registry.load.get backend.id = some (GossipedState.metricsAt 1) ∧
      Reported s backend.id (GossipedState.metricsAt 1) := by
  have hstore : (system₂.run start joined).store ⟨"a"⟩ = measured := rfl
  have hkept := wellKept_reachable reachable_joined
  rcases hkept.exists_round (F := GossipNetwork.twoRegions) (i := ⟨"b"⟩) (j := ⟨"a"⟩) (by decide)
    (by decide +kernel) (by decide +kernel) known_joined rfl
    (by rw [hstore]; exact legible_measured) [MetaKey.loadState.asStr] 0 with
    ⟨ls, -, hls, hmerged, -, -⟩
  have hreach : (system₂.restrict ReadableWrites).Reachable
      (system₂.run (system₂.run start joined) ls) := reachable_joined.run hls
  have hget : ((system₂.run (system₂.run start joined) ls).store ⟨"b"⟩).registry.load.get
      backend.id = some (GossipedState.metricsAt 1) := by
    rw [hmerged.load, hstore, if_pos ⟨List.mem_singleton_self _, by decide +kernel⟩]
    decide +kernel
  have hsourced := metadata_sourced GossipNetwork.twoRegions oneBackend sound_oneBackend _ hreach
  exact ⟨_, hget, hsourced.metrics _ _ _ hget⟩

end SyncNetwork

end HierKvGateway
