import HierKvGateway.Cluster.MemberView
import HierKvGateway.Gateway.GatewayStore

/-!
# Gateway.SyncNetwork — gateways that ask each other for metadata

The network of engines, each with the metadata store of its gateway behind the handler. A gateway
writes into its own store at any time; what is delivered to it is handed to its handler, and the
handler answers sync requests out of the store. The local writes of each gateway are kept as a
ghost.

Without the stores, this is the network of the engines (`gossip_reachable`). `Stored` says what a
step makes of a store, `Fresh` what it sends; the handlers answer out of the stores (`Answers`).
-/

namespace HierKvGateway

namespace GossipEngine

/-- What is sent in reply names its sender, or answers a sync request. -/
theorem sends_cases {e : GossipEngine} {h : GossipHandler} {l : MemberList} {now : Nat}
    {msg : GossipMessage} {p : Packet} (hp : p ∈ (e.receive h l now msg).sends) :
    p.msg.contactSender ≠ none ∨
      ∃ sender keys, msg = .syncRequest sender keys ∧
        p.msg = .syncResponse (h.handleSyncRequest keys) := by
  by_cases hmsg : ∃ sender keys, msg = .syncRequest sender keys
  · rcases hmsg with ⟨sender, keys, rfl⟩
    refine .inr ⟨sender, keys, rfl, ?_⟩
    rw [receive] at hp
    split at hp
    · exact absurd hp List.not_mem_nil
    · simp only [dispatchMessage] at hp
      split at hp
      · rcases List.mem_singleton.1 hp with rfl
        rfl
      · rcases mem_broadcast.1 hp with ⟨m, -, -, rfl⟩
        rfl
  · left
    cases reply_of_mem_sends hp with
    | pong | ping => exact Option.some_ne_none _
    | syncResponse target entries =>
      -- only a request is answered so
      exfalso
      rw [receive] at hp
      split at hp
      · exact absurd hp List.not_mem_nil
      · cases msg with
        | syncRequest sender keys => exact hmsg ⟨sender, keys, rfl⟩
        | ping sender region metaDigest timestamp =>
          simp only [dispatchMessage] at hp
          split at hp
          · cases List.mem_singleton.1 hp
          · exact absurd hp List.not_mem_nil
        | meet sender region addr =>
          simp only [dispatchMessage] at hp
          rcases List.mem_cons.1 hp with h | h
          · cases h
          · rcases mem_broadcast.1 h with ⟨m, -, -, h⟩
            cases h
        | pong | syncResponse | ckf | metricsBroadcast | topologyUpdate
        | sessionAffinityBroadcast => exact absurd hp List.not_mem_nil

end GossipEngine

namespace GossipNetwork

variable {F : Fleet} {t : GossipNetwork} {l : Label}

/-- Only its own step changes what a handler answers. -/
theorem handler_update (h : ∀ i handler, l ≠ .store i handler) :
    (update F l t).handler = t.handler := by
  cases l with
  | store i handler => exact absurd rfl (h i handler)
  | deliver i n now =>
    rw [update, deliver]
    split
    · rfl
    · rfl
  | start | meet | requestSync | gossip | probe | lose | duplicate => rfl

/-- A message that a step sends: it names its sender, asks for metadata or answers such a
request. -/
inductive Fresh (t : GossipNetwork) : Label → GossipMessage → Prop
  | contact {l msg} : msg.contactSender ≠ none → Fresh t l msg
  | request (i target keys) : Fresh t (.requestSync i target keys) (.syncRequest i keys)
  | answer {i n now p sender keys} : t.net[n]? = some p → p.msg = .syncRequest sender keys →
      Fresh t (.deliver i n now) (.syncResponse ((t.handler i).handleSyncRequest keys))

theorem fresh_of_mem {p : Packet} (h : p ∈ (update F l t).net) : p ∈ t.net ∨ Fresh t l p.msg := by
  rcases packet_step h with hp | hsent
  · exact .inl hp
  · cases hsent with
    | meet | gossip => exact .inr (.contact (Option.some_ne_none _))
    | syncRequest i target keys => exact .inr (.request i target keys)
    | @reply i n now p' p hp' _ =>
      rw [update, deliver, hp'] at h
      rcases List.mem_append.1 h with h | h
      · exact .inl (List.mem_of_mem_eraseIdx h)
      · rcases GossipEngine.sends_cases h with hcontact | ⟨sender, keys, hmsg, hanswer⟩
        · exact .inr (.contact hcontact)
        · rw [hanswer]
          exact .inr (.answer hp' hmsg)

end GossipNetwork

/-- Who names himself calls for nothing. -/
theorem GossipedState.callsOf_of_contact {msg : GossipMessage} (h : msg.contactSender ≠ none) :
    callsOf msg = [] := by
  cases msg with
  | ping | pong | meet | syncRequest => rfl
  | syncResponse | ckf | metricsBroadcast | topologyUpdate | sessionAffinityBroadcast =>
    exact absurd rfl h

/-- The stores, the engines with the messages on their way, and what each gateway has written into
its own store. -/
structure SyncNetwork where
  store : InstanceId → GatewayStore
  gossip : GossipNetwork
  writes : InstanceId → List LocalWrite

namespace SyncNetwork

/-- The steps. -/
inductive Label where
  /-- A gateway writes into its store. -/
  | write (i : InstanceId) (op : LocalWrite) (listing : Listing)
  /-- The maps of a store are listed in another order from now on. -/
  | relist (i : InstanceId) (listing : Listing)
  /-- A step of the engines that no store has part in. -/
  | engine (l : GossipNetwork.Label)
  /-- A gateway receives the `n`-th message. -/
  | deliver (i : InstanceId) (n : Nat) (now : Nat) (listing : Listing)

/-- No store has part in the step. -/
def Plain : GossipNetwork.Label → Prop
  | .store _ _ | .deliver _ _ _ => False
  | _ => True

variable (F : Fleet) (w : Wire)

/-- What the `n`-th message makes an engine call its handler with. -/
def callsAt (s : SyncNetwork) (i : InstanceId) (n now : Nat) : List HandlerCall :=
  match s.gossip.net[n]? with
  | none => []
  | some p => (s.gossip.receive F i now p.msg).calls

/-- The store of a gateway that has received the `n`-th message; the engine's clock counts
milliseconds. -/
def received (s : SyncNetwork) (i : InstanceId) (n now : Nat) : GatewayStore :=
  (s.store i).handleAll w.toCodec (now / 1000) (s.callsAt F i n now)

def guard : Label → SyncNetwork → Prop
  | .write i op listing, s => ((s.store i).write op).Lists listing
  | .relist i listing, s => (s.store i).Lists listing
  | .engine l, s => Plain l ∧ GossipNetwork.guard F l s.gossip
  | .deliver i n now listing, s =>
    GossipNetwork.guard F (.deliver i n now) s.gossip ∧ (s.received F w i n now).Lists listing

/-- Replace the store of a gateway; from now on the handler answers out of it. -/
def setStore (i : InstanceId) (g : GatewayStore) (listing : Listing) (s : SyncNetwork) :
    SyncNetwork :=
  { s with
    store := Function.update s.store i g
    gossip := GossipNetwork.update F (.store i (g.handler w listing)) s.gossip }

def update : Label → SyncNetwork → SyncNetwork
  | .write i op listing, s =>
    { s with writes := Function.update s.writes i (s.writes i ++ [op]) }.setStore F w i
      ((s.store i).write op) listing
  | .relist i listing, s => s.setStore F w i (s.store i) listing
  | .engine l, s => { s with gossip := GossipNetwork.update F l s.gossip }
  | .deliver i n now listing, s =>
    { s with gossip := GossipNetwork.update F (.deliver i n now) s.gossip }.setStore F w i
      (s.received F w i n now) listing

/-- Nothing has been written or sent. -/
structure Initial (s : SyncNetwork) : Prop where
  store : ∀ i, s.store i = .new
  gossip : GossipNetwork.Initial s.gossip
  handler : ∀ i, s.gossip.handler i = GatewayStore.new.handler w ⟨[], []⟩
  writes : ∀ i, s.writes i = []

/-- All interleavings. -/
def system : Lts SyncNetwork Label where
  init := Initial w
  guard := guard F w
  update := update F w

variable {F w} {s : SyncNetwork}

/-- What a handler answers with may change at any time. -/
theorem store_reachable {t : GossipNetwork} (ht : (GossipNetwork.system F).Reachable t)
    (i : InstanceId) (handler : GossipHandler) :
    (GossipNetwork.system F).Reachable (GossipNetwork.update F (.store i handler) t) := by
  have hguard : (GossipNetwork.system F).guard (.store i handler) t := trivial
  exact .step _ ht hguard

/-- Without the stores, a step is one or two steps of the engines. -/
theorem gossip_step (hs : (GossipNetwork.system F).Reachable s.gossip) (l : Label)
    (hg : guard F w l s) : (GossipNetwork.system F).Reachable (update F w l s).gossip := by
  cases l with
  | write i op listing => exact store_reachable hs i _
  | relist i listing => exact store_reachable hs i _
  | engine l => exact .step l hs hg.2
  | deliver i n now listing =>
    have hguard : (GossipNetwork.system F).guard (.deliver i n now) s.gossip := hg.1
    exact store_reachable (.step _ hs hguard) i _

/-- What is proved of the network of the engines holds here. -/
theorem gossip_reachable (hs : (system F w).Reachable s) :
    (GossipNetwork.system F).Reachable s.gossip := by
  refine Lts.invariant (P := fun s => (GossipNetwork.system F).Reachable s.gossip) ?_ ?_ s hs
  · intro s h
    have hinit : (GossipNetwork.system F).init s.gossip := Initial.gossip h
    exact .init hinit
  · exact fun s l h hg => gossip_step h l hg

/-! ## What a step changes -/

/-- What a step makes of a store. -/
inductive Stored (F : Fleet) (w : Wire) (s : SyncNetwork) (i : InstanceId) :
    Label → GatewayStore → Prop
  | same {l} : Stored F w s i l (s.store i)
  | written (op listing) : Stored F w s i (.write i op listing) ((s.store i).write op)
  | received (n now listing) : Stored F w s i (.deliver i n now listing) (s.received F w i n now)

theorem store_step (s : SyncNetwork) (l : Label) (i : InstanceId) :
    Stored F w s i l ((update F w l s).store i) := by
  have hset (j : InstanceId) (g : GatewayStore) :
      Function.update s.store j g i = if i = j then g else s.store i := by
    rw [Function.update_apply]
  cases l with
  | write j op listing =>
    show Stored F w s i _ (Function.update s.store j ((s.store j).write op) i)
    rw [hset]
    split
    · next h =>
      subst h
      exact .written op listing
    · exact .same
  | relist j listing =>
    show Stored F w s i _ (Function.update s.store j (s.store j) i)
    rw [Function.update_eq_self]
    exact .same
  | engine l => exact .same
  | deliver j n now listing =>
    show Stored F w s i _ (Function.update s.store j (s.received F w j n now) i)
    rw [hset]
    split
    · next h =>
      subst h
      exact .received n now listing
    · exact .same

/-- What has been written stays on record. -/
theorem writes_step {op : LocalWrite} {i : InstanceId} (h : op ∈ s.writes i) (l : Label) :
    op ∈ (update F w l s).writes i := by
  cases l with
  | write j op' listing =>
    show op ∈ Function.update s.writes j (s.writes j ++ [op']) i
    rw [Function.update_apply]
    split
    · next hij =>
      subst hij
      exact List.mem_append_left _ h
    · exact h
  | relist | engine | deliver => exact h

/-- The handlers answer out of the stores. -/
def Answers (w : Wire) (s : SyncNetwork) : Prop :=
  ∀ i, ∃ listing, (s.store i).Lists listing ∧ s.gossip.handler i = (s.store i).handler w listing

theorem Answers.initial (h : Initial w s) : Answers w s := by
  intro i
  refine ⟨⟨[], []⟩, ?_, ?_⟩
  · rw [h.store i]
    exact ⟨List.Perm.refl _, List.nodup_nil, fun r => iff_of_false List.not_mem_nil nofun⟩
  · rw [h.handler i, h.store i]

/-- A handler of a store that has been replaced. -/
theorem Answers.setStore (h : Answers w s) {t : SyncNetwork} {i : InstanceId} {g : GatewayStore}
    {listing : Listing} (hstore : t.store = s.store)
    (hhandler : t.gossip.handler = s.gossip.handler) (hlists : g.Lists listing) : Answers w (t.setStore F w i g listing) := by
  intro j
  show ∃ listing', (Function.update t.store i g j).Lists listing' ∧
    Function.update t.gossip.handler i (g.handler w listing) j =
      (Function.update t.store i g j).handler w listing'
  rw [Function.update_apply, Function.update_apply]
  split
  · exact ⟨listing, hlists, rfl⟩
  · rw [hstore, hhandler]
    exact h j

theorem Answers.step (h : Answers w s) (l : Label) (hg : guard F w l s) :
    Answers w (update F w l s) := by
  cases l with
  | write i op listing => exact h.setStore rfl rfl hg
  | relist i listing => exact h.setStore rfl rfl hg
  | engine l =>
    intro i
    have hhandler : (GossipNetwork.update F l s.gossip).handler = s.gossip.handler := by
      apply GossipNetwork.handler_update
      rintro j handler rfl
      exact hg.1
    show ∃ listing, (s.store i).Lists listing ∧
      (GossipNetwork.update F l s.gossip).handler i = (s.store i).handler w listing
    rw [hhandler]
    exact h i
  | deliver i n now listing =>
    refine h.setStore rfl ?_ hg.2
    exact GossipNetwork.handler_update (l := .deliver i n now) nofun

/-- The step that the engines take. -/
def Label.engineStep : Label → Option GossipNetwork.Label
  | .engine l => some l
  | .deliver i n now _ => some (.deliver i n now)
  | .write _ _ _ | .relist _ _ => none

/-- What is on its way after a step. -/
theorem packet_step {l : Label} {p : Packet} (hp : p ∈ (update F w l s).gossip.net) :
    p ∈ s.gossip.net ∨ ∃ l', l.engineStep = some l' ∧ GossipNetwork.Fresh s.gossip l' p.msg := by
  cases l with
  | write | relist => exact .inl hp
  | engine l => exact (GossipNetwork.fresh_of_mem hp).imp_right fun h => ⟨l, rfl, h⟩
  | deliver i n now listing =>
    have hp : p ∈ (GossipNetwork.update F (.deliver i n now) s.gossip).net := hp
    exact (GossipNetwork.fresh_of_mem hp).imp_right fun h => ⟨_, rfl, h⟩

/-- What is delivered was on its way. -/
theorem mem_callsAt {i : InstanceId} {n now : Nat} {call : HandlerCall}
    (h : call ∈ s.callsAt F i n now) :
    ∃ p ∈ s.gossip.net, call ∈ GossipedState.callsOf p.msg := by
  unfold callsAt at h
  cases hp : s.gossip.net[n]? with
  | none =>
    rw [hp] at h
    exact nomatch h
  | some p =>
    simp only [hp, GossipNetwork.receive, GossipedState.receive_calls] at h
    exact ⟨p, List.mem_of_getElem? hp, h⟩

/-- Backends are registered under names that can be read. -/
def ReadableWrites (_ : SyncNetwork) : Label → Prop
  | .write _ op _ => GatewayStore.WriteReadable op
  | _ => True

/-- The handlers answer out of the stores, and what the stores tell can be attributed. -/
structure WellKept (w : Wire) (s : SyncNetwork) : Prop where
  answers : Answers w s
  filed : ∀ i, (s.store i).Filed

theorem WellKept.initial (h : Initial w s) : WellKept w s where
  answers := .initial h
  filed i := by
    rw [h.store i]
    exact .new

theorem WellKept.step (h : WellKept w s) (l : Label) (hg : guard F w l s)
    (hl : ReadableWrites s l) : WellKept w (update F w l s) where
  answers := h.answers.step l hg
  filed i := by
    have hstored := store_step (F := F) (w := w) s l i
    generalize (update F w l s).store i = g at hstored
    cases hstored with
    | same => exact h.filed i
    | written op listing => exact (h.filed i).write hl
    | received n now listing => exact (h.filed i).handleAll _ _ _

theorem wellKept_reachable (hs : ((system F w).restrict ReadableWrites).Reachable s) :
    WellKept w s := by
  refine Lts.invariant (P := WellKept w) ?_ ?_ s hs
  · exact fun s h => .initial h
  · exact fun s l h hg => h.step l hg.1 hg.2

/-! ### A gateway with a backend, and another one that joins it -/

/-- A Region without coordinates in JSON. -/
def regionJson (info : RegionInfo) : Json :=
  let tier := match info.tier with
    | .cloud => "cloud"
    | .edge => "edge"
    | .device => "device"
  .object [("id", .string info.id.str), ("tier", .string tier), ("geo", .null),
    ("network_zone", .string info.networkZone), ("endpoints", .array (info.endpoints.map .string))]

/-- The metrics of no backends as they are sent. -/
def emptyText : String := "AA=="

/-- A wire that carries nothing, or the metrics of one backend. -/
def oneBackend : Wire where
  decodeLoad data :=
    if data = emptyText then some []
    else if data = GossipedState.firstText then some [("east/b", GossipedState.metricsAt 1)]
    else none
  encodeLoad entries :=
    if entries = [] then emptyText
    else if entries = [("east/b", GossipedState.metricsAt 1)] then GossipedState.firstText
    else ""
  decodeRegion _ := none
  encodeRegion := regionJson

theorem sound_oneBackend : oneBackend.Sound where
  load entries entries' h := by
    by_cases hnil : entries = []
    · subst hnil
      have h : some [] = some entries' := h
      exact (Option.some.inj h).symm
    · by_cases hone : entries = [("east/b", GossipedState.metricsAt 1)]
      · subst hone
        have h : some [("east/b", GossipedState.metricsAt 1)] = some entries' := h
        exact (Option.some.inj h).symm
      · have hencode : oneBackend.encodeLoad entries = "" := (if_neg hnil).trans (if_neg hone)
        have hnone : oneBackend.decodeLoad "" = none := by decide
        rw [hencode, hnone] at h
        exact nomatch h
  region info info' h := nomatch h

/-- The backend. -/
def backend : BackendInfo := ⟨⟨⟨"east"⟩, ⟨"b"⟩⟩, [], ⟨"east"⟩, ⟨0⟩⟩

/-- Before anything has happened. -/
def start : SyncNetwork where
  store _ := .new
  gossip :=
    { GossipNetwork.new with handler := fun _ => GatewayStore.new.handler oneBackend ⟨[], []⟩ }
  writes _ := []

/-- The first gateway registers the backend and measures it, both engines start, and the second
one meets the first. -/
def joined : List Label :=
  [.write ⟨"a"⟩ (.registry (.register backend)) ⟨[backend], []⟩,
    .write ⟨"a"⟩ (.loadUpdate backend.id (GossipedState.metricsAt 1)) ⟨[backend], []⟩,
    .engine (.start ⟨"a"⟩ 0), .engine (.start ⟨"b"⟩ 0),
    .engine (.meet ⟨"b"⟩ "10.0.0.1:7946"), .deliver ⟨"a"⟩ 0 1 ⟨[backend], []⟩]

/-- The store of the first gateway. -/
def measured : GatewayStore :=
  (GatewayStore.new.write (.registry (.register backend))).write
    (.loadUpdate backend.id (GossipedState.metricsAt 1))

theorem lists_measured : measured.Lists ⟨[backend], []⟩ :=
  ⟨List.Perm.refl _, List.nodup_nil, fun _ => iff_of_false List.not_mem_nil Bool.false_ne_true⟩

abbrev system₂ : Lts SyncNetwork Label := system GossipNetwork.twoRegions oneBackend

theorem enabled_joined : system₂.Enabled start joined := by
  refine ⟨?_, ?_, ⟨trivial, by decide +kernel⟩, ⟨trivial, by decide +kernel⟩,
    ⟨trivial, by decide +kernel⟩, ⟨by decide +kernel, ?_⟩, trivial⟩
  · exact ⟨List.Perm.refl _, List.nodup_nil,
      fun _ => iff_of_false List.not_mem_nil Bool.false_ne_true⟩
  · exact lists_measured
  · exact lists_measured

theorem readable_joined : (system₂.restrict ReadableWrites).Enabled start joined := by
  refine Lts.enabled_restrict.2 ⟨enabled_joined, ?_, trivial, trivial, trivial, trivial, trivial,
    trivial⟩
  exact ⟨⟨by decide, by decide⟩, by decide⟩

theorem initial_start : Initial oneBackend start where
  store _ := rfl
  gossip := ⟨fun _ => rfl, fun _ => rfl, fun _ => rfl, fun _ => rfl, rfl⟩
  handler _ := rfl
  writes _ := rfl

/-- The first gateway knows the second one from its `Meet`. -/
theorem known_joined : (((system₂.run start joined).gossip.members ⟨"a"⟩).get ⟨"b"⟩) =
    some ⟨⟨"b"⟩, ⟨"r2"⟩, "10.0.0.2:7946", 1, .alive, .default⟩ := by
  decide +kernel

theorem reachable_joined :
    (system₂.restrict ReadableWrites).Reachable (system₂.run start joined) :=
  .run (.init initial_start) readable_joined

end SyncNetwork

end HierKvGateway
