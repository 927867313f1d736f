import HierKvGateway.Cluster.Member

/-!
# Cluster.Gossip — the gossip engine

One engine runs per gateway instance (`gossip.rs`). Its member list changes when

* a message names its sender: the sender is alive, under the Region, the digest
  and, if the message has one, the address of the message (`ensureMember`);
* a probe scan finds that a member has been silent for too long (`probeScan`).

Messages leave the engine in reply to a message (`dispatchMessage`) and when a
gossip tick pings some of the alive members (`pings`).
-/

namespace HierKvGateway

/-- The fields of the cluster configuration the engine reads. -/
structure ClusterConfig where
  gossipFanout : Nat
  probeTimeoutMs : Nat
  suspectTimeoutSecs : Nat
deriving DecidableEq, Repr

/-- What is fixed when an engine is created. -/
structure GossipEngine where
  selfId : InstanceId
  selfRegion : RegionId
  /-- The address it binds, and advertises in `Meet`. -/
  selfAddr : String
  config : ClusterConfig
deriving DecidableEq, Repr

/-- What the engine asks its handler for, as answered at one moment. -/
structure GossipHandler where
  currentMetaDigest : MetaDigest
  handleSyncRequest : List String → List MetaEntry

/-- What the engine hands on to its handler. -/
inductive HandlerCall where
  | applySyncResponse (entries : List MetaEntry)
  | handleMetricsBroadcast (region : RegionId) (payload : LoadPayload)
  | handleCkf (message : ClusterMessage)
  | handleTopologyUpdate (source target : RegionId) (estimate : LatencyEstimate)
  | handleSessionAffinity (session : SessionId) (backendRegion : RegionId)
      (backendInstance : String)

namespace MemberList

/-- Record that an instance has been heard of (`ensure_member`). -/
def ensureMember (l : MemberList) (instanceId : InstanceId) (region : RegionId)
    (addr : Option String) (digest : MetaDigest) (now : Nat) : MemberList :=
  match l.get instanceId with
  | some existing =>
    l.upsert
      { instanceId := instanceId
        region := region
        addr := addr.getD existing.addr
        lastPongUnix := now
        status := .alive
        metaDigest := digest }
  | none =>
    -- without an address the new member gets the empty one
    l.upsert (.new instanceId region (addr.getD "") digest now)

/-- The address an instance is recorded with, the empty one if it is unknown. -/
def addrOf (l : MemberList) (i : InstanceId) : String := ((l.get i).map (·.addr)).getD ""

/-- The record `ensureMember` leaves. -/
def ensured (l : MemberList) (instanceId : InstanceId) (region : RegionId) (addr : Option String)
    (digest : MetaDigest) (now : Nat) : ClusterMember where
  instanceId := instanceId
  region := region
  addr := addr.getD (l.addrOf instanceId)
  lastPongUnix := now
  status := .alive
  metaDigest := digest

theorem ensureMember_eq (l : MemberList) (i : InstanceId) (region : RegionId)
    (addr : Option String) (digest : MetaDigest) (now : Nat) :
    l.ensureMember i region addr digest now = l.upsert (l.ensured i region addr digest now) := by
  rw [ensureMember, ensured, addrOf]
  cases l.get i with
  | none => rfl
  | some existing => rfl

end MemberList

namespace GossipEngine

/-- The targets of a broadcast: everyone thought to be alive, except ourselves
(`TcpClusterTransport::broadcast`). -/
def broadcast (e : GossipEngine) (l : MemberList) (msg : GossipMessage) : List Packet :=
  (l.aliveMembers.filter (·.instanceId ≠ e.selfId)).map fun m => ⟨m.addr, msg⟩

/-- What handling a message leads to. -/
structure Dispatched where
  members : MemberList
  sends : List Packet
  calls : List HandlerCall

/-- Handle a message (`dispatch_message`). -/
def dispatchMessage (e : GossipEngine) (h : GossipHandler) (l : MemberList) (now : Nat) :
    GossipMessage → Dispatched
  | .ping sender region metaDigest _ =>
    let l' := l.ensureMember sender region none metaDigest now
    let pong := .pong e.selfId e.selfRegion h.currentMetaDigest now
    match l'.get sender with
    | some member => ⟨l', [⟨member.addr, pong⟩], []⟩
    | none => ⟨l', [], []⟩
  | .pong sender region metaDigest _ => ⟨l.ensureMember sender region none metaDigest now, [], []⟩
  | .meet sender region addr =>
    -- the digest filed for the newcomer is the receiver's
    let l' := l.ensureMember sender region (some addr) h.currentMetaDigest now
    let pong := .pong e.selfId e.selfRegion h.currentMetaDigest now
    let ping := .ping e.selfId e.selfRegion h.currentMetaDigest now
    ⟨l', ⟨addr, pong⟩ :: e.broadcast l' ping, []⟩
  | .syncRequest sender keys =>
    let response := .syncResponse (h.handleSyncRequest keys)
    match l.allMembers.find? (·.instanceId = sender) with
    | some member => ⟨l, [⟨member.addr, response⟩], []⟩
    | none => ⟨l, e.broadcast l response, []⟩
  | .syncResponse entries => ⟨l, [], [.applySyncResponse entries]⟩
  | .ckf message => ⟨l, [], [.handleCkf message]⟩
  | .metricsBroadcast region payload => ⟨l, [], [.handleMetricsBroadcast region payload]⟩
  | .topologyUpdate source target estimate =>
    ⟨l, [], [.handleTopologyUpdate source target estimate]⟩
  | .sessionAffinityBroadcast session backendRegion backendInstance =>
    ⟨l, [], [.handleSessionAffinity session backendRegion backendInstance]⟩

/-- One turn of `message_loop`: our own messages are ignored. -/
def receive (e : GossipEngine) (h : GossipHandler) (l : MemberList) (now : Nat)
    (msg : GossipMessage) : Dispatched :=
  if msg.senderIsSelf e.selfId then ⟨l, [], []⟩ else e.dispatchMessage h l now msg

/-- The members a gossip tick may ping. -/
def candidates (e : GossipEngine) (l : MemberList) : List ClusterMember :=
  l.aliveMembers.filter (·.instanceId ≠ e.selfId)

/-- How many members a gossip tick pings at most. -/
def fanout (e : GossipEngine) : Nat := max e.config.gossipFanout 3

/-- One tick of `gossip_loop`, the candidates being shuffled into some order. The
region of a ping is that of the member it goes to. -/
def pings (e : GossipEngine) (h : GossipHandler) (chosen : List ClusterMember) (now : Nat) :
    List Packet :=
  (chosen.take e.fanout).map fun member =>
    ⟨member.addr, .ping e.selfId member.region h.currentMetaDigest now⟩

/-- The largest `u64`. -/
def u64Max : Nat := 2 ^ 64 - 1

/-- The suspect timeout in milliseconds (`saturating_mul`). -/
def suspectTimeoutMs (c : ClusterConfig) : Nat := min (c.suspectTimeoutSecs * 1000) u64Max

/-- What the probe loop makes of a member, going by the record it has read. -/
def verdict (c : ClusterConfig) (now : Nat) (m : ClusterMember) : MemberStatus :=
  match m.status with
  | .alive => if m.lastPongUnix < now - c.probeTimeoutMs then .suspect else .alive
  | .suspect => if m.lastPongUnix < now - suspectTimeoutMs c then .dead else .suspect
  | .dead => .dead

/-- One turn of the inner loop of `probe_loop`: `member` is the record that was
read, `l` the list as it is now. -/
def probeMember (e : GossipEngine) (now : Nat) (l : MemberList) (member : ClusterMember) :
    MemberList :=
  if member.instanceId = e.selfId then l
  else
    match member.status with
    | .alive =>
      if member.lastPongUnix < now - e.config.probeTimeoutMs then l.markSuspect member.instanceId
      else l
    | .suspect =>
      if member.lastPongUnix < now - suspectTimeoutMs e.config then l.markDead member.instanceId
      else l
    | .dead => l

/-- One tick of `probe_loop`, undisturbed. -/
def probeScan (e : GossipEngine) (now : Nat) (l : MemberList) : MemberList :=
  l.allMembers.foldl (e.probeMember now) l

end GossipEngine

/-! ## What a message tells about its sender -/

/-- A sender as its message presents it. -/
structure Contact where
  sender : InstanceId
  region : RegionId
  addr : Option String
  digest : MetaDigest

/-- The contact of a message, read by an instance with the digest `own`. -/
def GossipMessage.contact (own : MetaDigest) : GossipMessage → Option Contact
  | .ping sender region metaDigest _ => some ⟨sender, region, none, metaDigest⟩
  | .pong sender region metaDigest _ => some ⟨sender, region, none, metaDigest⟩
  | .meet sender region addr => some ⟨sender, region, some addr, own⟩
  | _ => none

/-- Who a ping, pong or meet is from. -/
def GossipMessage.contactSender (msg : GossipMessage) : Option InstanceId :=
  (msg.contact .default).map (·.sender)

theorem GossipMessage.contactSender_of_contact {msg : GossipMessage} {own : MetaDigest}
    {c : Contact} (hc : msg.contact own = some c) : msg.contactSender = some c.sender := by
  cases msg with
  | ping | pong | meet =>
    rcases hc with ⟨⟩
    rfl
  | syncRequest | syncResponse | ckf | metricsBroadcast | topologyUpdate
  | sessionAffinityBroadcast => exact nomatch hc

theorem GossipMessage.exists_contact {msg : GossipMessage} {i : InstanceId}
    (h : msg.contactSender = some i) (own : MetaDigest) :
    ∃ c, msg.contact own = some c ∧ c.sender = i := by
  cases msg with
  | ping | pong | meet =>
    rcases h with ⟨⟩
    exact ⟨_, rfl, rfl⟩
  | syncRequest | syncResponse | ckf | metricsBroadcast | topologyUpdate
  | sessionAffinityBroadcast => exact nomatch h

/-- The record `c` leaves in the list. -/
abbrev MemberList.heard (l : MemberList) (c : Contact) (now : Nat) : ClusterMember :=
  l.ensured c.sender c.region c.addr c.digest now

theorem MemberList.get_upsert_heard (l : MemberList) (c : Contact) (now : Nat) :
    (l.upsert (l.heard c now)).get c.sender = some (l.heard c now) :=
  get_upsert_self l (l.heard c now)

namespace GossipEngine

section Receive

variable {e : GossipEngine} {h : GossipHandler} {l : MemberList} {now : Nat}
  {msg : GossipMessage} {c : Contact}

theorem senderIsSelf_of_contact (hc : msg.contact h.currentMetaDigest = some c) (i : InstanceId) :
    msg.senderIsSelf i = decide (c.sender = i) := by
  cases msg with
  | ping | pong | meet =>
    rcases hc with ⟨⟩
    rfl
  | syncRequest | syncResponse | ckf | metricsBroadcast | topologyUpdate
  | sessionAffinityBroadcast => exact nomatch hc

/-- A contact other than ourselves is recorded. -/
theorem receive_members (hc : msg.contact h.currentMetaDigest = some c) (hne : c.sender ≠ e.selfId) :
    (e.receive h l now msg).members = l.upsert (l.heard c now) := by
  rw [receive, senderIsSelf_of_contact hc, decide_eq_false hne, MemberList.heard,
    ← MemberList.ensureMember_eq]
  cases msg with
  | ping sender region metaDigest timestamp =>
    rcases hc with ⟨⟩
    simp only [Bool.false_eq_true, if_false, dispatchMessage]
    split
    · rfl
    · rfl
  | pong | meet =>
    rcases hc with ⟨⟩
    rfl
  | syncRequest | syncResponse | ckf | metricsBroadcast | topologyUpdate
  | sessionAffinityBroadcast => exact nomatch hc

/-- Every other message leaves the list alone. -/
theorem receive_members_same
    (hc : ∀ c, msg.contact h.currentMetaDigest = some c → c.sender = e.selfId) :
    (e.receive h l now msg).members = l := by
  rw [receive]
  split
  · rfl
  · next hself =>
    cases msg with
    | ping | pong | meet => exact absurd (decide_eq_true (hc _ rfl)) hself
    | syncRequest sender keys =>
      rw [dispatchMessage]
      split
      · rfl
      · rfl
    | syncResponse | ckf | metricsBroadcast | topologyUpdate | sessionAffinityBroadcast => rfl

/-- The instance a message is heard from, if it is another one. -/
def hears (e : GossipEngine) (msg : GossipMessage) : Option InstanceId :=
  msg.contactSender.filter (· ≠ e.selfId)

/-- A message records its sender, or changes nothing. -/
theorem receive_members_cases (e : GossipEngine) (h : GossipHandler) (l : MemberList) (now : Nat)
    (msg : GossipMessage) :
    (e.receive h l now msg).members = l ∨ ∃ c, msg.contact h.currentMetaDigest = some c ∧
      c.sender ≠ e.selfId ∧ (e.receive h l now msg).members = l.upsert (l.heard c now) := by
  by_cases hc : ∀ c, msg.contact h.currentMetaDigest = some c → c.sender = e.selfId
  · exact .inl (receive_members_same hc)
  · push Not at hc
    rcases hc with ⟨c, hc, hne⟩
    exact .inr ⟨c, hc, hne, receive_members hc hne⟩

theorem receive_of_hears_none (hn : e.hears msg = none) :
    (e.receive h l now msg).members = l := by
  apply receive_members_same
  intro c hc
  rw [hears, GossipMessage.contactSender_of_contact hc, Option.filter_eq_none_iff] at hn
  simpa using hn c.sender rfl

theorem receive_of_hears {X : InstanceId} (hX : e.hears msg = some X) :
    X ≠ e.selfId ∧ ∃ c, c.sender = X ∧ (e.receive h l now msg).members = l.upsert (l.heard c now) := by
  rw [hears, Option.filter_eq_some_iff] at hX
  rcases hX with ⟨hsender, hne⟩
  rcases GossipMessage.exists_contact hsender h.currentMetaDigest with ⟨c, hc, rfl⟩
  have hne' : c.sender ≠ e.selfId := of_decide_eq_true hne
  exact ⟨hne', c, rfl, receive_members hc hne'⟩

/-- What leaves the engine after a message: a pong to the contact, pings to the
alive members, or an answer to a sync request. -/
inductive Reply (e : GossipEngine) (h : GossipHandler) (l : MemberList) (now : Nat)
    (msg : GossipMessage) : Packet → Prop
  | pong {c m} : msg.contact h.currentMetaDigest = some c → c.sender ≠ e.selfId →
      (l.upsert (l.heard c now)).get c.sender = some m →
      Reply e h l now msg ⟨m.addr, .pong e.selfId e.selfRegion h.currentMetaDigest now⟩
  | ping {c m} : msg.contact h.currentMetaDigest = some c → c.sender ≠ e.selfId →
      m ∈ (l.upsert (l.heard c now)).aliveMembers → m.instanceId ≠ e.selfId →
      Reply e h l now msg ⟨m.addr, .ping e.selfId e.selfRegion h.currentMetaDigest now⟩
  | syncResponse (target entries) : Reply e h l now msg ⟨target, .syncResponse entries⟩

theorem mem_broadcast {msg : GossipMessage} {p : Packet} :
    p ∈ e.broadcast l msg ↔
      ∃ m ∈ l.aliveMembers, m.instanceId ≠ e.selfId ∧ p = ⟨m.addr, msg⟩ := by
  simp only [broadcast, List.mem_map, List.mem_filter, decide_eq_true_eq]
  constructor
  · rintro ⟨m, ⟨hm, hne⟩, rfl⟩
    exact ⟨m, hm, hne, rfl⟩
  · rintro ⟨m, hm, hne, rfl⟩
    exact ⟨m, ⟨hm, hne⟩, rfl⟩

theorem reply_of_mem_sends {p : Packet} (hp : p ∈ (e.receive h l now msg).sends) :
    Reply e h l now msg p := by
  rw [receive] at hp
  split at hp
  · exact nomatch hp
  · next hself =>
    cases msg with
    | ping sender region metaDigest timestamp =>
      have hne : sender ≠ e.selfId := fun h => hself (decide_eq_true h)
      simp only [dispatchMessage, MemberList.ensureMember_eq] at hp
      split at hp
      · next member hm =>
        rcases List.mem_singleton.1 hp with rfl
        exact .pong rfl hne hm
      · exact nomatch hp
    | pong => exact nomatch hp
    | meet sender region addr =>
      have hne : sender ≠ e.selfId := fun h => hself (decide_eq_true h)
      simp only [dispatchMessage, MemberList.ensureMember_eq] at hp
      rcases List.mem_cons.1 hp with rfl | hp
      · -- the pong goes to the address of the message, which is the one now recorded
        exact .pong (c := ⟨sender, region, some addr, h.currentMetaDigest⟩) rfl hne
          (MemberList.get_upsert_heard l _ now)
      · rcases mem_broadcast.1 hp with ⟨m, hm, hself', rfl⟩
        exact .ping (c := ⟨sender, region, some addr, h.currentMetaDigest⟩) rfl hne hm hself'
    | syncRequest sender keys =>
      simp only [dispatchMessage] at hp
      split at hp
      · rcases List.mem_singleton.1 hp with rfl
        exact .syncResponse _ _
      · rcases mem_broadcast.1 hp with ⟨m, _, _, rfl⟩
        exact .syncResponse _ _
    | syncResponse | ckf | metricsBroadcast | topologyUpdate | sessionAffinityBroadcast =>
      exact nomatch hp

end Receive

/-! ## What a probe scan changes -/

section Probe

variable {e : GossipEngine} {now : Nat} {l : MemberList}

/-- A turn of the probe loop gives the member its verdict, if that is news. -/
theorem probeMember_eq (e : GossipEngine) (now : Nat) (l : MemberList) (m : ClusterMember) :
    e.probeMember now l m =
      if m.instanceId = e.selfId ∨ verdict e.config now m = m.status then l
      else l.setStatus (verdict e.config now m) m.instanceId := by
  rw [probeMember]
  by_cases hself : m.instanceId = e.selfId
  · rw [if_pos hself, if_pos (.inl hself)]
  · rw [if_neg hself]
    cases hstatus : m.status with
    | alive =>
      by_cases hold : m.lastPongUnix < now - e.config.probeTimeoutMs
      · simp [verdict, hstatus, hold, hself, MemberList.markSuspect]
      · simp [verdict, hstatus, hold]
    | suspect =>
      by_cases hold : m.lastPongUnix < now - suspectTimeoutMs e.config
      · simp [verdict, hstatus, hold, hself, MemberList.markDead]
      · simp [verdict, hstatus, hold]
    | dead => simp [verdict, hstatus]

/-- Only the living are found alive. -/
theorem verdict_alive {c : ClusterConfig} {m : ClusterMember} (h : verdict c now m = .alive) :
    m.status = .alive := by
  rw [verdict] at h
  cases hstatus : m.status with
  | alive => rfl
  | suspect =>
    simp only [hstatus] at h
    split at h
    · contradiction
    · contradiction
  | dead =>
    simp only [hstatus] at h
    contradiction

/-- The record of a member after a scan that nothing disturbed. -/
def probed (e : GossipEngine) (now : Nat) (m : ClusterMember) : ClusterMember :=
  if m.instanceId = e.selfId then m else { m with status := verdict e.config now m }

theorem get_probeMember {m : ClusterMember} (hm : l.get m.instanceId = some m) (i : InstanceId) :
    (e.probeMember now l m).get i =
      if i = m.instanceId then some (e.probed now m) else l.get i := by
  rw [probeMember_eq, probed]
  by_cases hself : m.instanceId = e.selfId
  · rw [if_pos (.inl hself), if_pos hself]
    split
    · next hi => rw [hi, hm]
    · rfl
  · rw [if_neg hself]
    by_cases hsame : verdict e.config now m = m.status
    · rw [if_pos (.inr hsame), hsame]
      split
      · next hi => rw [hi, hm]
      · rfl
    · -- news: the status is written, and only the status
      rw [if_neg (by tauto), MemberList.get_setStatus]
      split
      · next hi => rw [hi, hm, Option.map_some]
      · rfl

/-- The scan visits each record once, so the turns do not meet. -/
theorem get_foldl_probeMember (ms : List ClusterMember)
    (hms : ∀ m ∈ ms, l.get m.instanceId = some m) (hnodup : (ms.map (·.instanceId)).Nodup)
    (i : InstanceId) :
    (ms.foldl (e.probeMember now) l).get i =
      if i ∈ ms.map (·.instanceId) then (l.get i).map (e.probed now) else l.get i := by
  induction ms generalizing l with
  | nil => rfl
  | cons m ms ih =>
    have hm : l.get m.instanceId = some m := hms m List.mem_cons_self
    rcases List.nodup_cons.1 hnodup with ⟨hnotin, hrest⟩
    -- the records still to come are untouched by this turn
    have hkept : ∀ m' ∈ ms, (e.probeMember now l m).get m'.instanceId = some m' := by
      intro m' hm'
      have hne : m'.instanceId ≠ m.instanceId := by
        intro heq
        exact hnotin (List.mem_map.2 ⟨m', hm', heq⟩)
      rw [get_probeMember hm, if_neg hne]
      exact hms m' (List.mem_cons_of_mem m hm')
    rw [List.foldl_cons, ih hkept hrest, get_probeMember hm, List.map_cons]
    by_cases hi : i = m.instanceId
    · subst hi
      rw [if_neg hnotin, if_pos rfl, if_pos List.mem_cons_self, hm, Option.map_some]
    · rw [if_neg hi]
      simp only [List.mem_cons, hi, false_or]

theorem get_probeScan (e : GossipEngine) (now : Nat) (l : MemberList) (i : InstanceId) :
    (e.probeScan now l).get i = (l.get i).map (e.probed now) := by
  rw [probeScan, get_foldl_probeMember _ (fun m hm => MemberList.mem_allMembers.1 hm)
    l.nodup_allMembers]
  split
  · rfl
  · next hi =>
    cases hm : l.get i with
    | none => rfl
    | some m =>
      have hid := MemberList.instanceId_of_get hm
      subst hid
      exact absurd (List.mem_map_of_mem (MemberList.mem_allMembers.2 hm)) hi

end Probe

end GossipEngine

end HierKvGateway
