import HierKvGateway.Cluster.Gossip
import HierKvGateway.Lib.Program

/-!
# Cluster.Dispatch — the two message dispatchers

`handle_message` is the method that tests call, `dispatch_message` the function that
the message loop runs; the source writes the dispatch out in both (`gossip.rs`). Here
each is a program over what they call: the member list, the clock, the handler and
the transport, any of which may answer anything and may be used by other tasks in
between.

The programs run against a member list that only they use, with a handler that
answers alike and a transport that does not fail, are the step of `Cluster.Gossip`
(`exec_dispatchMessage`).
-/

namespace HierKvGateway

/-- What the dispatchers call. -/
inductive GossipCall where
  | membersGet (instanceId : InstanceId)
  | membersUpsert (member : ClusterMember)
  | allMembers
  | nowUnixMillis
  | currentMetaDigest
  | handleSyncRequest (keys : List String)
  | handler (call : HandlerCall)
  | send (addr : String) (msg : GossipMessage)
  | broadcast (msg : GossipMessage)
  | warn (error text : String)

/-- What is answered; a failed transmission has the text of its error. -/
def GossipCall.Answer : GossipCall → Type
  | membersGet _ => Option ClusterMember
  | membersUpsert _ => Unit
  | allMembers => List ClusterMember
  | nowUnixMillis => Nat
  | currentMetaDigest => MetaDigest
  | handleSyncRequest _ => List MetaEntry
  | handler _ => Unit
  | send _ _ => Except String Unit
  | broadcast _ => Except String Unit
  | warn _ _ => Unit

/-- Everything around a gossip engine. -/
def gossipInterface : Interface := ⟨GossipCall, GossipCall.Answer⟩

/-- A program of the gossip engine. -/
abbrev GossipProgram (α : Type) := Program gossipInterface α

namespace GossipProgram

/-! ## The calls -/

def membersGet (instanceId : InstanceId) : GossipProgram (Option ClusterMember) :=
  Program.perform (I := gossipInterface) (.membersGet instanceId)

def membersUpsert (member : ClusterMember) : GossipProgram Unit :=
  Program.perform (I := gossipInterface) (.membersUpsert member)

def allMembers : GossipProgram (List ClusterMember) :=
  Program.perform (I := gossipInterface) .allMembers

def nowUnixMillis : GossipProgram Nat := Program.perform (I := gossipInterface) .nowUnixMillis

def currentMetaDigest : GossipProgram MetaDigest :=
  Program.perform (I := gossipInterface) .currentMetaDigest

def handleSyncRequest (keys : List String) : GossipProgram (List MetaEntry) :=
  Program.perform (I := gossipInterface) (.handleSyncRequest keys)

def handler (call : HandlerCall) : GossipProgram Unit :=
  Program.perform (I := gossipInterface) (.handler call)

def send (addr : String) (msg : GossipMessage) : GossipProgram (Except String Unit) :=
  Program.perform (I := gossipInterface) (.send addr msg)

def broadcast (msg : GossipMessage) : GossipProgram (Except String Unit) :=
  Program.perform (I := gossipInterface) (.broadcast msg)

def warn (error text : String) : GossipProgram Unit :=
  Program.perform (I := gossipInterface) (.warn error text)

/-- Log a failed transmission. -/
def warnOnError (text : String) : Except String Unit → GossipProgram Unit
  | .error e => warn e text
  | .ok () => pure ()

/-! ## The two dispatchers -/

/-- Add an instance to the member list, or update its record (`ensure_member`). -/
def ensureMember (instanceId : InstanceId) (region : RegionId) (addr : Option String)
    (digest : MetaDigest) : GossipProgram Unit := do
  match ← membersGet instanceId with
  | some existing =>
    let newAddr := addr.getD existing.addr
    let now ← nowUnixMillis
    membersUpsert
      { instanceId := instanceId
        region := region
        addr := newAddr
        lastPongUnix := now
        status := .alive
        metaDigest := digest }
  | none =>
    let addr := addr.getD ""
    let now ← nowUnixMillis
    membersUpsert (.new instanceId region addr digest now)

/-- `GossipEngine::handle_message`. -/
def handleMessage (e : GossipEngine) : GossipMessage → GossipProgram Unit
  | .ping sender region metaDigest _ => do
    ensureMember sender region none metaDigest
    let digest ← currentMetaDigest
    let timestamp ← nowUnixMillis
    let pong := .pong e.selfId e.selfRegion digest timestamp
    match ← membersGet sender with
    | some member =>
      let sent ← send member.addr pong
      warnOnError "Failed to reply Pong" sent
    | none => pure ()
  | .pong sender region metaDigest _ => ensureMember sender region none metaDigest
  | .meet sender region addr => do
    let own ← currentMetaDigest
    ensureMember sender region (some addr) own
    let digest ← currentMetaDigest
    let timestamp ← nowUnixMillis
    let pong := .pong e.selfId e.selfRegion digest timestamp
    let sent ← send addr pong
    warnOnError "Failed to reply Pong for Meet" sent
    -- propagate the new member
    let digest ← currentMetaDigest
    let timestamp ← nowUnixMillis
    let ping := .ping e.selfId e.selfRegion digest timestamp
    let sent ← broadcast ping
    warnOnError "Failed to broadcast Ping after Meet" sent
  | .syncRequest sender keys => do
    let entries ← handleSyncRequest keys
    let response := .syncResponse entries
    match (← allMembers).find? (·.instanceId = sender) with
    | some member =>
      let sent ← send member.addr response
      warnOnError "Failed to reply SyncResponse" sent
    | none =>
      let sent ← broadcast response
      warnOnError "Failed to broadcast SyncResponse" sent
  | .syncResponse entries => handler (.applySyncResponse entries)
  | .metricsBroadcast region payload => handler (.handleMetricsBroadcast region payload)
  | .ckf (.ckfBarrierSnapshot pool sequence buckets numBuckets) =>
    handler (.handleCkf (.ckfBarrierSnapshot pool sequence buckets numBuckets))
  | .ckf (.ckfDelta pool sequence prevSequence dirtyBuckets) =>
    handler (.handleCkf (.ckfDelta pool sequence prevSequence dirtyBuckets))
  | .topologyUpdate source target estimate => handler (.handleTopologyUpdate source target estimate)
  | .sessionAffinityBroadcast session backendRegion backendInstance =>
    handler (.handleSessionAffinity session backendRegion backendInstance)

/-- `dispatch_message`; the address is not used. -/
def dispatchMessage (selfId : InstanceId) (selfRegion : RegionId) (_selfAddr : String) :
    GossipMessage → GossipProgram Unit
  | .ping sender region metaDigest _ => do
    ensureMember sender region none metaDigest
    let digest ← currentMetaDigest
    let timestamp ← nowUnixMillis
    let pong := .pong selfId selfRegion digest timestamp
    match ← membersGet sender with
    | some member =>
      let sent ← send member.addr pong
      warnOnError "Failed to reply Pong" sent
    | none => pure ()
  | .pong sender region metaDigest _ => ensureMember sender region none metaDigest
  | .meet sender region addr => do
    let own ← currentMetaDigest
    ensureMember sender region (some addr) own
    let digest ← currentMetaDigest
    let timestamp ← nowUnixMillis
    let pong := .pong selfId selfRegion digest timestamp
    let sent ← send addr pong
    warnOnError "Failed to reply Pong for Meet" sent
    -- propagate the new member
    let digest ← currentMetaDigest
    let timestamp ← nowUnixMillis
    let ping := .ping selfId selfRegion digest timestamp
    let sent ← broadcast ping
    warnOnError "Failed to broadcast Ping after Meet" sent
  | .syncRequest sender keys => do
    let entries ← handleSyncRequest keys
    let response := .syncResponse entries
    match (← allMembers).find? (·.instanceId = sender) with
    | some member =>
      let sent ← send member.addr response
      warnOnError "Failed to reply SyncResponse" sent
    | none =>
      let sent ← broadcast response
      warnOnError "Failed to broadcast SyncResponse" sent
  | .syncResponse entries => handler (.applySyncResponse entries)
  | .metricsBroadcast region payload => handler (.handleMetricsBroadcast region payload)
  | .ckf (.ckfBarrierSnapshot pool sequence buckets numBuckets) =>
    handler (.handleCkf (.ckfBarrierSnapshot pool sequence buckets numBuckets))
  | .ckf (.ckfDelta pool sequence prevSequence dirtyBuckets) =>
    handler (.handleCkf (.ckfDelta pool sequence prevSequence dirtyBuckets))
  | .topologyUpdate source target estimate => handler (.handleTopologyUpdate source target estimate)
  | .sessionAffinityBroadcast session backendRegion backendInstance =>
    handler (.handleSessionAffinity session backendRegion backendInstance)

/-- The two dispatchers are the same program, variant by variant. -/
theorem handleMessage_eq_dispatchMessage (e : GossipEngine) (msg : GossipMessage) :
    handleMessage e msg = dispatchMessage e.selfId e.selfRegion e.selfAddr msg := by
  cases msg with
  | ping sender region metaDigest timestamp => rfl
  | pong sender region metaDigest timestamp => rfl
  | meet sender region addr => rfl
  | syncRequest sender keys => rfl
  | syncResponse entries => rfl
  | ckf message =>
    cases message with
    | ckfBarrierSnapshot pool sequence buckets numBuckets => rfl
    | ckfDelta pool sequence prevSequence dirtyBuckets => rfl
  | metricsBroadcast region payload => rfl
  | topologyUpdate source target estimate => rfl
  | sessionAffinityBroadcast session backendRegion backendInstance => rfl

/-! ## What others see of a run -/

/-- The calls of a run, in order. -/
def calls (events : List (Program.Event gossipInterface)) : List GossipCall := events.map Sigma.fst

/-- The call changes the member list. -/
def isMemberUpdate : GossipCall → Bool
  | .membersUpsert _ => true
  | _ => false

/-- The call goes to the handler. -/
def isHandlerCall : GossipCall → Bool
  | .currentMetaDigest | .handleSyncRequest _ | .handler _ => true
  | _ => false

/-- The call goes to the transport. -/
def isTransmission : GossipCall → Bool
  | .send _ _ | .broadcast _ => true
  | _ => false

/-- Two runs make the same member-list updates, handler calls and transmissions, with
the same contents and in the same order, and leave everything around them alike. -/
structure SameRun {σ : Type} (r r' : Program.Ended gossipInterface Unit σ) : Prop where
  memberUpdates : (calls r.events).filter isMemberUpdate = (calls r'.events).filter isMemberUpdate
  handlerCalls : (calls r.events).filter isHandlerCall = (calls r'.events).filter isHandlerCall
  transmissions :
    (calls r.events).filter isTransmission = (calls r'.events).filter isTransmission
  state : r.state = r'.state

/-- Whatever the member list, the handler and the transport do, both dispatchers do
the same. -/
theorem dispatchers_agree {σ : Type} (env : Program.Environment gossipInterface σ) (s : σ)
    (e : GossipEngine) (msg : GossipMessage) :
    SameRun ((handleMessage e msg).run env s)
      ((dispatchMessage e.selfId e.selfRegion e.selfAddr msg).run env s) := by
  rw [handleMessage_eq_dispatchMessage]
  exact ⟨rfl, rfl, rfl, rfl⟩

/-! ## The step of the engine -/

/-- A member list of our own, a fixed time, a handler that answers alike and a
transport that does not fail. -/
def undisturbed (e : GossipEngine) (h : GossipHandler) (now : Nat) :
    Program.Environment gossipInterface GossipEngine.Dispatched where
  answer
    | .membersGet i, s => (s.members.get i, s)
    | .membersUpsert m, s => ((), { s with members := s.members.upsert m })
    | .allMembers, s => (s.members.allMembers, s)
    | .nowUnixMillis, s => (now, s)
    | .currentMetaDigest, s => (h.currentMetaDigest, s)
    | .handleSyncRequest keys, s => (h.handleSyncRequest keys, s)
    | .handler call, s => ((), { s with calls := s.calls ++ [call] })
    | .send addr msg, s => (.ok (), { s with sends := s.sends ++ [⟨addr, msg⟩] })
    | .broadcast msg, s => (.ok (), { s with sends := s.sends ++ e.broadcast s.members msg })
    | .warn _ _, s => ((), s)

section Undisturbed

variable {e : GossipEngine} {h : GossipHandler} {now : Nat} {s : GossipEngine.Dispatched}

theorem exec_nowUnixMillis : nowUnixMillis.exec (undisturbed e h now) s = s := rfl

theorem exec_currentMetaDigest : currentMetaDigest.exec (undisturbed e h now) s = s := rfl

theorem result_membersGet (i : InstanceId) :
    ((membersGet i).run (undisturbed e h now) s).result = s.members.get i := rfl

theorem result_allMembers :
    (allMembers.run (undisturbed e h now) s).result = s.members.allMembers := rfl

theorem exec_ensureMember (i : InstanceId) (region : RegionId) (addr : Option String)
    (digest : MetaDigest) :
    (ensureMember i region addr digest).exec (undisturbed e h now) s =
      { s with members := s.members.ensureMember i region addr digest now } := by
  rw [ensureMember, Program.exec_bind, MemberList.ensureMember, result_membersGet]
  cases s.members.get i with
  | some existing => rfl
  | none => rfl

/-- Undisturbed, the dispatcher is the step of the engine. -/
theorem exec_dispatchMessage (l : MemberList) (msg : GossipMessage) :
    (dispatchMessage e.selfId e.selfRegion e.selfAddr msg).exec (undisturbed e h now) ⟨l, [], []⟩ =
      e.dispatchMessage h l now msg := by
  cases msg with
  | ping sender region metaDigest timestamp =>
    -- the sender is looked up in the list with its new record
    rw [dispatchMessage, Program.exec_bind, exec_ensureMember, Program.exec_bind,
      Program.exec_bind, Program.exec_bind, exec_currentMetaDigest, exec_nowUnixMillis,
      result_membersGet, GossipEngine.dispatchMessage]
    dsimp only
    cases (l.ensureMember sender region none metaDigest now).get sender with
    | some member => rfl
    | none => rfl
  | pong sender region metaDigest timestamp => exact exec_ensureMember sender region none metaDigest
  | meet sender region addr =>
    rw [dispatchMessage, Program.exec_bind, Program.exec_bind, exec_ensureMember]
    rfl
  | syncRequest sender keys =>
    rw [dispatchMessage, Program.exec_bind, Program.exec_bind, result_allMembers,
      GossipEngine.dispatchMessage]
    have hlist : ((handleSyncRequest keys).exec (undisturbed e h now) ⟨l, [], []⟩).members.allMembers =
        l.allMembers := rfl
    rw [hlist]
    cases l.allMembers.find? (·.instanceId = sender) with
    | some member => rfl
    | none => rfl
  | ckf message =>
    cases message with
    | ckfBarrierSnapshot pool sequence buckets numBuckets => rfl
    | ckfDelta pool sequence prevSequence dirtyBuckets => rfl
  | syncResponse | metricsBroadcast | topologyUpdate | sessionAffinityBroadcast => rfl

/-- And so is the method. -/
theorem exec_handleMessage (l : MemberList) (msg : GossipMessage) :
    (handleMessage e msg).exec (undisturbed e h now) ⟨l, [], []⟩ = e.dispatchMessage h l now msg := by
  rw [handleMessage_eq_dispatchMessage, exec_dispatchMessage]

end Undisturbed

end GossipProgram

end HierKvGateway
