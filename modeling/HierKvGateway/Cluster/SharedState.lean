import HierKvGateway.Core.Error
import HierKvGateway.Core.Metrics
import HierKvGateway.Lib.Expiring
import HierKvGateway.Lib.LastWrite

/-!
# Cluster.SharedState — state shared between gateway instances

The operations of a shared state store (`shared_state.rs`) and the store kept in
memory. Each of its maps keeps entries with an expiry in Unix seconds; reads treat
expired entries as missing and remove them.
-/

namespace HierKvGateway

/-- The registration of a gateway instance. -/
structure InstanceEntry where
  instanceId : InstanceId
  region : RegionId
  addr : String
  lastHeartbeatUnix : Nat
deriving DecidableEq, Repr

/-- Where requests with a prefix were dispatched. -/
structure PrefixDispatchEntry where
  backend : BackendId
  dispatchCount : BitVec 64
  lastDispatchedUnix : BitVec 64
deriving DecidableEq, Repr

/-- The operations of a shared state store. -/
inductive SharedOp where
  | registerInstance (entry : InstanceEntry) (ttl : Duration)
  | heartbeat (id : InstanceId) (ttl : Duration)
  | listInstances
  | deregisterInstance (id : InstanceId)
  | sessionSet (session : SessionId) (backend : BackendId) (ttl : Duration)
  | sessionGet (session : SessionId)
  | prefixHistorySet (prefixHash : BitVec 64) (entry : PrefixDispatchEntry) (ttl : Duration)
  | prefixHistoryGet (prefixHash : BitVec 64)
  | tryLock (key holder : String) (ttl : Duration)
  | unlock (key holder : String)
  | metricsGet (backend : BackendId)
  | metricsSet (backend : BackendId) (metrics : BackendMetrics) (ttl : Duration)
  | metricsGetAll

/-- What an operation returns. -/
inductive SharedReply where
  | unit
  | instances (entries : List InstanceEntry)
  | session (backend : Option BackendId)
  | prefixEntry (entry : Option PrefixDispatchEntry)
  | acquired (ok : Bool)
  | metrics (metrics : Option BackendMetrics)
  | allMetrics (metrics : BackendId → Option BackendMetrics)

/-- `Result` of an operation. -/
abbrev SharedResult := Except HierKvGatewayError SharedReply

/-! ## The store kept in memory -/

/-- The store of a single instance. Expiries are Unix seconds. -/
structure LocalSharedState where
  instances : Expiring InstanceId InstanceEntry
  sessions : Expiring SessionId BackendId
  prefixHistory : Expiring (BitVec 64) PrefixDispatchEntry
  /-- The holder of each lock. -/
  locks : Expiring String String
  metrics : Expiring BackendId BackendMetrics

namespace LocalSharedState

/-- `LocalSharedState::new`. -/
def new : LocalSharedState := ⟨∅, ∅, ∅, ∅, ∅⟩

section Entries

variable {κ ν : Type} [DecidableEq κ]

/-- Insert an entry that lives for `ttl` from the second `now` on. -/
def setEntry (now : Nat) (k : κ) (v : ν) (ttl : Duration) (t : Expiring κ ν) : Expiring κ ν :=
  t.put k v (saturatingAdd now ttl.asSecs)

/-- Look an entry up; if it is expired or missing, its key is removed. -/
def getEntry (now : Nat) (k : κ) (t : Expiring κ ν) : Option ν × Expiring κ ν :=
  match t.lookup k with
  | some (v, expiry) => if expiry > now then (some v, t) else (none, t.remove k)
  | none => (none, t.remove k)

theorem getEntry_fst (now : Nat) (k : κ) (t : Expiring κ ν) :
    (getEntry now k t).1 = t.get now k := by
  unfold getEntry Expiring.get
  cases t.lookup k with
  | none => rfl
  | some e =>
    dsimp only
    split
    · rfl
    · rfl

theorem getEntry_snd (now : Nat) (k : κ) (t : Expiring κ ν) :
    (getEntry now k t).2 = if t.get now k = none then t.remove k else t := by
  unfold getEntry Expiring.get
  cases t.lookup k with
  | none => rfl
  | some e =>
    dsimp only
    split
    · rfl
    · rfl

end Entries

/-- `register_instance`: the heartbeat time is that of the registration. -/
def registerInstance (now : Nat) (entry : InstanceEntry) (ttl : Duration)
    (s : LocalSharedState) : LocalSharedState :=
  let stored := { entry with lastHeartbeatUnix := now }
  { s with instances := setEntry now entry.instanceId stored ttl s.instances }

/-- `heartbeat`: nothing if the instance is not in the map. -/
def heartbeat (now : Nat) (id : InstanceId) (ttl : Duration) (s : LocalSharedState) :
    LocalSharedState :=
  match s.instances.lookup id with
  | some (e, _) =>
    { s with instances := setEntry now id { e with lastHeartbeatUnix := now } ttl s.instances }
  | none => s

/-- `list_instances`. -/
def listInstances (now : Nat) (s : LocalSharedState) : List InstanceEntry :=
  (s.instances.liveEntries now).map Prod.snd

/-- `deregister_instance`. -/
def deregisterInstance (id : InstanceId) (s : LocalSharedState) : LocalSharedState :=
  { s with instances := s.instances.remove id }

/-- `session_set`. -/
def sessionSet (now : Nat) (session : SessionId) (backend : BackendId) (ttl : Duration)
    (s : LocalSharedState) : LocalSharedState :=
  { s with sessions := setEntry now session backend ttl s.sessions }

/-- `session_get`. -/
def sessionGet (now : Nat) (session : SessionId) (s : LocalSharedState) :
    Option BackendId × LocalSharedState :=
  let r := getEntry now session s.sessions
  (r.1, { s with sessions := r.2 })

/-- `prefix_history_set`. -/
def prefixHistorySet (now : Nat) (prefixHash : BitVec 64) (entry : PrefixDispatchEntry)
    (ttl : Duration) (s : LocalSharedState) : LocalSharedState :=
  { s with prefixHistory := setEntry now prefixHash entry ttl s.prefixHistory }

/-- `prefix_history_get`. -/
def prefixHistoryGet (now : Nat) (prefixHash : BitVec 64) (s : LocalSharedState) :
    Option PrefixDispatchEntry × LocalSharedState :=
  let r := getEntry now prefixHash s.prefixHistory
  (r.1, { s with prefixHistory := r.2 })

/-- `try_lock` on the map of locks. -/
def tryLockEntry (now : Nat) (key holder : String) (ttl : Duration) (locks : Expiring String String) :
    Bool × Expiring String String :=
  let taken := (true, setEntry now key holder ttl locks)
  match locks.lookup key with
  | some (h, expiry) =>
    -- a stale lock is reclaimed
    if expiry ≤ now then taken
    -- the holder refreshes its lock
    else if h = holder then taken
    else (false, locks)
  | none => taken

/-- `unlock` on the map of locks: only the holder's entry is removed. -/
def unlockEntry (key holder : String) (locks : Expiring String String) : Expiring String String :=
  match locks.lookup key with
  | some (h, _) => if h = holder then locks.remove key else locks
  | none => locks

/-- A lock is taken if it is free, expired or the holder's own. -/
theorem tryLockEntry_eq (now : Nat) (key holder : String) (ttl : Duration)
    (locks : Expiring String String) :
    tryLockEntry now key holder ttl locks =
      if locks.get now key = none ∨ locks.get now key = some holder then
        (true, setEntry now key holder ttl locks)
      else (false, locks) := by
  unfold tryLockEntry Expiring.get
  cases locks.lookup key with
  | none => simp
  | some e =>
    rcases e with ⟨h, expiry⟩
    dsimp only
    by_cases hstale : expiry ≤ now
    · have hlive : ¬now < expiry := by omega
      simp [hstale, hlive]
    · have hlive : now < expiry := by omega
      simp [hstale, hlive]

/-- `try_lock`. -/
def tryLock (now : Nat) (key holder : String) (ttl : Duration) (s : LocalSharedState) :
    Bool × LocalSharedState :=
  let r := tryLockEntry now key holder ttl s.locks
  (r.1, { s with locks := r.2 })

/-- `unlock`. -/
def unlock (key holder : String) (s : LocalSharedState) : LocalSharedState :=
  { s with locks := unlockEntry key holder s.locks }

/-- `metrics_get`. -/
def metricsGet (now : Nat) (backend : BackendId) (s : LocalSharedState) :
    Option BackendMetrics × LocalSharedState :=
  let r := getEntry now backend s.metrics
  (r.1, { s with metrics := r.2 })

/-- `metrics_set`. -/
def metricsSet (now : Nat) (backend : BackendId) (metrics : BackendMetrics) (ttl : Duration)
    (s : LocalSharedState) : LocalSharedState :=
  { s with metrics := setEntry now backend metrics ttl s.metrics }

/-- `metrics_get_all`: the live entries, collected in a map. -/
def metricsGetAll (now : Nat) (s : LocalSharedState) : BackendId → Option BackendMetrics :=
  LastWrite.apply (fun _ => none) (s.metrics.liveEntries now)

/-- An operation in the second `now`. -/
def step (now : Nat) (s : LocalSharedState) : SharedOp → SharedResult × LocalSharedState
  | .registerInstance entry ttl => (.ok .unit, s.registerInstance now entry ttl)
  | .heartbeat id ttl => (.ok .unit, s.heartbeat now id ttl)
  | .listInstances => (.ok (.instances (s.listInstances now)), s)
  | .deregisterInstance id => (.ok .unit, s.deregisterInstance id)
  | .sessionSet session backend ttl => (.ok .unit, s.sessionSet now session backend ttl)
  | .sessionGet session =>
    let r := s.sessionGet now session
    (.ok (.session r.1), r.2)
  | .prefixHistorySet prefixHash entry ttl =>
    (.ok .unit, s.prefixHistorySet now prefixHash entry ttl)
  | .prefixHistoryGet prefixHash =>
    let r := s.prefixHistoryGet now prefixHash
    (.ok (.prefixEntry r.1), r.2)
  | .tryLock key holder ttl =>
    let r := s.tryLock now key holder ttl
    (.ok (.acquired r.1), r.2)
  | .unlock key holder => (.ok .unit, s.unlock key holder)
  | .metricsGet backend =>
    let r := s.metricsGet now backend
    (.ok (.metrics r.1), r.2)
  | .metricsSet backend metrics ttl => (.ok .unit, s.metricsSet now backend metrics ttl)
  | .metricsGetAll => (.ok (.allMetrics (s.metricsGetAll now)), s)

end LocalSharedState

end HierKvGateway
