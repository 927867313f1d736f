import HierKvGateway.Cluster.SharedState

/-!
# Cluster.RedisState — shared state in Redis

The commands of a Redis server that the store uses, and the store over them
(`RedisSharedState`). Redis executes a command at a time and keeps the expire time of
a key as 64-bit Unix milliseconds.
-/

namespace HierKvGateway

/-! ## The server -/

/-- What is kept under a key: the JSON text of a record, or a lock's holder as it is. -/
inductive RedisValue where
  | instanceJson (entry : InstanceEntry)
  | backendJson (backend : BackendId)
  | prefixJson (entry : PrefixDispatchEntry)
  /-- `StoredMetrics`. -/
  | metricsJson (backend : BackendId) (metrics : BackendMetrics)
  | text (s : String)
deriving DecidableEq, Repr

/-- The keys of a server with their expire times (Unix milliseconds). -/
abbrev Keyspace := Expiring String RedisValue

namespace Keyspace

/-- The expire time fits the server's integers. -/
def Fits (now secs : Nat) : Prop := now + 1000 * secs < 2 ^ 63

instance (now secs : Nat) : Decidable (Fits now secs) :=
  inferInstanceAs (Decidable (_ < _))

/-- `SET key value EX secs`; `none` if the expire time is refused. -/
def setEx (now : Nat) (k : String) (v : RedisValue) (secs : Nat) (r : Keyspace) : Option Keyspace :=
  if secs = 0 ∨ ¬Fits now secs then none else some (r.put k v (now + 1000 * secs))

/-- `SET key value NX EX secs`: whether the key was set. -/
def setNxEx (now : Nat) (k : String) (v : RedisValue) (secs : Nat) (r : Keyspace) :
    Option (Bool × Keyspace) :=
  if secs = 0 ∨ ¬Fits now secs then none
  else
    match r.get now k with
    | some _ => some (false, r)
    | none => some (true, r.put k v (now + 1000 * secs))

/-- `EXPIRE key secs`: whether the key was there. A time that is not positive deletes it. -/
def expire (now : Nat) (k : String) (secs : Int) (r : Keyspace) : Option (Bool × Keyspace) :=
  if secs * 1000 < -2 ^ 63 ∨ 2 ^ 63 ≤ now + secs * 1000 then none
  else
    match r.get now k with
    | none => some (false, r)
    | some v =>
      if secs ≤ 0 then some (true, r.remove k)
      else some (true, r.put k v (now + 1000 * secs.toNat))

/-- `DEL key`. -/
def del (k : String) (r : Keyspace) : Keyspace := r.remove k

/-- `MGET`. -/
def mget (now : Nat) (keys : List String) (r : Keyspace) : List (Option RedisValue) :=
  keys.map (r.get now)

/-- The unlock script: delete the key only if it holds this text. -/
def evalUnlock (now : Nat) (k : String) (holder : String) (r : Keyspace) : Keyspace :=
  if r.get now k = some (.text holder) then r.del k else r

end Keyspace

/-- What the store depends on and does not decide: the order the server scans its keys in,
and how the driver and the JSON library read and report. -/
structure RedisEnv where
  /-- The batches that a full `SCAN` iteration over the keys with a prefix returns. -/
  scan : Keyspace → Nat → String → List (List String)
  /-- An iteration returns the keys that are there, some of them perhaps more than once. -/
  mem_scan : ∀ r now pfx k, k ∈ (scan r now pfx).flatten ↔
    (∃ v, r.get now k = some v) ∧ ∃ s, k = pfx ++ s
  /-- What is read back from the JSON text of some metrics. Numbers that are not finite are
  written as `null`, which is not read as a number. -/
  readMetrics : BackendMetrics → Except String BackendMetrics
  /-- The text of the server's refusal of an expire time. -/
  refused : String
  /-- The text of the error on JSON of another type. -/
  badJson : String

/-! ## The store over it -/

/-- `as i64`. -/
def asI64 (n : Nat) : Int := (BitVec.ofNat 64 n).toInt

namespace RedisSharedState

def instancePrefix : String := "hier_kv_gateway:instance:"
def sessionPrefix : String := "hier_kv_gateway:session:"
def prefixHistoryPrefix : String := "hier_kv_gateway:prefix:"
def lockPrefix : String := "hier_kv_gateway:lock:"
def metricsPrefix : String := "hier_kv_gateway:metrics:"

def instanceKey (id : InstanceId) : String := instancePrefix ++ id.str
def sessionKey (session : SessionId) : String := sessionPrefix ++ session.str
def prefixKey (prefixHash : BitVec 64) : String := prefixHistoryPrefix ++ toString prefixHash.toNat
def lockKey (key : String) : String := lockPrefix ++ key
def metricsKey (backend : BackendId) : String := metricsPrefix ++ backend.display

theorem instanceKey_injective : Function.Injective instanceKey := by
  intro id id' h
  have hstr : id.str = id'.str := (String.append_right_inj instancePrefix).1 h
  cases id
  cases id'
  exact congrArg InstanceId.mk hstr

/-- The seconds given to Redis for a TTL. -/
def ttlSecs (ttl : Duration) : Nat := max ttl.asSecs 1

/-- The text of an error of the driver. -/
def commandError (what e : String) : HierKvGatewayError := .internal ("redis " ++ what ++ ": " ++ e)

/-- `set_ex`; `what` names the command in the error. -/
def setExKey (env : RedisEnv) (what : String) (now : Nat) (k : String) (v : RedisValue)
    (ttl : Duration) (r : Keyspace) : Except HierKvGatewayError Unit × Keyspace :=
  match r.setEx now k v (ttlSecs ttl) with
  | some r => (.ok (), r)
  | none => (.error (commandError ("set_ex " ++ what) env.refused), r)

/-- `register_instance`. -/
def registerInstance (env : RedisEnv) (now : Nat) (entry : InstanceEntry) (ttl : Duration) :
    Keyspace → Except HierKvGatewayError Unit × Keyspace :=
  setExKey env "instance" now (instanceKey entry.instanceId) (.instanceJson entry) ttl

/-- The last part of `heartbeat`, with the value read: the entry is written with a new time. -/
def bumpHeartbeat (now : Nat) (id : InstanceId) (ttl : Duration) (raw : Option RedisValue)
    (r : Keyspace) : Keyspace :=
  match raw with
  | some (.instanceJson entry) =>
    -- the outcome of the command is ignored
    (r.setEx now (instanceKey id) (.instanceJson { entry with lastHeartbeatUnix := now / 1000 })
      (ttlSecs ttl)).getD r
  | _ => r

/-- `heartbeat`. -/
def heartbeat (env : RedisEnv) (now : Nat) (id : InstanceId) (ttl : Duration) (r : Keyspace) :
    Except HierKvGatewayError Unit × Keyspace :=
  match r.expire now (instanceKey id) (asI64 (ttlSecs ttl)) with
  | none => (.error (commandError "expire instance" env.refused), r)
  | some (false, r) =>
    (.error (.notFound ("instance not found in shared state: " ++ id.str)), r)
  | some (true, r) => (.ok (), bumpHeartbeat now id ttl (r.get now (instanceKey id)) r)

/-- The keys a `SCAN` iteration returns. -/
def scanKeys (env : RedisEnv) (now : Nat) (pfx : String) (r : Keyspace) : List String :=
  (env.scan r now pfx).flatten

/-- The entry that a value is the text of. -/
def readInstance : RedisValue → Option InstanceEntry
  | .instanceJson entry => some entry
  | _ => none

/-- The entries read with `MGET` from the keys a scan has returned. -/
def readInstances (now : Nat) (keys : List String) (r : Keyspace) : List InstanceEntry :=
  ((r.mget now keys).filterMap id).filterMap readInstance

/-- `list_instances`. -/
def listInstances (env : RedisEnv) (now : Nat) (r : Keyspace) : List InstanceEntry :=
  readInstances now (scanKeys env now instancePrefix r) r

/-- `deregister_instance`. -/
def deregisterInstance (id : InstanceId) (r : Keyspace) : Keyspace := r.del (instanceKey id)

/-- `session_set`. -/
def sessionSet (env : RedisEnv) (now : Nat) (session : SessionId) (backend : BackendId)
    (ttl : Duration) : Keyspace → Except HierKvGatewayError Unit × Keyspace :=
  setExKey env "session" now (sessionKey session) (.backendJson backend) ttl

/-- `session_get`. -/
def sessionGet (env : RedisEnv) (now : Nat) (session : SessionId) (r : Keyspace) :
    Except HierKvGatewayError (Option BackendId) :=
  match r.get now (sessionKey session) with
  | some (.backendJson backend) => .ok (some backend)
  | some _ => .error (.internal ("deserialize backend: " ++ env.badJson))
  | none => .ok none

/-- `prefix_history_set`. -/
def prefixHistorySet (env : RedisEnv) (now : Nat) (prefixHash : BitVec 64)
    (entry : PrefixDispatchEntry) (ttl : Duration) :
    Keyspace → Except HierKvGatewayError Unit × Keyspace :=
  setExKey env "prefix" now (prefixKey prefixHash) (.prefixJson entry) ttl

/-- `prefix_history_get`. -/
def prefixHistoryGet (env : RedisEnv) (now : Nat) (prefixHash : BitVec 64) (r : Keyspace) :
    Except HierKvGatewayError (Option PrefixDispatchEntry) :=
  match r.get now (prefixKey prefixHash) with
  | some (.prefixJson entry) => .ok (some entry)
  | some _ => .error (.internal ("deserialize prefix entry: " ++ env.badJson))
  | none => .ok none

/-- `try_lock`. -/
def tryLock (env : RedisEnv) (now : Nat) (key holder : String) (ttl : Duration) (r : Keyspace) :
    Except HierKvGatewayError Bool × Keyspace :=
  match r.setNxEx now (lockKey key) (.text holder) (ttlSecs ttl) with
  | some (ok, r) => (.ok ok, r)
  | none => (.error (commandError "try_lock" env.refused), r)

/-- `unlock`. -/
def unlock (now : Nat) (key holder : String) (r : Keyspace) : Keyspace :=
  r.evalUnlock now (lockKey key) holder

/-- `metrics_get`. -/
def metricsGet (env : RedisEnv) (now : Nat) (backend : BackendId) (r : Keyspace) :
    Except HierKvGatewayError (Option BackendMetrics) :=
  match r.get now (metricsKey backend) with
  | some (.metricsJson _ metrics) =>
    match env.readMetrics metrics with
    | .ok metrics => .ok (some metrics)
    | .error e => .error (.internal ("deserialize metrics: " ++ e))
  | some _ => .error (.internal ("deserialize metrics: " ++ env.badJson))
  | none => .ok none

/-- `metrics_set`. -/
def metricsSet (env : RedisEnv) (now : Nat) (backend : BackendId) (metrics : BackendMetrics)
    (ttl : Duration) : Keyspace → Except HierKvGatewayError Unit × Keyspace :=
  setExKey env "metrics" now (metricsKey backend) (.metricsJson backend metrics) ttl

/-- The backend and the metrics that a value is the text of. -/
def readStoredMetrics (env : RedisEnv) : RedisValue → Option (BackendId × BackendMetrics)
  | .metricsJson backend metrics =>
    match env.readMetrics metrics with
    | .ok metrics => some (backend, metrics)
    | .error _ => none
  | _ => none

/-- `metrics_get_all`: what can be read, collected in a map. -/
def metricsGetAll (env : RedisEnv) (now : Nat) (r : Keyspace) :
    BackendId → Option BackendMetrics :=
  let values := r.mget now (scanKeys env now metricsPrefix r)
  LastWrite.apply (fun _ => none) ((values.filterMap id).filterMap (readStoredMetrics env))

/-- An operation at `now` (Unix milliseconds). -/
def step (env : RedisEnv) (now : Nat) (r : Keyspace) : SharedOp → SharedResult × Keyspace
  | .registerInstance entry ttl =>
    let res := registerInstance env now entry ttl r
    (res.1.map fun _ => .unit, res.2)
  | .heartbeat id ttl =>
    let res := heartbeat env now id ttl r
    (res.1.map fun _ => .unit, res.2)
  | .listInstances => (.ok (.instances (listInstances env now r)), r)
  | .deregisterInstance id => (.ok .unit, deregisterInstance id r)
  | .sessionSet session backend ttl =>
    let res := sessionSet env now session backend ttl r
    (res.1.map fun _ => .unit, res.2)
  | .sessionGet session => ((sessionGet env now session r).map .session, r)
  | .prefixHistorySet prefixHash entry ttl =>
    let res := prefixHistorySet env now prefixHash entry ttl r
    (res.1.map fun _ => .unit, res.2)
  | .prefixHistoryGet prefixHash => ((prefixHistoryGet env now prefixHash r).map .prefixEntry, r)
  | .tryLock key holder ttl =>
    let res := tryLock env now key holder ttl r
    (res.1.map .acquired, res.2)
  | .unlock key holder => (.ok .unit, unlock now key holder r)
  | .metricsGet backend => ((metricsGet env now backend r).map .metrics, r)
  | .metricsSet backend metrics ttl =>
    let res := metricsSet env now backend metrics ttl r
    (res.1.map fun _ => .unit, res.2)
  | .metricsGetAll => (.ok (.allMetrics (metricsGetAll env now r)), r)

end RedisSharedState

end HierKvGateway
