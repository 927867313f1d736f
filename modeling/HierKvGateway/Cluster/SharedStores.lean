import HierKvGateway.Cluster.RedisState
import HierKvGateway.Lib.Run

/-!
# Cluster.SharedStores — one interface, two stores

A program may run against the store in memory or against Redis. The two keep the same
entries under clocks of seconds and of milliseconds (`StoresAgree`), as long as every
operation is a `Portable` one. What is not portable is where the two
implementations were written differently: TTLs below a second, heartbeats of instances
that are gone, heartbeat times at registration, locks taken twice, metrics that JSON does
not carry, backends with the same text, and reads in the second an entry expires in.

`sameResults_of_portable`: a run of portable operations returns the same from both stores.
-/

namespace HierKvGateway

open RedisSharedState

/-! ## Keys

The keys of the five kinds differ in the character after `hier_kv_gateway:`. -/

/-- The character that tells the kind of a key. -/
def kindOf (k : String) : Option Char := k.toList[16]?

theorem kindOf_append {pfx : String} {c : Char} (h : pfx.toList[16]? = some c) (s : String) :
    kindOf (pfx ++ s) = some c := by
  have hlt : 16 < pfx.toList.length := (List.getElem?_eq_some_iff.1 h).1
  rw [kindOf, String.toList_append, List.getElem?_append_left hlt, h]

theorem kindOf_instanceKey (id : InstanceId) : kindOf (instanceKey id) = some 'i' :=
  kindOf_append (by decide) id.str

theorem kindOf_sessionKey (session : SessionId) : kindOf (sessionKey session) = some 's' :=
  kindOf_append (by decide) session.str

theorem kindOf_prefixKey (prefixHash : BitVec 64) : kindOf (prefixKey prefixHash) = some 'p' :=
  kindOf_append (by decide) (toString prefixHash.toNat)

theorem kindOf_lockKey (key : String) : kindOf (lockKey key) = some 'l' :=
  kindOf_append (by decide) key

theorem kindOf_metricsKey (backend : BackendId) : kindOf (metricsKey backend) = some 'm' :=
  kindOf_append (by decide) backend.display

theorem sessionKey_injective : Function.Injective sessionKey := by
  intro session session' h
  have hstr : session.str = session'.str := (String.append_right_inj sessionPrefix).1 h
  cases session
  cases session'
  exact congrArg SessionId.mk hstr

theorem prefixKey_injective : Function.Injective prefixKey := by
  intro n n' h
  have hrepr : n.toNat.repr = n'.toNat.repr := (String.append_right_inj prefixHistoryPrefix).1 h
  -- the decimal digits are read back
  have hdigits := congrArg (fun s : String => Nat.ofDigitChars 10 s.toList 0) hrepr
  simp only [Nat.toList_repr, Nat.ofDigitChars_ten_toDigits] at hdigits
  exact BitVec.eq_of_toNat_eq hdigits

theorem lockKey_injective : Function.Injective lockKey :=
  fun _ _ h => (String.append_right_inj lockPrefix).1 h

/-- Two keyspaces that may differ in the keys of one kind. -/
def SameOutside (c : Char) (r r' : Keyspace) : Prop :=
  ∀ k, kindOf k ≠ some c → r'.lookup k = r.lookup k

section SameOutside

variable {c : Char} {r : Keyspace} {k : String}

theorem SameOutside.put (hk : kindOf k = some c) (v : RedisValue) (d : Nat) :
    SameOutside c r (r.put k v d) := by
  intro k' hk'
  have hne : k' ≠ k := by
    rintro rfl
    exact hk' hk
  exact Expiring.lookup_put_of_ne hne

theorem SameOutside.remove (hk : kindOf k = some c) : SameOutside c r (r.remove k) := by
  intro k' hk'
  have hne : k' ≠ k := by
    rintro rfl
    exact hk' hk
  exact Expiring.lookup_remove_of_ne hne

theorem SameOutside.refl (c : Char) (r : Keyspace) : SameOutside c r r := fun _ _ => rfl

/-- A table of another kind does not see the difference. -/
theorem SameOutside.agree {κ ν : Type} [DecidableEq κ] {key : κ → String}
    {enc : κ → ν → RedisValue} {now : Nat} {t : Expiring κ ν} {r' : Keyspace} {c' : Char}
    (h : SameOutside c r r') (hkey : ∀ k, kindOf (key k) = some c') (hc : c' ≠ c)
    (hagree : Expiring.Agree 1000 key enc now t r) : Expiring.Agree 1000 key enc now t r' := by
  refine hagree.congr_fast fun k => h (key k) ?_
  rw [hkey k]
  intro heq
  exact hc (Option.some.inj heq)

end SameOutside

/-! ## The two stores side by side -/

/-- The two stores hold the same live entries. -/
structure StoresAgree (env : RedisEnv) (now : Nat) (l : LocalSharedState) (r : Keyspace) : Prop where
  instances : Expiring.Agree 1000 instanceKey (fun _ e => .instanceJson e) now l.instances r
  sessions : Expiring.Agree 1000 sessionKey (fun _ b => .backendJson b) now l.sessions r
  prefixHistory : Expiring.Agree 1000 prefixKey (fun _ e => .prefixJson e) now l.prefixHistory r
  locks : Expiring.Agree 1000 lockKey (fun _ h => .text h) now l.locks r
  metrics : Expiring.Agree 1000 metricsKey .metricsJson now l.metrics r
  /-- An instance is registered under its own id. -/
  keyed : ∀ id e x, l.instances.lookup id = some (e, x) → e.instanceId = id
  /-- JSON carries the metrics that are kept. -/
  readable : ∀ b m x, l.metrics.lookup b = some (m, x) → env.readMetrics m = .ok m
  /-- The metrics keys are those of backends. -/
  metricsKeys : ∀ k e, r.lookup k = some e → kindOf k = some 'm' → ∃ b, k = metricsKey b

namespace StoresAgree

variable {env : RedisEnv} {now now' : Nat} {l : LocalSharedState} {r r' : Keyspace}

theorem new (env : RedisEnv) (now : Nat) : StoresAgree env now LocalSharedState.new ∅ where
  instances := .empty
  sessions := .empty
  prefixHistory := .empty
  locks := .empty
  metrics := .empty
  keyed _ _ _ h := by
    rw [LocalSharedState.new, Expiring.lookup_empty] at h
    exact absurd h nofun
  readable _ _ _ h := by
    rw [LocalSharedState.new, Expiring.lookup_empty] at h
    exact absurd h nofun
  metricsKeys _ _ h := by
    rw [Expiring.lookup_empty] at h
    exact absurd h nofun

/-- Time passes. -/
theorem mono (h : StoresAgree env now l r) (hle : now ≤ now') : StoresAgree env now' l r :=
  { h with
    instances := h.instances.mono hle
    sessions := h.sessions.mono hle
    prefixHistory := h.prefixHistory.mono hle
    locks := h.locks.mono hle
    metrics := h.metrics.mono hle }

theorem metricsKeys_of_sameOutside {c : Char} (h : StoresAgree env now l r)
    (hsame : SameOutside c r r') (hc : c ≠ 'm') :
    ∀ k e, r'.lookup k = some e → kindOf k = some 'm' → ∃ b, k = metricsKey b := by
  intro k e hlookup hkind
  rw [hsame k (by rw [hkind]; exact fun heq => hc (Option.some.inj heq).symm)] at hlookup
  exact h.metricsKeys k e hlookup hkind

/-- The registrations change. -/
theorem setInstances {t : Expiring InstanceId InstanceEntry} (h : StoresAgree env now l r)
    (hagree : Expiring.Agree 1000 instanceKey (fun _ e => .instanceJson e) now t r')
    (hkeyed : ∀ id e x, t.lookup id = some (e, x) → e.instanceId = id)
    (hsame : SameOutside 'i' r r') : StoresAgree env now { l with instances := t } r' where
  instances := hagree
  sessions := hsame.agree kindOf_sessionKey (by decide) h.sessions
  prefixHistory := hsame.agree kindOf_prefixKey (by decide) h.prefixHistory
  locks := hsame.agree kindOf_lockKey (by decide) h.locks
  metrics := hsame.agree kindOf_metricsKey (by decide) h.metrics
  keyed := hkeyed
  readable := h.readable
  metricsKeys := h.metricsKeys_of_sameOutside hsame (by decide)

/-- The sessions change. -/
theorem setSessions {t : Expiring SessionId BackendId} (h : StoresAgree env now l r)
    (hagree : Expiring.Agree 1000 sessionKey (fun _ b => .backendJson b) now t r')
    (hsame : SameOutside 's' r r') : StoresAgree env now { l with sessions := t } r' where
  instances := hsame.agree kindOf_instanceKey (by decide) h.instances
  sessions := hagree
  prefixHistory := hsame.agree kindOf_prefixKey (by decide) h.prefixHistory
  locks := hsame.agree kindOf_lockKey (by decide) h.locks
  metrics := hsame.agree kindOf_metricsKey (by decide) h.metrics
  keyed := h.keyed
  readable := h.readable
  metricsKeys := h.metricsKeys_of_sameOutside hsame (by decide)

/-- The prefix history changes. -/
theorem setPrefixHistory {t : Expiring (BitVec 64) PrefixDispatchEntry}
    (h : StoresAgree env now l r)
    (hagree : Expiring.Agree 1000 prefixKey (fun _ e => .prefixJson e) now t r')
    (hsame : SameOutside 'p' r r') : StoresAgree env now { l with prefixHistory := t } r' where
  instances := hsame.agree kindOf_instanceKey (by decide) h.instances
  sessions := hsame.agree kindOf_sessionKey (by decide) h.sessions
  prefixHistory := hagree
  locks := hsame.agree kindOf_lockKey (by decide) h.locks
  metrics := hsame.agree kindOf_metricsKey (by decide) h.metrics
  keyed := h.keyed
  readable := h.readable
  metricsKeys := h.metricsKeys_of_sameOutside hsame (by decide)

/-- The locks change. -/
theorem setLocks {t : Expiring String String} (h : StoresAgree env now l r)
    (hagree : Expiring.Agree 1000 lockKey (fun _ h => .text h) now t r')
    (hsame : SameOutside 'l' r r') : StoresAgree env now { l with locks := t } r' where
  instances := hsame.agree kindOf_instanceKey (by decide) h.instances
  sessions := hsame.agree kindOf_sessionKey (by decide) h.sessions
  prefixHistory := hsame.agree kindOf_prefixKey (by decide) h.prefixHistory
  locks := hagree
  metrics := hsame.agree kindOf_metricsKey (by decide) h.metrics
  keyed := h.keyed
  readable := h.readable
  metricsKeys := h.metricsKeys_of_sameOutside hsame (by decide)

/-- The metrics change. -/
theorem setMetrics {t : Expiring BackendId BackendMetrics} (h : StoresAgree env now l r)
    (hagree : Expiring.Agree 1000 metricsKey .metricsJson now t r')
    (hreadable : ∀ b m x, t.lookup b = some (m, x) → env.readMetrics m = .ok m)
    (hkeys : ∀ k e, r'.lookup k = some e → kindOf k = some 'm' → ∃ b, k = metricsKey b)
    (hsame : SameOutside 'm' r r') : StoresAgree env now { l with metrics := t } r' where
  instances := hsame.agree kindOf_instanceKey (by decide) h.instances
  sessions := hsame.agree kindOf_sessionKey (by decide) h.sessions
  prefixHistory := hsame.agree kindOf_prefixKey (by decide) h.prefixHistory
  locks := hsame.agree kindOf_lockKey (by decide) h.locks
  metrics := hagree
  keyed := h.keyed
  readable := hreadable
  metricsKeys := hkeys

end StoresAgree

/-! ## Portable operations -/

/-- A TTL of at least a second, with an expire time that Redis can keep. -/
def WholeTtl (now : Nat) (ttl : Duration) : Prop :=
  1 ≤ ttl.asSecs ∧ Keyspace.Fits now ttl.asSecs

/-- What an operation asks of the stores so that both carry it out alike. -/
def Portable (env : RedisEnv) (l : LocalSharedState) (r : Keyspace) (now : Nat) : SharedOp → Prop
  | .registerInstance entry ttl => WholeTtl now ttl ∧ entry.lastHeartbeatUnix = now / 1000
  -- the instance is registered and has not expired
  | .heartbeat id ttl => WholeTtl now ttl ∧ ∃ v, r.get now (instanceKey id) = some v
  | .listInstances =>
    (∀ id, Expiring.Sharp 1000 now r (instanceKey id)) ∧ (scanKeys env now instancePrefix r).Nodup
  | .deregisterInstance _ => True
  | .sessionSet _ _ ttl => WholeTtl now ttl
  | .sessionGet session => Expiring.Sharp 1000 now r (sessionKey session)
  | .prefixHistorySet _ _ ttl => WholeTtl now ttl
  | .prefixHistoryGet prefixHash => Expiring.Sharp 1000 now r (prefixKey prefixHash)
  -- the lock is free and wanted for a second at least, or somebody else's
  | .tryLock key holder ttl =>
    Keyspace.Fits now (ttlSecs ttl) ∧ Expiring.Sharp 1000 now r (lockKey key) ∧
      (r.get now (lockKey key) = none → 1 ≤ ttl.asSecs) ∧
      r.get now (lockKey key) ≠ some (.text holder)
  | .unlock _ _ => True
  | .metricsGet backend =>
    Expiring.Sharp 1000 now r (metricsKey backend) ∧
      Expiring.NoTwin 1000 metricsKey now l.metrics backend
  | .metricsSet backend metrics ttl =>
    WholeTtl now ttl ∧ env.readMetrics metrics = .ok metrics ∧
      Expiring.NoTwin 1000 metricsKey now l.metrics backend
  | .metricsGetAll => ∀ backend, Expiring.Sharp 1000 now r (metricsKey backend)

/-- The same result. The order of a list of instances is not part of it. -/
inductive SameResult : SharedResult → SharedResult → Prop
  | error (e : HierKvGatewayError) : SameResult (.error e) (.error e)
  | ok (reply : SharedReply) : SameResult (.ok reply) (.ok reply)
  | instances {es es' : List InstanceEntry} (h : es.Perm es') :
    SameResult (.ok (.instances es)) (.ok (.instances es'))

section Step

variable {env : RedisEnv} {now : Nat} {l : LocalSharedState} {r : Keyspace} {ttl : Duration}

theorem WholeTtl.expiry (h : WholeTtl now ttl) :
    saturatingAdd (now / 1000) ttl.asSecs = now / 1000 + ttl.asSecs := by
  rcases h with ⟨_, hfits⟩
  unfold Keyspace.Fits at hfits
  exact saturatingAdd_of_lt (by omega)

theorem WholeTtl.ttlSecs (h : WholeTtl now ttl) : RedisSharedState.ttlSecs ttl = ttl.asSecs :=
  Nat.max_eq_left h.1

theorem setEx_of_wholeTtl (h : WholeTtl now ttl) (k : String) (v : RedisValue) (r : Keyspace) :
    r.setEx now k v (RedisSharedState.ttlSecs ttl) = some (r.put k v (now + 1000 * ttl.asSecs)) := by
  have hpos := h.1
  rw [h.ttlSecs, Keyspace.setEx, if_neg]
  rintro (hzero | hfits)
  · omega
  · exact hfits h.2

variable (env) in
theorem setExKey_of_wholeTtl (h : WholeTtl now ttl) (what k : String) (v : RedisValue)
    (r : Keyspace) :
    setExKey env what now k v ttl r = (.ok (), r.put k v (now + 1000 * ttl.asSecs)) := by
  rw [setExKey, setEx_of_wholeTtl h]

theorem asI64_of_lt {n : Nat} (h : n < 2 ^ 63) : asI64 n = n := by
  rw [asI64, BitVec.toInt_ofNat', Int.bmod_def]
  omega

/-- `EXPIRE` on a live key. -/
theorem expire_of_wholeTtl (h : WholeTtl now ttl) {k : String} {v : RedisValue}
    (hget : r.get now k = some v) :
    r.expire now k (asI64 (RedisSharedState.ttlSecs ttl)) =
      some (true, r.put k v (now + 1000 * ttl.asSecs)) := by
  rcases h with ⟨hpos, hfits⟩
  unfold Keyspace.Fits at hfits
  have hsecs : RedisSharedState.ttlSecs ttl = ttl.asSecs := Nat.max_eq_left hpos
  rw [hsecs, asI64_of_lt (by omega), Keyspace.expire, if_neg (by omega), hget]
  dsimp only
  rw [if_neg (by omega), Int.toNat_natCast]

/-- The same entry set in both stores. -/
theorem agree_setEntry {κ ν : Type} [DecidableEq κ] {key : κ → String} {enc : κ → ν → RedisValue}
    {t : Expiring κ ν} (h : Expiring.Agree 1000 key enc now t r) (httl : WholeTtl now ttl) {k : κ}
    (htwin : Expiring.NoTwin 1000 key now t k) (v : ν) :
    Expiring.Agree 1000 key enc now (LocalSharedState.setEntry (now / 1000) k v ttl t)
      (r.put (key k) (enc k v) (now + 1000 * ttl.asSecs)) := by
  rw [LocalSharedState.setEntry, httl.expiry]
  exact h.put (by decide) htwin v ttl.asSecs

/-- An entry looked up in both stores: the same value, and what the store in memory removes
is not live in Redis. -/
theorem agree_getEntry {κ ν : Type} [DecidableEq κ] {key : κ → String} {enc : κ → ν → RedisValue}
    {t : Expiring κ ν} (h : Expiring.Agree 1000 key enc now t r) {k : κ}
    (hsharp : Expiring.Sharp 1000 now r (key k)) (htwin : Expiring.NoTwin 1000 key now t k) :
    r.get now (key k) = (LocalSharedState.getEntry (now / 1000) k t).1.map (enc k) ∧
      Expiring.Agree 1000 key enc now (LocalSharedState.getEntry (now / 1000) k t).2 r := by
  have hget := h.get_eq hsharp htwin
  rw [LocalSharedState.getEntry_fst, LocalSharedState.getEntry_snd]
  refine ⟨hget, ?_⟩
  split
  · next hnone =>
    rw [hnone, Option.map_none] at hget
    exact h.remove_dead hget
  · exact h

/-- Both stores return the same and hold the same afterwards. -/
def StepAgrees (env : RedisEnv) (l : LocalSharedState) (r : Keyspace) (now : Nat) (op : SharedOp) :
    Prop :=
  SameResult (l.step (now / 1000) op).1 (RedisSharedState.step env now r op).1 ∧
    StoresAgree env now (l.step (now / 1000) op).2 (RedisSharedState.step env now r op).2

theorem keyed_put {t : Expiring InstanceId InstanceEntry}
    (h : ∀ id e x, t.lookup id = some (e, x) → e.instanceId = id) {id : InstanceId}
    {entry : InstanceEntry} (hid : entry.instanceId = id) (d : Nat) :
    ∀ id' e x, (t.put id entry d).lookup id' = some (e, x) → e.instanceId = id' := by
  intro id' e x hlookup
  rcases Expiring.lookup_of_put hlookup with ⟨rfl, heq⟩ | ⟨-, hlookup⟩
  · cases heq
    exact hid
  · exact h id' e x hlookup

theorem step_registerInstance (h : StoresAgree env now l r) {entry : InstanceEntry}
    (hp : Portable env l r now (.registerInstance entry ttl)) :
    StepAgrees env l r now (.registerInstance entry ttl) := by
  rcases hp with ⟨httl, hstamp⟩
  have hstored : { entry with lastHeartbeatUnix := now / 1000 } = entry := by
    rw [← hstamp]
  have hres := setExKey_of_wholeTtl env httl "instance" (instanceKey entry.instanceId)
    (.instanceJson entry) r
  unfold StepAgrees
  simp only [LocalSharedState.step, RedisSharedState.step, RedisSharedState.registerInstance, hres]
  refine ⟨.ok .unit, ?_⟩
  unfold LocalSharedState.registerInstance
  rw [hstored]
  refine h.setInstances ?_ ?_ (SameOutside.put (kindOf_instanceKey _) _ _)
  · exact agree_setEntry h.instances httl (Expiring.noTwin_of_injective instanceKey_injective) entry
  · exact keyed_put h.keyed rfl _

theorem step_heartbeat (h : StoresAgree env now l r) {id : InstanceId}
    (hp : Portable env l r now (.heartbeat id ttl)) :
    StepAgrees env l r now (.heartbeat id ttl) := by
  rcases hp with ⟨httl, v, hget⟩
  -- the instance is in both stores
  rcases Expiring.get_eq_some.1 hget with ⟨d, hfast, hlt⟩
  rcases h.instances.slow_of_fast id v d hfast hlt with ⟨id', e, hkey, hslow, rfl⟩
  rcases instanceKey_injective hkey with rfl
  have hkeyed := h.keyed _ _ _ hslow
  -- the entry is read after `EXPIRE` and written again
  have hexpire := expire_of_wholeTtl httl hget
  have hdeadline : now < now + 1000 * ttl.asSecs := by
    have := httl.1
    omega
  have hread := Expiring.get_put_self (t := r) (k := instanceKey id')
    (v := RedisValue.instanceJson e) hdeadline
  have hbump := setEx_of_wholeTtl httl (instanceKey id')
    (.instanceJson { e with lastHeartbeatUnix := now / 1000 })
    (r.put (instanceKey id') (.instanceJson e) (now + 1000 * ttl.asSecs))
  have htwice : (r.put (instanceKey id') (.instanceJson e) (now + 1000 * ttl.asSecs)).put
      (instanceKey id') (.instanceJson { e with lastHeartbeatUnix := now / 1000 })
      (now + 1000 * ttl.asSecs) =
      r.put (instanceKey id') (.instanceJson { e with lastHeartbeatUnix := now / 1000 })
        (now + 1000 * ttl.asSecs) := AList.insert_insert r
  have hres : RedisSharedState.heartbeat env now id' ttl r =
      (.ok (), r.put (instanceKey id') (.instanceJson { e with lastHeartbeatUnix := now / 1000 })
        (now + 1000 * ttl.asSecs)) := by
    rw [RedisSharedState.heartbeat, hexpire]
    dsimp only
    rw [hread, bumpHeartbeat, hbump, Option.getD_some, htwice]
  unfold StepAgrees
  simp only [LocalSharedState.step, RedisSharedState.step, hres]
  refine ⟨.ok .unit, ?_⟩
  unfold LocalSharedState.heartbeat
  rw [hslow]
  refine h.setInstances ?_ ?_ (SameOutside.put (kindOf_instanceKey _) _ _)
  · exact agree_setEntry h.instances httl (Expiring.noTwin_of_injective instanceKey_injective)
      { e with lastHeartbeatUnix := now / 1000 }
  · have hid : { e with lastHeartbeatUnix := now / 1000 }.instanceId = id' := hkeyed
    exact keyed_put h.keyed hid _

theorem step_deregisterInstance (h : StoresAgree env now l r) (id : InstanceId) :
    StepAgrees env l r now (.deregisterInstance id) := by
  refine ⟨.ok .unit, ?_⟩
  refine h.setInstances ?_ ?_ (SameOutside.remove (kindOf_instanceKey id))
  · exact h.instances.remove (Expiring.noTwin_of_injective instanceKey_injective)
  · intro id' e x hlookup
    exact h.keyed id' e x (Expiring.lookup_of_remove hlookup).2

theorem step_sessionSet (h : StoresAgree env now l r) {session : SessionId} {backend : BackendId}
    (hp : Portable env l r now (.sessionSet session backend ttl)) :
    StepAgrees env l r now (.sessionSet session backend ttl) := by
  have hres := setExKey_of_wholeTtl env hp "session" (sessionKey session)
    (.backendJson backend) r
  unfold StepAgrees
  simp only [LocalSharedState.step, RedisSharedState.step, RedisSharedState.sessionSet, hres]
  refine ⟨.ok .unit, h.setSessions ?_ (SameOutside.put (kindOf_sessionKey _) _ _)⟩
  exact agree_setEntry h.sessions hp (Expiring.noTwin_of_injective sessionKey_injective) backend

theorem step_sessionGet (h : StoresAgree env now l r) {session : SessionId}
    (hp : Portable env l r now (.sessionGet session)) :
    StepAgrees env l r now (.sessionGet session) := by
  rcases agree_getEntry h.sessions hp (Expiring.noTwin_of_injective sessionKey_injective) with
    ⟨hget, hagree⟩
  refine ⟨?_, h.setSessions hagree (.refl _ _)⟩
  simp only [LocalSharedState.step, RedisSharedState.step, RedisSharedState.sessionGet, hget,
    LocalSharedState.sessionGet]
  cases (LocalSharedState.getEntry (now / 1000) session l.sessions).1 with
  | none => exact .ok _
  | some b => exact .ok _

theorem step_prefixHistorySet (h : StoresAgree env now l r) {prefixHash : BitVec 64}
    {entry : PrefixDispatchEntry} (hp : Portable env l r now (.prefixHistorySet prefixHash entry ttl)) :
    StepAgrees env l r now (.prefixHistorySet prefixHash entry ttl) := by
  have hres := setExKey_of_wholeTtl env hp "prefix" (prefixKey prefixHash)
    (.prefixJson entry) r
  unfold StepAgrees
  simp only [LocalSharedState.step, RedisSharedState.step, RedisSharedState.prefixHistorySet, hres]
  refine ⟨.ok .unit, h.setPrefixHistory ?_ (SameOutside.put (kindOf_prefixKey _) _ _)⟩
  exact agree_setEntry h.prefixHistory hp (Expiring.noTwin_of_injective prefixKey_injective) entry

theorem step_prefixHistoryGet (h : StoresAgree env now l r) {prefixHash : BitVec 64}
    (hp : Portable env l r now (.prefixHistoryGet prefixHash)) :
    StepAgrees env l r now (.prefixHistoryGet prefixHash) := by
  rcases agree_getEntry h.prefixHistory hp (Expiring.noTwin_of_injective prefixKey_injective) with
    ⟨hget, hagree⟩
  refine ⟨?_, h.setPrefixHistory hagree (.refl _ _)⟩
  simp only [LocalSharedState.step, RedisSharedState.step, RedisSharedState.prefixHistoryGet, hget,
    LocalSharedState.prefixHistoryGet]
  cases (LocalSharedState.getEntry (now / 1000) prefixHash l.prefixHistory).1 with
  | none => exact .ok _
  | some e => exact .ok _

theorem ttlSecs_pos (ttl : Duration) : RedisSharedState.ttlSecs ttl ≠ 0 := by
  unfold RedisSharedState.ttlSecs
  omega

theorem setNxEx_of_none (hfits : Keyspace.Fits now (RedisSharedState.ttlSecs ttl)) {k : String}
    (hget : r.get now k = none) (v : RedisValue) :
    r.setNxEx now k v (RedisSharedState.ttlSecs ttl) =
      some (true, r.put k v (now + 1000 * RedisSharedState.ttlSecs ttl)) := by
  rw [Keyspace.setNxEx, if_neg (by simp [ttlSecs_pos, hfits]), hget]

theorem setNxEx_of_some (hfits : Keyspace.Fits now (RedisSharedState.ttlSecs ttl)) {k : String}
    {old : RedisValue} (hget : r.get now k = some old) (v : RedisValue) :
    r.setNxEx now k v (RedisSharedState.ttlSecs ttl) = some (false, r) := by
  rw [Keyspace.setNxEx, if_neg (by simp [ttlSecs_pos, hfits]), hget]

theorem step_tryLock (h : StoresAgree env now l r) {key holder : String}
    (hp : Portable env l r now (.tryLock key holder ttl)) :
    StepAgrees env l r now (.tryLock key holder ttl) := by
  rcases hp with ⟨hfits, hsharp, hfree, hother⟩
  have hget := h.locks.get_eq hsharp (Expiring.noTwin_of_injective lockKey_injective)
  have hlocal := LocalSharedState.tryLockEntry_eq (now / 1000) key holder ttl l.locks
  unfold StepAgrees
  rw [LocalSharedState.step, RedisSharedState.step, LocalSharedState.tryLock,
    RedisSharedState.tryLock, hlocal]
  cases hheld : l.locks.get (now / 1000) key with
  | none =>
    -- both take the lock
    rw [hheld, Option.map_none] at hget
    rw [if_pos (Or.inl rfl), setNxEx_of_none hfits hget]
    have httl : WholeTtl now ttl := by
      have hpos := hfree hget
      rw [RedisSharedState.ttlSecs, Nat.max_eq_left hpos] at hfits
      exact ⟨hpos, hfits⟩
    rw [httl.ttlSecs]
    refine ⟨.ok _, h.setLocks ?_ (SameOutside.put (kindOf_lockKey _) _ _)⟩
    exact agree_setEntry h.locks httl (Expiring.noTwin_of_injective lockKey_injective) holder
  | some other =>
    -- somebody else holds it
    rw [hheld, Option.map_some] at hget
    have hne : ¬((some other : Option String) = none ∨ some other = some holder) := by
      rintro (hnone | hsame)
      · exact Option.some_ne_none _ hnone
      · exact hother (by rw [hget, Option.some.inj hsame])
    rw [if_neg hne, setNxEx_of_some hfits hget]
    exact ⟨.ok _, h⟩

theorem step_unlock (h : StoresAgree env now l r) (key holder : String) :
    StepAgrees env l r now (.unlock key holder) := by
  refine ⟨.ok .unit, ?_⟩
  simp only [LocalSharedState.step, RedisSharedState.step, LocalSharedState.unlock,
    RedisSharedState.unlock, Keyspace.evalUnlock]
  split
  · next hheld =>
    -- held in Redis, and so in memory
    rcases Expiring.get_eq_some.1 hheld with ⟨d, hfast, hlt⟩
    rcases h.locks.slow_of_fast key _ d hfast hlt with ⟨key', holder', hkey, hslow, htext⟩
    rcases lockKey_injective hkey with rfl
    have hholder : holder' = holder := (RedisValue.text.inj htext).symm
    have hunlock : LocalSharedState.unlockEntry key' holder l.locks = l.locks.remove key' := by
      rw [LocalSharedState.unlockEntry, hslow]
      exact if_pos hholder
    rw [hunlock]
    refine h.setLocks ?_ (SameOutside.remove (kindOf_lockKey key'))
    exact h.locks.remove (Expiring.noTwin_of_injective lockKey_injective)
  · next hheld =>
    unfold LocalSharedState.unlockEntry
    split
    · next holder' e hslow =>
      split
      · next hholder =>
        -- an expired entry of the holder is removed from memory only
        refine h.setLocks (h.locks.remove_dead ?_) (.refl _ _)
        rw [Option.eq_none_iff_forall_ne_some]
        intro x hget
        rcases Expiring.get_eq_some.1 hget with ⟨d, hfast, hlt⟩
        rcases h.locks.slow_of_fast key x d hfast hlt with ⟨key', v, hkey, hslow', rfl⟩
        rcases lockKey_injective hkey with rfl
        rw [hslow] at hslow'
        cases hslow'
        rw [hholder] at hget
        exact hheld hget
      · exact h
    · exact h

theorem readable_of_getEntry (h : StoresAgree env now l r) (backend : BackendId) :
    ∀ b m x, (LocalSharedState.getEntry (now / 1000) backend l.metrics).2.lookup b = some (m, x) →
      env.readMetrics m = .ok m := by
  intro b m x hlookup
  rw [LocalSharedState.getEntry_snd] at hlookup
  split at hlookup
  · exact h.readable b m x (Expiring.lookup_of_remove hlookup).2
  · exact h.readable b m x hlookup

theorem step_metricsGet (h : StoresAgree env now l r) {backend : BackendId}
    (hp : Portable env l r now (.metricsGet backend)) :
    StepAgrees env l r now (.metricsGet backend) := by
  rcases hp with ⟨hsharp, htwin⟩
  rcases agree_getEntry h.metrics hsharp htwin with ⟨hget, hagree⟩
  have hreadable := readable_of_getEntry h backend
  refine ⟨?_, h.setMetrics hagree hreadable h.metricsKeys (.refl _ _)⟩
  simp only [LocalSharedState.step, RedisSharedState.step, RedisSharedState.metricsGet, hget,
    LocalSharedState.metricsGet]
  cases hlocal : (LocalSharedState.getEntry (now / 1000) backend l.metrics).1 with
  | none => exact .ok _
  | some m =>
    rw [LocalSharedState.getEntry_fst] at hlocal
    rcases Expiring.get_eq_some.1 hlocal with ⟨d, hlookup, _⟩
    simp only [Option.map_some, h.readable backend m d hlookup]
    exact .ok _

theorem step_metricsSet (h : StoresAgree env now l r) {backend : BackendId}
    {metrics : BackendMetrics} (hp : Portable env l r now (.metricsSet backend metrics ttl)) :
    StepAgrees env l r now (.metricsSet backend metrics ttl) := by
  rcases hp with ⟨httl, hread, htwin⟩
  have hres := setExKey_of_wholeTtl env httl "metrics" (metricsKey backend)
    (.metricsJson backend metrics) r
  unfold StepAgrees
  simp only [LocalSharedState.step, RedisSharedState.step, RedisSharedState.metricsSet, hres]
  refine ⟨.ok .unit, h.setMetrics ?_ ?_ ?_ (SameOutside.put (kindOf_metricsKey _) _ _)⟩
  · exact agree_setEntry h.metrics httl htwin metrics
  · intro b m x hlookup
    unfold LocalSharedState.setEntry at hlookup
    rcases Expiring.lookup_of_put hlookup with ⟨rfl, heq⟩ | ⟨-, hlookup⟩
    · cases heq
      exact hread
    · exact h.readable b m x hlookup
  · intro k e hlookup hkind
    rcases Expiring.lookup_of_put hlookup with ⟨hk, -⟩ | ⟨-, hlookup⟩
    · exact ⟨backend, hk⟩
    · exact h.metricsKeys k e hlookup hkind

/-- What a scan followed by `MGET` reads: the live values under a prefix. -/
theorem mem_mget_scan {pfx : String} {v : RedisValue} :
    v ∈ (r.mget now (scanKeys env now pfx r)).filterMap id ↔
      ∃ s, r.get now (pfx ++ s) = some v := by
  rw [Keyspace.mget, List.filterMap_map, List.mem_filterMap]
  constructor
  · rintro ⟨k, hk, hget⟩
    rcases ((env.mem_scan r now pfx k).1 hk).2 with ⟨s, rfl⟩
    exact ⟨s, hget⟩
  · rintro ⟨s, hget⟩
    exact ⟨pfx ++ s, (env.mem_scan r now pfx _).2 ⟨⟨v, hget⟩, s, rfl⟩, hget⟩

/-- The live metrics in memory are those that can be read from Redis. -/
theorem mem_metrics_iff (h : StoresAgree env now l r)
    (hp : Portable env l r now .metricsGetAll) {backend : BackendId} {metrics : BackendMetrics} :
    (backend, metrics) ∈ ((r.mget now (scanKeys env now metricsPrefix r)).filterMap id).filterMap
        (readStoredMetrics env) ↔
      (backend, metrics) ∈ l.metrics.liveEntries (now / 1000) := by
  rw [Expiring.mem_liveEntries, List.mem_filterMap]
  constructor
  · rintro ⟨v, hv, hread⟩
    rcases mem_mget_scan.1 hv with ⟨s, hget⟩
    rcases Expiring.get_eq_some.1 hget with ⟨d, hfast, hlt⟩
    -- the key is a backend's, and its entry is in memory too
    rcases h.metricsKeys _ _ hfast (kindOf_append (by decide) s) with ⟨b, hkey⟩
    rw [hkey] at hfast
    rcases h.metrics.slow_of_fast b v d hfast hlt with ⟨b', m, hkey', hslow, rfl⟩
    have hreadable := h.readable b' m _ hslow
    simp only [readStoredMetrics, hreadable, Option.some.injEq, Prod.mk.injEq] at hread
    rcases hread with ⟨rfl, rfl⟩
    exact Expiring.get_eq_some.2 ⟨_, hslow, hp b _ d hfast hlt⟩
  · intro hget
    rcases Expiring.get_eq_some.1 hget with ⟨e, hslow, hlt⟩
    rcases h.metrics.fast_of_slow backend metrics e hslow hlt with ⟨d, hfast, rfl⟩
    refine ⟨.metricsJson backend metrics, mem_mget_scan.2 ⟨backend.display, ?_⟩, ?_⟩
    · exact Expiring.get_eq_some.2 ⟨d, hfast, Expiring.lt_of_div_lt hlt⟩
    · simp only [readStoredMetrics, h.readable backend metrics _ hslow]

theorem step_metricsGetAll (h : StoresAgree env now l r)
    (hp : Portable env l r now .metricsGetAll) : StepAgrees env l r now .metricsGetAll := by
  have hfun : ∀ b m m', (b, m) ∈ l.metrics.liveEntries (now / 1000) →
      (b, m') ∈ l.metrics.liveEntries (now / 1000) → m = m' := by
    intro b m m' hm hm'
    rw [Expiring.mem_liveEntries] at hm hm'
    rw [hm] at hm'
    exact Option.some.inj hm'
  have heq : l.metricsGetAll (now / 1000) = RedisSharedState.metricsGetAll env now r := by
    funext b
    unfold LocalSharedState.metricsGetAll RedisSharedState.metricsGetAll
    ext m
    rw [LastWrite.apply_empty_eq_some hfun, LastWrite.apply_empty_eq_some, mem_metrics_iff h hp]
    intro b m m' hm hm'
    rw [mem_metrics_iff h hp] at hm hm'
    exact hfun b m m' hm hm'
  refine ⟨?_, h⟩
  simp only [LocalSharedState.step, RedisSharedState.step, heq]
  exact .ok _

/-- The live registrations in memory are those that are read from Redis. -/
theorem mem_instances_iff (h : StoresAgree env now l r)
    (hsharp : ∀ id, Expiring.Sharp 1000 now r (instanceKey id)) {entry : InstanceEntry} :
    entry ∈ RedisSharedState.listInstances env now r ↔ entry ∈ l.listInstances (now / 1000) := by
  rw [RedisSharedState.listInstances, readInstances, LocalSharedState.listInstances,
    List.mem_filterMap, List.mem_map]
  constructor
  · rintro ⟨v, hv, hread⟩
    rcases mem_mget_scan.1 hv with ⟨s, hget⟩
    rcases Expiring.get_eq_some.1 hget with ⟨d, hfast, hlt⟩
    rcases h.instances.slow_of_fast ⟨s⟩ v d hfast hlt with ⟨id, e, hkey, hslow, rfl⟩
    rcases Option.some.inj hread with rfl
    refine ⟨(id, e), Expiring.mem_liveEntries.2 (Expiring.get_eq_some.2 ⟨_, hslow, ?_⟩), rfl⟩
    exact hsharp ⟨s⟩ _ d hfast hlt
  · rintro ⟨⟨id, e⟩, hmem, rfl⟩
    rcases Expiring.get_eq_some.1 (Expiring.mem_liveEntries.1 hmem) with ⟨x, hslow, hlt⟩
    rcases h.instances.fast_of_slow id e x hslow hlt with ⟨d, hfast, rfl⟩
    refine ⟨.instanceJson e, mem_mget_scan.2 ⟨id.str, ?_⟩, rfl⟩
    exact Expiring.get_eq_some.2 ⟨d, hfast, Expiring.lt_of_div_lt hlt⟩

/-- An instance is listed once from memory. -/
theorem nodup_listInstances (h : StoresAgree env now l r) (sec : Nat) :
    (l.listInstances sec).Nodup := by
  have hids : (l.listInstances sec).map (·.instanceId) = (l.instances.liveEntries sec).map Prod.fst := by
    rw [LocalSharedState.listInstances, List.map_map]
    apply List.map_congr_left
    rintro ⟨id, e⟩ hmem
    rcases Expiring.get_eq_some.1 (Expiring.mem_liveEntries.1 hmem) with ⟨x, hslow, _⟩
    exact h.keyed id e x hslow
  refine List.Nodup.of_map (·.instanceId) ?_
  rw [hids]
  exact Expiring.nodup_liveEntries l.instances sec

/-- If the scan returns no key twice, an instance is listed once from Redis. -/
theorem nodup_redis_listInstances (h : StoresAgree env now l r)
    (hscan : (scanKeys env now instancePrefix r).Nodup) :
    (RedisSharedState.listInstances env now r).Nodup := by
  have hlist : RedisSharedState.listInstances env now r =
      (scanKeys env now instancePrefix r).filterMap fun k => (r.get now k).bind readInstance := by
    rw [RedisSharedState.listInstances, readInstances, Keyspace.mget, List.filterMap_map,
      List.filterMap_filterMap]
    rfl
  have hsub : (((RedisSharedState.listInstances env now r).map fun e => instanceKey e.instanceId).Sublist
      ((scanKeys env now instancePrefix r).map id)) := by
    rw [hlist]
    apply Expiring.map_filterMap_sublist
    -- an entry tells the key it was read from
    intro k hk e he
    rcases ((env.mem_scan r now instancePrefix k).1 hk).2 with ⟨s, rfl⟩
    rcases Option.bind_eq_some_iff.1 he with ⟨v, hget, hread⟩
    rcases Expiring.get_eq_some.1 hget with ⟨d, hfast, hlt⟩
    rcases h.instances.slow_of_fast ⟨s⟩ v d hfast hlt with ⟨id', e', hkey, hslow, rfl⟩
    rcases Option.some.inj hread with rfl
    rw [h.keyed id' e' _ hslow]
    exact hkey
  rw [List.map_id] at hsub
  exact List.Nodup.of_map _ (hsub.nodup hscan)

theorem step_listInstances (h : StoresAgree env now l r)
    (hp : Portable env l r now .listInstances) : StepAgrees env l r now .listInstances := by
  rcases hp with ⟨hsharp, hscan⟩
  refine ⟨.instances ?_, h⟩
  rw [List.perm_ext_iff_of_nodup (nodup_listInstances h _) (nodup_redis_listInstances h hscan)]
  intro entry
  exact (mem_instances_iff h hsharp).symm

/-- A portable operation is carried out alike by both stores. -/
theorem step_agrees (h : StoresAgree env now l r) {op : SharedOp} (hp : Portable env l r now op) :
    StepAgrees env l r now op := by
  cases op with
  | registerInstance entry ttl => exact step_registerInstance h hp
  | heartbeat id ttl => exact step_heartbeat h hp
  | listInstances => exact step_listInstances h hp
  | deregisterInstance id => exact step_deregisterInstance h id
  | sessionSet session backend ttl => exact step_sessionSet h hp
  | sessionGet session => exact step_sessionGet h hp
  | prefixHistorySet prefixHash entry ttl => exact step_prefixHistorySet h hp
  | prefixHistoryGet prefixHash => exact step_prefixHistoryGet h hp
  | tryLock key holder ttl => exact step_tryLock h hp
  | unlock key holder => exact step_unlock h key holder
  | metricsGet backend => exact step_metricsGet h hp
  | metricsSet backend metrics ttl => exact step_metricsSet h hp
  | metricsGetAll => exact step_metricsGetAll h hp

end Step

/-! ## Runs -/

/-- The results of operations on the store in memory, each at a time in Unix milliseconds. -/
def LocalSharedState.results (s : LocalSharedState) : List (Nat × SharedOp) → List SharedResult
  | [] => []
  | (now, op) :: ops => (s.step (now / 1000) op).1 :: LocalSharedState.results (s.step (now / 1000) op).2 ops

/-- The results of operations on Redis. -/
def RedisSharedState.results (env : RedisEnv) (r : Keyspace) : List (Nat × SharedOp) → List SharedResult
  | [] => []
  | (now, op) :: ops =>
    (RedisSharedState.step env now r op).1 ::
      RedisSharedState.results env (RedisSharedState.step env now r op).2 ops

/-- An operation on both stores. -/
def stepBoth (env : RedisEnv) (s : LocalSharedState × Keyspace) (ev : Nat × SharedOp) :
    LocalSharedState × Keyspace :=
  ((s.1.step (ev.1 / 1000) ev.2).2, (RedisSharedState.step env ev.1 s.2 ev.2).2)

/-- Every operation of the run is portable when its turn comes. -/
def AllPortable (env : RedisEnv) (s : LocalSharedState × Keyspace) (ops : List (Nat × SharedOp)) :
    Prop :=
  Run.Each (stepBoth env) (fun s ev => Portable env s.1 s.2 ev.1 ev.2) s ops

/-- The times do not decrease. -/
def ClockOrdered (ops : List (Nat × SharedOp)) : Prop := ops.Pairwise fun ev ev' => ev.1 ≤ ev'.1

instance (ops : List (Nat × SharedOp)) : Decidable (ClockOrdered ops) :=
  inferInstanceAs (Decidable (List.Pairwise _ ops))

theorem sameResults_of_agree {env : RedisEnv} {now : Nat} {l : LocalSharedState} {r : Keyspace}
    {ops : List (Nat × SharedOp)} (h : StoresAgree env now l r) (hnow : ∀ ev ∈ ops, now ≤ ev.1)
    (hclock : ClockOrdered ops) (hp : AllPortable env (l, r) ops) :
    List.Forall₂ SameResult (l.results ops) (RedisSharedState.results env r ops) := by
  induction ops generalizing now l r with
  | nil => exact .nil
  | cons ev ops ih =>
    rcases ev with ⟨t, op⟩
    rcases hp with ⟨hop, hrest⟩
    have hle : now ≤ t := hnow _ List.mem_cons_self
    rcases List.pairwise_cons.1 hclock with ⟨hlater, hclock⟩
    rcases step_agrees (h.mono hle) hop with ⟨hsame, hagree⟩
    exact .cons hsame (ih hagree hlater hclock hrest)

/-- The two stores are interchangeable: they give the same results on every sequence of
operations under a common clock. -/
def Interchangeable (env : RedisEnv) : Prop :=
  ∀ ops, ClockOrdered ops →
    List.Forall₂ SameResult (LocalSharedState.new.results ops) (RedisSharedState.results env ∅ ops)

/-- JSON has no text for a number that is not finite. -/
def F64.isFinite (x : F64) : Bool := x.extractLsb' 52 11 != 0x7FF#11

/-- An environment: keys are scanned in the order they are kept in, in one batch, and finite
numbers are read back as they were. -/
def RedisEnv.inOrder : RedisEnv where
  scan r now pfx :=
    [r.keys.filter fun k => (r.get now k).isSome && pfx.toList.isPrefixOf k.toList]
  mem_scan r now pfx k := by
    rw [List.flatten_singleton, List.mem_filter, Bool.and_eq_true, Option.isSome_iff_exists,
      List.isPrefixOf_iff_prefix]
    constructor
    · rintro ⟨_, hlive, t, ht⟩
      refine ⟨hlive, String.ofList t, ?_⟩
      rw [← String.toList_inj, String.toList_append, String.toList_ofList, ht]
    · rintro ⟨⟨v, hget⟩, s, rfl⟩
      rcases Expiring.get_eq_some.1 hget with ⟨d, hlookup, _⟩
      refine ⟨AList.lookup_isSome.1 (by rw [hlookup]; rfl), ⟨v, hget⟩, s.toList, ?_⟩
      rw [String.toList_append]
  readMetrics m :=
    if [m.gpuUtilization, m.latency.p50Ms, m.latency.p99Ms, m.latency.p999Ms].all F64.isFinite then
      .ok m
    else .error "invalid type: null, expected f64"
  refused := "ResponseError: invalid expire time in 'set' command"
  badJson := "missing field"

/-- A heartbeat of an instance that is not registered: the store in memory is content, Redis is
not. -/
theorem not_interchangeable : ¬Interchangeable .inOrder := by
  intro h
  have hsame := h [(0, .heartbeat ⟨"g1"⟩ (.fromSecs 60))] (by decide +kernel)
  cases hsame with
  | cons hop _ =>
    have hredis : (RedisSharedState.step .inOrder 0 ∅ (.heartbeat ⟨"g1"⟩ (.fromSecs 60))).1 =
        .error (.notFound "instance not found in shared state: g1") := rfl
    rw [hredis] at hop
    exact absurd hop nofun

/-- Portable operations give the same results from both stores. -/
theorem sameResults_of_portable (env : RedisEnv) (ops : List (Nat × SharedOp))
    (hclock : ClockOrdered ops) (hp : AllPortable env (.new, ∅) ops) :
    List.Forall₂ SameResult (LocalSharedState.new.results ops)
      (RedisSharedState.results env ∅ ops) :=
  sameResults_of_agree (.new env 0) (fun _ _ => Nat.zero_le _) hclock hp

/-- A lock taken, asked for by somebody else and given back. -/
theorem sameResults_of_lock :
    List.Forall₂ SameResult
      (LocalSharedState.new.results [(1000, .tryLock "leader" "node-a" (.fromSecs 60)),
        (2000, .tryLock "leader" "node-b" (.fromSecs 60)), (3000, .unlock "leader" "node-a")])
      (RedisSharedState.results .inOrder ∅ [(1000, .tryLock "leader" "node-a" (.fromSecs 60)),
        (2000, .tryLock "leader" "node-b" (.fromSecs 60)), (3000, .unlock "leader" "node-a")]) := by
  refine sameResults_of_portable .inOrder _ (by decide) ⟨?_, ?_, trivial, trivial⟩
  · refine ⟨by decide, ?_, by decide, by decide⟩
    intro x d hlookup
    exact absurd hlookup nofun
  · refine ⟨by decide, ?_, by decide +kernel, by decide +kernel⟩
    intro x d hlookup hlt
    have hentry : AList.lookup (lockKey "leader") (stepBoth .inOrder (.new, ∅)
        (1000, .tryLock "leader" "node-a" (.fromSecs 60))).2 = some (.text "node-a", 61000) := by
      decide +kernel
    rw [hentry] at hlookup
    cases hlookup
    omega

end HierKvGateway
