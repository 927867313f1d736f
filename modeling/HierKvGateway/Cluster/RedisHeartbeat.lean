import HierKvGateway.Cluster.RedisState
import HierKvGateway.Lib.Run
import HierKvGateway.Lib.Update

/-!
# Cluster.RedisHeartbeat — heartbeats while instances come and go

A heartbeat on Redis is three commands: `EXPIRE`, `GET` and `SET EX` of what was read with a
new time. Other tasks and other gateways register and deregister the instance in between
(`HeartbeatRace.system`).

`HeartbeatRace.faithful_of_undisturbed`: Redis keeps the latest registration of an instance, and
none after it was deregistered, as long as it is not registered or deregistered between the `GET`
and the `SET EX` of one of its heartbeats.
-/

namespace HierKvGateway

open RedisSharedState

/-- A call of a task. -/
inductive RegistryCall where
  | register (entry : InstanceEntry) (ttl : Duration)
  | deregister (id : InstanceId)
  | heartbeat (id : InstanceId) (ttl : Duration)

/-- How far a heartbeat has got. -/
inductive HeartbeatPhase where
  | idle
  /-- `EXPIRE` found the key. -/
  | refreshed
  /-- `GET` returned an entry. -/
  | read (entry : InstanceEntry)
  | done
deriving DecidableEq

/-- The server and the tasks that use it. -/
structure HeartbeatRace (ι : Type) where
  keys : Keyspace
  /-- Unix milliseconds. -/
  clock : Nat
  phase : ι → HeartbeatPhase
  /-- The latest registration of each instance that has not been deregistered since. -/
  registered : InstanceId → Option InstanceEntry

namespace HeartbeatRace

variable {ι : Type}

/-- The steps. -/
inductive Label (ι : Type) where
  | tick (now : Nat)
  /-- A registration or deregistration: one command. -/
  | command (i : ι)
  | expire (i : ι)
  | get (i : ι)
  | set (i : ι)

/-- The call is a heartbeat in this phase. -/
def InPhase (calls : ι → RegistryCall) (s : HeartbeatRace ι) (i : ι) (p : HeartbeatPhase) : Prop :=
  (∃ id ttl, calls i = .heartbeat id ttl) ∧ s.phase i = p

def guard (calls : ι → RegistryCall) : Label ι → HeartbeatRace ι → Prop
  | .tick now, s => s.clock ≤ now
  | .command _, _ => True
  | .expire i, s => InPhase calls s i .idle
  | .get i, s => InPhase calls s i .refreshed
  | .set i, s => ∃ entry, InPhase calls s i (.read entry)

section System

variable [DecidableEq ι]

/-- `register_instance`; a refused command registers nothing. -/
def register (entry : InstanceEntry) (ttl : Duration) (s : HeartbeatRace ι) : HeartbeatRace ι :=
  match s.keys.setEx s.clock (instanceKey entry.instanceId) (.instanceJson entry) (ttlSecs ttl) with
  | some keys =>
    { s with
      keys := keys
      registered := Function.update s.registered entry.instanceId (some entry) }
  | none => s

/-- `deregister_instance`. -/
def deregister (id : InstanceId) (s : HeartbeatRace ι) : HeartbeatRace ι :=
  { s with
    keys := deregisterInstance id s.keys
    registered := Function.update s.registered id none }

/-- The first command of a heartbeat. -/
def expire (i : ι) (id : InstanceId) (ttl : Duration) (s : HeartbeatRace ι) : HeartbeatRace ι :=
  match s.keys.expire s.clock (instanceKey id) (asI64 (ttlSecs ttl)) with
  | some (true, keys) => { s with keys := keys, phase := Function.update s.phase i .refreshed }
  | some (false, keys) => { s with keys := keys, phase := Function.update s.phase i .done }
  | none => { s with phase := Function.update s.phase i .done }

/-- The second command of a heartbeat. -/
def get (i : ι) (id : InstanceId) (s : HeartbeatRace ι) : HeartbeatRace ι :=
  match s.keys.get s.clock (instanceKey id) with
  | some (.instanceJson entry) => { s with phase := Function.update s.phase i (.read entry) }
  | _ => { s with phase := Function.update s.phase i .done }

/-- The third command of a heartbeat. -/
def set (i : ι) (id : InstanceId) (ttl : Duration) (entry : InstanceEntry) (s : HeartbeatRace ι) :
    HeartbeatRace ι :=
  { s with
    keys := bumpHeartbeat s.clock id ttl (some (.instanceJson entry)) s.keys
    phase := Function.update s.phase i .done }

def update (calls : ι → RegistryCall) : Label ι → HeartbeatRace ι → HeartbeatRace ι
  | .tick now, s => { s with clock := now }
  | .command i, s =>
    match calls i with
    | .register entry ttl => s.register entry ttl
    | .deregister id => s.deregister id
    | .heartbeat _ _ => s
  | .expire i, s =>
    match calls i with
    | .heartbeat id ttl => s.expire i id ttl
    | _ => s
  | .get i, s =>
    match calls i, s.phase i with
    | .heartbeat id _, .refreshed => s.get i id
    | _, _ => s
  | .set i, s =>
    match calls i, s.phase i with
    | .heartbeat id ttl, .read entry => s.set i id ttl entry
    | _, _ => s

/-- No instance is registered. -/
structure Initial (s : HeartbeatRace ι) : Prop where
  keys : ∀ id, s.keys.lookup (instanceKey id) = none
  phase : ∀ i, s.phase i = .idle
  registered : ∀ id, s.registered id = none

/-- All interleavings of the commands. -/
def system (calls : ι → RegistryCall) : Lts (HeartbeatRace ι) (Label ι) where
  init := Initial
  guard := guard calls
  update := update calls

variable {calls : ι → RegistryCall} {s : HeartbeatRace ι} {i j : ι} {id id' : InstanceId}
  {ttl : Duration} {entry : InstanceEntry}

theorem update_expire (hcall : calls i = .heartbeat id ttl) :
    update calls (.expire i) s = s.expire i id ttl := by
  simp only [update, hcall]

theorem update_get (hcall : calls i = .heartbeat id ttl) (hi : s.phase i = .refreshed) :
    update calls (.get i) s = s.get i id := by
  simp only [update, hcall, hi]

theorem update_set (hcall : calls i = .heartbeat id ttl) (hi : s.phase i = .read entry) :
    update calls (.set i) s = s.set i id ttl entry := by
  simp only [update, hcall, hi]

/-- A heartbeat that is done does nothing more. -/
theorem update_done (hi : s.phase i = .done) :
    update calls (.get i) s = s ∧ update calls (.set i) s = s := by
  simp only [update, hi]
  cases calls i with
  | register entry ttl => exact ⟨rfl, rfl⟩
  | deregister id => exact ⟨rfl, rfl⟩
  | heartbeat id ttl => exact ⟨rfl, rfl⟩

/-- Without interference, the three commands are `heartbeat`. -/
theorem keys_heartbeat_alone (env : RedisEnv) (hcall : calls i = .heartbeat id ttl) :
    (update calls (.set i) (update calls (.get i) (update calls (.expire i) s))).keys =
      (RedisSharedState.heartbeat env s.clock id ttl s.keys).2 := by
  have hself : ∀ p, Function.update s.phase i p i = p := fun p => Function.update_self i p s.phase
  rw [update_expire hcall, expire, RedisSharedState.heartbeat]
  rcases s.keys.expire s.clock (instanceKey id) (asI64 (ttlSecs ttl)) with _ | ⟨_ | _, keys⟩
  · dsimp only
    rw [(update_done (hself .done)).1, (update_done (hself .done)).2]
  · dsimp only
    rw [(update_done (hself .done)).1, (update_done (hself .done)).2]
  · dsimp only
    rw [update_get hcall (hself .refreshed), get]
    dsimp only
    rcases keys.get s.clock (instanceKey id) with _ | v
    · dsimp only
      rw [(update_done (Function.update_self i _ _)).2]
      rfl
    · cases v with
      | instanceJson entry =>
        dsimp only
        rw [update_set hcall (Function.update_self i _ _)]
        rfl
      | _ =>
        -- not an instance: nothing is written back
        dsimp only
        rw [(update_done (Function.update_self i _ _)).2]
        rfl

/-! ## What Redis says of an instance -/

/-- The same registration, heartbeat times apart. -/
def SameRegistration (e e' : InstanceEntry) : Prop :=
  e.instanceId = e'.instanceId ∧ e.region = e'.region ∧ e.addr = e'.addr

/-- The entry is the latest registration of the instance. -/
def Registered (s : HeartbeatRace ι) (id : InstanceId) (e : InstanceEntry) : Prop :=
  e.instanceId = id ∧ ∃ r, s.registered id = some r ∧ SameRegistration e r

/-- An instance that is not registered is not listed, and what is kept of one that is registered
is its latest registration. -/
structure Faithful (s : HeartbeatRace ι) : Prop where
  /-- The keys are any a scan may have returned before. -/
  gone : ∀ id, s.registered id = none → ∀ keys, (∀ k ∈ keys, ∃ t, k = instancePrefix ++ t) →
    ∀ entry ∈ readInstances s.clock keys s.keys, entry.instanceId ≠ id
  latest : ∀ id r v, s.registered id = some r →
    s.keys.get s.clock (instanceKey id) = some v → ∃ e, v = .instanceJson e ∧ SameRegistration e r

/-- An instance is not registered or deregistered between the `GET` and the `SET EX` of one of its
heartbeats. -/
def Undisturbed (calls : ι → RegistryCall) (s : HeartbeatRace ι) : Label ι → Prop
  | .command i =>
    match calls i with
    | .register entry _ => ∀ j ttl e, calls j = .heartbeat entry.instanceId ttl → s.phase j ≠ .read e
    | .deregister id => ∀ j ttl e, calls j = .heartbeat id ttl → s.phase j ≠ .read e
    | .heartbeat _ _ => True
  | _ => True

/-- What Redis keeps and what heartbeats have read are the latest registrations. -/
structure Traced (calls : ι → RegistryCall) (s : HeartbeatRace ι) : Prop where
  kept : ∀ id v d, s.keys.lookup (instanceKey id) = some (v, d) →
    ∃ e, v = .instanceJson e ∧ s.Registered id e
  read : ∀ i id ttl e, calls i = .heartbeat id ttl → s.phase i = .read e → s.Registered id e

omit [DecidableEq ι] in
theorem Traced.faithful (h : Traced calls s) : Faithful s where
  gone := by
    intro id hnone keys hkeys entry hentry
    rcases List.mem_filterMap.1 hentry with ⟨v, hv, hread⟩
    rw [Keyspace.mget, List.filterMap_map, List.mem_filterMap] at hv
    rcases hv with ⟨k, hk, hget⟩
    rcases hkeys k hk with ⟨t, rfl⟩
    rcases Expiring.get_eq_some.1 hget with ⟨d, hlookup, _⟩
    rcases h.kept ⟨t⟩ v d hlookup with ⟨e, rfl, hid, r, hr, _⟩
    rcases Option.some.inj hread with rfl
    rintro rfl
    rw [hid, hr] at hnone
    exact absurd hnone nofun
  latest := by
    intro id r v hr hget
    rcases Expiring.get_eq_some.1 hget with ⟨d, hlookup, _⟩
    rcases h.kept id v d hlookup with ⟨e, rfl, _, r', hr', hsame⟩
    rw [hr] at hr'
    cases hr'
    exact ⟨e, rfl, hsame⟩

omit [DecidableEq ι] in
/-- A value written under an instance's key: the others keep theirs. -/
theorem Traced.kept_put (h : Traced calls s) {v : RedisValue} {d : Nat}
    (hv : ∃ e, v = .instanceJson e ∧ s.Registered id e) :
    ∀ id' v' d', (s.keys.put (instanceKey id) v d).lookup (instanceKey id') = some (v', d') →
      ∃ e, v' = .instanceJson e ∧ s.Registered id' e := by
  intro id' v' d' hlookup
  rcases Expiring.lookup_of_put hlookup with ⟨hkey, heq⟩ | ⟨-, hlookup⟩
  · rcases instanceKey_injective hkey with rfl
    cases heq
    exact hv
  · exact h.kept id' v' d' hlookup

omit [DecidableEq ι] in
theorem Traced.kept_remove (h : Traced calls s) (id : InstanceId) :
    ∀ id' v d, (s.keys.remove (instanceKey id)).lookup (instanceKey id') = some (v, d) →
      ∃ e, v = .instanceJson e ∧ s.Registered id' e := by
  intro id' v d hlookup
  exact h.kept id' v d (Expiring.lookup_of_remove hlookup).2

/-- A heartbeat moves on; if it has read an entry, that is the latest registration. -/
theorem Traced.read_update (h : Traced calls s) (hcall : calls i = .heartbeat id ttl)
    {p : HeartbeatPhase} (hp : ∀ e, p = .read e → s.Registered id e) :
    ∀ j id' ttl' e, calls j = .heartbeat id' ttl' → Function.update s.phase i p j = .read e →
      s.Registered id' e := by
  intro j id' ttl' e hcallj hj
  rcases Function.update_cases hj with ⟨rfl, hpe⟩ | ⟨-, hj⟩
  · rw [hcall] at hcallj
    cases hcallj
    exact hp e hpe
  · exact h.read j id' ttl' e hcallj hj

omit [DecidableEq ι] in
theorem registered_update_self (s : HeartbeatRace ι) (keys : Keyspace) (entry : InstanceEntry) :
    Registered { s with
      keys := keys
      registered := Function.update s.registered entry.instanceId (some entry) }
      entry.instanceId entry :=
  ⟨rfl, entry, Function.update_self _ _ _, rfl, rfl, rfl⟩

omit [DecidableEq ι] in
theorem registered_update_of_ne {keys : Keyspace} {r : Option InstanceEntry} (hid : id' ≠ id) :
    Registered { s with keys := keys, registered := Function.update s.registered id r } id' entry ↔
      s.Registered id' entry := by
  unfold Registered
  dsimp only
  rw [Function.update_of_ne hid]

omit [DecidableEq ι] in
theorem traced_register (h : Traced calls s)
    (hquiet : ∀ j ttl e, calls j = .heartbeat entry.instanceId ttl → s.phase j ≠ .read e) :
    Traced calls (s.register entry ttl) := by
  unfold register Keyspace.setEx
  split
  · next keys hkeys =>
    split at hkeys
    · exact absurd hkeys nofun
    · cases hkeys
      constructor
      · intro id' v d hlookup
        rcases Expiring.lookup_of_put hlookup with ⟨hkey, heq⟩ | ⟨hkey, hlookup⟩
        · rcases instanceKey_injective hkey with rfl
          cases heq
          exact ⟨entry, rfl, registered_update_self s _ entry⟩
        · rcases h.kept id' v d hlookup with ⟨e, hv, hreg⟩
          have hid : id' ≠ entry.instanceId := by
            rintro rfl
            exact hkey rfl
          exact ⟨e, hv, (registered_update_of_ne hid).2 hreg⟩
      · intro j id' ttl' e hcall hj
        have hid : id' ≠ entry.instanceId := by
          rintro rfl
          exact hquiet j ttl' e hcall hj
        exact (registered_update_of_ne hid).2 (h.read j id' ttl' e hcall hj)
  · exact h

omit [DecidableEq ι] in
theorem traced_deregister (h : Traced calls s)
    (hquiet : ∀ j ttl e, calls j = .heartbeat id ttl → s.phase j ≠ .read e) :
    Traced calls (s.deregister id) where
  kept := by
    intro id' v d hlookup
    have hid : id' ≠ id := by
      rintro rfl
      exact (Expiring.lookup_of_remove hlookup).1 rfl
    rcases h.kept_remove id id' v d hlookup with ⟨e, hv, hreg⟩
    exact ⟨e, hv, (registered_update_of_ne hid).2 hreg⟩
  read := by
    intro j id' ttl e hcall hj
    have hid : id' ≠ id := by
      rintro rfl
      exact hquiet j ttl e hcall hj
    exact (registered_update_of_ne hid).2 (h.read j id' ttl e hcall hj)

/-- `EXPIRE` keeps the value of the key, or the key is gone. -/
theorem expire_cases {r r' : Keyspace} {now : Nat} {k : String} {secs : Int} {b : Bool}
    (h : r.expire now k secs = some (b, r')) :
    r' = r ∨ r' = r.remove k ∨ ∃ v d, r.get now k = some v ∧ r' = r.put k v d := by
  unfold Keyspace.expire at h
  split at h
  · exact absurd h nofun
  · split at h
    · cases h
      exact Or.inl rfl
    · next v hget =>
      split at h
      · cases h
        exact Or.inr (Or.inl rfl)
      · cases h
        exact Or.inr (Or.inr ⟨v, _, hget, rfl⟩)

omit [DecidableEq ι] in
theorem kept_expire (h : Traced calls s) {keys : Keyspace} {secs : Int} {b : Bool}
    (hexpire : s.keys.expire s.clock (instanceKey id) secs = some (b, keys)) :
    ∀ id' v d, keys.lookup (instanceKey id') = some (v, d) →
      ∃ e, v = .instanceJson e ∧ s.Registered id' e := by
  rcases expire_cases hexpire with rfl | rfl | ⟨v, d, hget, rfl⟩
  · exact h.kept
  · exact h.kept_remove id
  · rcases Expiring.get_eq_some.1 hget with ⟨d', hlookup, _⟩
    exact h.kept_put (h.kept id v d' hlookup)

theorem traced_expire (h : Traced calls s) (hcall : calls i = .heartbeat id ttl) :
    Traced calls (s.expire i id ttl) := by
  unfold expire
  split
  · next keys hexpire => exact ⟨kept_expire h hexpire, h.read_update hcall nofun⟩
  · next keys hexpire => exact ⟨kept_expire h hexpire, h.read_update hcall nofun⟩
  · exact ⟨h.kept, h.read_update hcall nofun⟩

theorem traced_get (h : Traced calls s) (hcall : calls i = .heartbeat id ttl) :
    Traced calls (s.get i id) := by
  unfold get
  split
  · next entry hget =>
    refine ⟨h.kept, h.read_update hcall ?_⟩
    intro e he
    cases he
    rcases Expiring.get_eq_some.1 hget with ⟨d, hlookup, _⟩
    rcases h.kept id _ d hlookup with ⟨e, heq, hreg⟩
    cases heq
    exact hreg
  · exact ⟨h.kept, h.read_update hcall nofun⟩

theorem traced_set (h : Traced calls s) (hcall : calls i = .heartbeat id ttl)
    (hi : s.phase i = .read entry) : Traced calls (s.set i id ttl entry) := by
  refine ⟨?_, h.read_update hcall nofun⟩
  show ∀ id' v d, (bumpHeartbeat s.clock id ttl (some (.instanceJson entry)) s.keys).lookup _ = _ → _
  unfold bumpHeartbeat Keyspace.setEx
  dsimp only
  split
  · exact h.kept
  · -- the entry read is still the latest registration
    rcases h.read i id ttl entry hcall hi with ⟨hid, r, hr, hsame⟩
    exact h.kept_put ⟨_, rfl, hid, r, hr, hsame⟩

omit [DecidableEq ι] in
theorem traced_initial (h : Initial s) : Traced calls s where
  kept := by
    intro id v d hlookup
    rw [h.keys id] at hlookup
    exact absurd hlookup nofun
  read := by
    intro i id ttl e _ hi
    rw [h.phase i] at hi
    exact absurd hi nofun

theorem traced_step (h : Traced calls s) {l : Label ι} (hg : guard calls l s)
    (hquiet : Undisturbed calls s l) : Traced calls (update calls l s) := by
  cases l with
  | tick now => exact ⟨h.kept, h.read⟩
  | command i =>
    unfold Undisturbed at hquiet
    cases hcall : calls i with
    | register entry ttl =>
      simp only [hcall] at hquiet
      simp only [update, hcall]
      exact traced_register h hquiet
    | deregister id =>
      simp only [hcall] at hquiet
      simp only [update, hcall]
      exact traced_deregister h hquiet
    | heartbeat id ttl =>
      simp only [update, hcall]
      exact h
  | expire i =>
    rcases hg with ⟨⟨id, ttl, hcall⟩, _⟩
    rw [update_expire hcall]
    exact traced_expire h hcall
  | get i =>
    rcases hg with ⟨⟨id, ttl, hcall⟩, hi⟩
    rw [update_get hcall hi]
    exact traced_get h hcall
  | set i =>
    rcases hg with ⟨entry, ⟨id, ttl, hcall⟩, hi⟩
    rw [update_set hcall hi]
    exact traced_set h hcall hi

/-- What Redis says is faithful in runs whose steps are undisturbed. -/
theorem faithful_of_undisturbed
    (hs : ((system calls).restrict (Undisturbed calls)).Reachable s) : Faithful s := by
  have htraced : Traced calls s := by
    refine Lts.invariant (P := Traced calls) ?_ ?_ s hs
    · intro s h
      exact traced_initial h
    · intro s l h hstep
      exact traced_step h hstep.1 hstep.2
  exact htraced.faithful
end System

/-! ## Heartbeats that come too late -/

/-- No instance is registered and no call has begun. -/
def fresh (ι : Type) : HeartbeatRace ι := ⟨∅, 0, fun _ => .idle, fun _ => none⟩

theorem initial_fresh (ι : Type) : Initial (fresh ι) := ⟨fun _ => rfl, fun _ => rfl, fun _ => rfl⟩

/-- The registration of an instance. -/
def sampleEntry : InstanceEntry := ⟨⟨"g1"⟩, ⟨"eu"⟩, "127.0.0.1:7000", 0⟩

/-- An instance is registered, sends a heartbeat and is deregistered. -/
def leaving : Fin 3 → RegistryCall
  | 0 => .register sampleEntry (.fromSecs 60)
  | 1 => .heartbeat ⟨"g1"⟩ (.fromSecs 60)
  | 2 => .deregister ⟨"g1"⟩

/-- A heartbeat that nothing comes between keeps the registration. -/
theorem faithful_of_alone :
    Faithful ((system leaving).run (fresh _) [.command 0, .expire 1, .get 1, .set 1]) := by
  have hidle : ∀ j e, (fresh (Fin 3)).phase j ≠ .read e := nofun
  have hrun : ((system leaving).restrict (Undisturbed leaving)).Enabled (fresh _)
      [.command 0, .expire 1, .get 1, .set 1] := by
    refine ⟨⟨trivial, ?_⟩, ⟨⟨⟨_, _, rfl⟩, by decide +kernel⟩, trivial⟩,
      ⟨⟨⟨_, _, rfl⟩, by decide +kernel⟩, trivial⟩,
      ⟨⟨sampleEntry, ⟨_, _, rfl⟩, by decide +kernel⟩, trivial⟩, trivial⟩
    intro j ttl e _
    exact hidle j e
  exact faithful_of_undisturbed (Lts.Reachable.run (.init (initial_fresh _)) hrun)

/-- The instance is deregistered between the `GET` and the `SET EX` of its heartbeat, which
registers it again. -/
theorem deregistered_resurrected : ¬∀ s, (system leaving).Reachable s → Faithful s := by
  intro h
  have hstart : (system leaving).Reachable (fresh _) := .init (initial_fresh _)
  have henabled : (system leaving).Enabled (fresh _)
      [.command 0, .expire 1, .get 1, .command 2, .set 1] :=
    ⟨trivial, ⟨⟨_, _, rfl⟩, by decide +kernel⟩, ⟨⟨_, _, rfl⟩, by decide +kernel⟩, trivial,
      ⟨sampleEntry, ⟨_, _, rfl⟩, by decide +kernel⟩, trivial⟩
  have hgone := (h _ (hstart.run henabled)).gone ⟨"g1"⟩ (by decide +kernel) [instanceKey ⟨"g1"⟩]
    (fun k hk => ⟨"g1", List.mem_singleton.1 hk⟩) sampleEntry (by decide +kernel)
  exact hgone rfl

end HeartbeatRace

end HierKvGateway
