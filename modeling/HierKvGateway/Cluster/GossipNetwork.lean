import HierKvGateway.Cluster.Gossip
import HierKvGateway.Lib.Run
import Mathlib.Logic.Function.Basic

/-!
# Cluster.GossipNetwork — engines that exchange messages

Any number of engines, each with its own member list and handler, and the
messages on their way between them. A message may be delivered at any time to an
engine that listens at its target address, or be lost, or be duplicated; ticks
and metadata changes happen at any time. The clocks are not tied to each other:
each step reads whatever time it reads.

Three inversion lemmas say what a step can do: `list_step` to a member list,
`record_step` where a record in one can come from, `packet_step` where a message
can come from.
-/

namespace HierKvGateway

/-- The engines, each created under its own id. -/
structure Fleet where
  engine : InstanceId → GossipEngine
  selfId : ∀ i, (engine i).selfId = i

attribute [simp] Fleet.selfId

/-- The state of all engines, and the messages on their way. `had` remembers
which digests each handler has answered with. -/
structure GossipNetwork where
  running : InstanceId → Bool
  members : InstanceId → MemberList
  handler : InstanceId → GossipHandler
  had : InstanceId → List MetaDigest
  net : List Packet

namespace GossipNetwork

/-- The steps. -/
inductive Label where
  /-- An engine starts, with its listener bound. -/
  | start (i : InstanceId) (now : Nat)
  /-- The metadata behind a handler changes. -/
  | store (i : InstanceId) (handler : GossipHandler)
  /-- One `Meet` of `join_cluster` or `meet_peer`. -/
  | meet (i : InstanceId) (target : String)
  | requestSync (i : InstanceId) (target : String) (keys : List String)
  /-- A gossip tick that finds the candidates shuffled as `chosen`. -/
  | gossip (i : InstanceId) (chosen : List ClusterMember) (now : Nat)
  | probe (i : InstanceId) (now : Nat)
  /-- An engine receives the `n`-th message. -/
  | deliver (i : InstanceId) (n : Nat) (now : Nat)
  | lose (n : Nat)
  | duplicate (n : Nat)

variable (F : Fleet)

def guard : Label → GossipNetwork → Prop
  | .start i _, s => s.running i = false ∧ (F.engine i).selfAddr ≠ ""
  | .store _ _, _ => True
  | .meet i _, s => s.running i = true
  | .requestSync i _ _, s => s.running i = true
  | .gossip i chosen _, s =>
    s.running i = true ∧ chosen.Perm ((F.engine i).candidates (s.members i))
  | .probe i _, s => s.running i = true
  | .deliver i n _, s =>
    s.running i = true ∧ s.net[n]?.map (·.target) = some (F.engine i).selfAddr
  | .lose n, s => n < s.net.length
  | .duplicate n, s => n < s.net.length

instance : ∀ l s, Decidable (guard F l s)
  | .start i _, s =>
    inferInstanceAs (Decidable (s.running i = false ∧ (F.engine i).selfAddr ≠ ""))
  | .store _ _, _ => .isTrue trivial
  | .meet i _, s => inferInstanceAs (Decidable (s.running i = true))
  | .requestSync i _ _, s => inferInstanceAs (Decidable (s.running i = true))
  | .gossip i chosen _, s =>
    inferInstanceAs (Decidable (s.running i = true ∧
      chosen.Perm ((F.engine i).candidates (s.members i))))
  | .probe i _, s => inferInstanceAs (Decidable (s.running i = true))
  | .deliver i n _, s =>
    inferInstanceAs (Decidable (s.running i = true ∧
      s.net[n]?.map (·.target) = some (F.engine i).selfAddr))
  | .lose n, s => inferInstanceAs (Decidable (n < s.net.length))
  | .duplicate n, s => inferInstanceAs (Decidable (n < s.net.length))

/-- Replace the list of an engine. -/
def setMembers (s : GossipNetwork) (i : InstanceId) (l : MemberList) : GossipNetwork :=
  { s with members := Function.update s.members i l }

/-- Put messages on their way. -/
def send (s : GossipNetwork) (ps : List Packet) : GossipNetwork := { s with net := s.net ++ ps }

section Fields

variable (s : GossipNetwork) (l : MemberList) (ps : List Packet) {i j : InstanceId}

@[simp] theorem setMembers_self : (s.setMembers i l).members i = l := by
  simp [setMembers]

theorem setMembers_of_ne (h : i ≠ j) : (s.setMembers j l).members i = s.members i := by
  simp [setMembers, h]

@[simp] theorem send_members : (s.send ps).members = s.members := rfl

end Fields

/-- An engine adds itself to its list. -/
def start (i : InstanceId) (now : Nat) (s : GossipNetwork) : GossipNetwork :=
  let e := F.engine i
  let self := .new e.selfId e.selfRegion e.selfAddr (s.handler i).currentMetaDigest now
  { s with running := Function.update s.running i true }.setMembers i ((s.members i).upsert self)

/-- What the `n`-th message tells an engine about its sender. -/
def contactAt (s : GossipNetwork) (i : InstanceId) (n : Nat) : Option Contact :=
  s.net[n]?.bind (·.msg.contact (s.handler i).currentMetaDigest)

/-- What an engine does with a message. -/
def receive (i : InstanceId) (now : Nat) (s : GossipNetwork) (msg : GossipMessage) :
    GossipEngine.Dispatched :=
  (F.engine i).receive (s.handler i) (s.members i) now msg

/-- The `n`-th message leaves the network and is handled. -/
def deliver (i : InstanceId) (n now : Nat) (s : GossipNetwork) : GossipNetwork :=
  match s.net[n]? with
  | none => s
  | some p =>
    let d := s.receive F i now p.msg
    { s with net := s.net.eraseIdx n }.setMembers i d.members |>.send d.sends

def update : Label → GossipNetwork → GossipNetwork
  | .start i now, s => s.start F i now
  | .store i handler, s =>
    { s with
      handler := Function.update s.handler i handler
      had := Function.update s.had i (handler.currentMetaDigest :: s.had i) }
  | .meet i target, s =>
    s.send [⟨target, .meet (F.engine i).selfId (F.engine i).selfRegion (F.engine i).selfAddr⟩]
  | .requestSync i target keys, s => s.send [⟨target, .syncRequest (F.engine i).selfId keys⟩]
  | .gossip i chosen now, s => s.send ((F.engine i).pings (s.handler i) chosen now)
  | .probe i now, s => s.setMembers i ((F.engine i).probeScan now (s.members i))
  | .deliver i n now, s => s.deliver F i n now
  | .lose n, s => { s with net := s.net.eraseIdx n }
  | .duplicate n, s => s.send s.net[n]?.toList

/-- Nothing runs, nobody is known, and every handler answers the default digest,
as those of the source do when they are created. -/
structure Initial (s : GossipNetwork) : Prop where
  running : ∀ i, s.running i = false
  members : ∀ i, s.members i = .new
  digest : ∀ i, (s.handler i).currentMetaDigest = .default
  had : ∀ i, s.had i = [.default]
  net : s.net = []

/-- All interleavings. -/
def system : Lts GossipNetwork Label where
  init := Initial
  guard := guard F
  update := update F

instance (l : Label) (s : GossipNetwork) : Decidable ((system F).guard l s) :=
  inferInstanceAs (Decidable (guard F l s))

/-- Before anything has happened, with the handlers of `NoopGossipHandler`. -/
def new : GossipNetwork where
  running := fun _ => false
  members := fun _ => .new
  handler := fun _ => ⟨.default, fun _ => []⟩
  had := fun _ => [.default]
  net := []

theorem initial_new : Initial new :=
  ⟨fun _ => rfl, fun _ => rfl, fun _ => rfl, fun _ => rfl, rfl⟩

/-! ## Where a record comes from -/

variable {F} {s : GossipNetwork} {i X : InstanceId} {m : ClusterMember} {l : Label}

/-- What a step makes of an engine's list. -/
inductive Listed (F : Fleet) (s : GossipNetwork) (i : InstanceId) : Label → MemberList → Prop
  | same {a} : Listed F s i a (s.members i)
  | started (now) : Listed F s i (.start i now) ((s.members i).upsert
      (.new (F.engine i).selfId (F.engine i).selfRegion (F.engine i).selfAddr
        (s.handler i).currentMetaDigest now))
  | probed (now) : Listed F s i (.probe i now) ((F.engine i).probeScan now (s.members i))
  | heard {n now c} : c ∈ s.contactAt i n → c.sender ≠ i →
      Listed F s i (.deliver i n now) ((s.members i).upsert ((s.members i).heard c now))

/-- A step changes at most the list of the engine that takes it. -/
theorem list_step (F : Fleet) (s : GossipNetwork) (l : Label) (i : InstanceId) :
    Listed F s i l ((update F l s).members i) := by
  cases l with
  | start j now =>
    by_cases hj : i = j
    · subst hj
      rw [update, start, setMembers_self]
      exact .started now
    · rw [update, start, setMembers_of_ne _ _ hj]
      exact .same
  | probe j now =>
    by_cases hj : i = j
    · subst hj
      rw [update, setMembers_self]
      exact .probed now
    · rw [update, setMembers_of_ne _ _ hj]
      exact .same
  | deliver j n now =>
    rw [update, deliver]
    split
    · exact .same
    · next p hp =>
      by_cases hj : i = j
      · subst hj
        rw [send_members, setMembers_self, receive]
        rcases (F.engine i).receive_members_cases (s.handler i) (s.members i) now p.msg with
          hsame | ⟨c, hc, hne, hheard⟩
        · rw [hsame]
          exact .same
        · rw [hheard]
          rw [F.selfId] at hne
          exact .heard (Option.bind_eq_some_iff.2 ⟨p, hp, hc⟩) hne
      · rw [send_members, setMembers_of_ne _ _ hj]
        exact .same
  | store | meet | requestSync | gossip | lose | duplicate => exact .same

/-- A record and what the probes have made of it: the member may be demoted. -/
structure Kept (m m' : ClusterMember) : Prop where
  region : m.region = m'.region
  addr : m.addr = m'.addr
  metaDigest : m.metaDigest = m'.metaDigest
  alive : m'.status = .alive → m.status = .alive

theorem Kept.refl (m : ClusterMember) : Kept m m := ⟨rfl, rfl, rfl, id⟩

theorem Kept.probed (e : GossipEngine) (now : Nat) (m : ClusterMember) :
    Kept m (e.probed now m) := by
  rw [GossipEngine.probed]
  split
  · exact .refl m
  · exact ⟨rfl, rfl, rfl, GossipEngine.verdict_alive⟩

/-- A record that an engine makes: of itself when it starts, of the sender of a
message that reaches it. -/
inductive Recorded (F : Fleet) (s : GossipNetwork) (i : InstanceId) :
    Label → ClusterMember → Prop
  | self (now) : Recorded F s i (.start i now)
      (.new (F.engine i).selfId (F.engine i).selfRegion (F.engine i).selfAddr
        (s.handler i).currentMetaDigest now)
  | heard {n now c} : c ∈ s.contactAt i n → c.sender ≠ i →
      Recorded F s i (.deliver i n now) ((s.members i).heard c now)

/-- What a list says after a step, it said before or has just been told. -/
theorem record_step (h : ((update F l s).members i).get X = some m) :
    (∃ m₀, (s.members i).get X = some m₀ ∧ Kept m₀ m) ∨
      (m.instanceId = X ∧ Recorded F s i l m) := by
  have hstep := list_step F s l i
  generalize (update F l s).members i = list at h hstep
  cases hstep with
  | same => exact .inl ⟨m, h, .refl m⟩
  | started now =>
    rw [MemberList.get_upsert] at h
    split at h
    · next hX =>
      rcases Option.some.inj h with rfl
      exact .inr ⟨hX.symm, .self now⟩
    · exact .inl ⟨m, h, .refl m⟩
  | probed now =>
    rw [GossipEngine.get_probeScan] at h
    rcases Option.map_eq_some_iff.1 h with ⟨m₀, hm₀, rfl⟩
    exact .inl ⟨m₀, hm₀, .probed _ now m₀⟩
  | heard hc hne =>
    rw [MemberList.get_upsert] at h
    split at h
    · next hX =>
      rcases Option.some.inj h with rfl
      exact .inr ⟨hX.symm, .heard hc hne⟩
    · exact .inl ⟨m, h, .refl m⟩

/-- A message is heard: its sender has a fresh record. -/
theorem get_deliver {c : Contact} {n : Nat} (hc : c ∈ s.contactAt i n) (hne : c.sender ≠ i)
    (now : Nat) :
    ((update F (.deliver i n now) s).members i).get c.sender =
      some ((s.members i).heard c now) := by
  rcases Option.bind_eq_some_iff.1 hc with ⟨p, hp, hcontact⟩
  have hne' : c.sender ≠ (F.engine i).selfId := by
    rw [F.selfId]
    exact hne
  have hmembers : (update F (.deliver i n now) s).members i =
      (s.members i).upsert ((s.members i).heard c now) := by
    rw [update, deliver, hp]
    show (setMembers _ i _).members i = _
    rw [setMembers_self, receive, GossipEngine.receive_members hcontact hne']
  rw [hmembers]
  exact MemberList.get_upsert_heard _ c now

/-! ## Where a message comes from -/

/-- A message that an engine sends. -/
inductive Sent (F : Fleet) (s : GossipNetwork) : Label → Packet → Prop
  | meet (i target) : Sent F s (.meet i target)
      ⟨target, .meet i (F.engine i).selfRegion (F.engine i).selfAddr⟩
  | syncRequest (i target keys) : Sent F s (.requestSync i target keys)
      ⟨target, .syncRequest i keys⟩
  | gossip {i chosen now m} : m ∈ chosen.take (F.engine i).fanout →
      Sent F s (.gossip i chosen now)
        ⟨m.addr, .ping i m.region (s.handler i).currentMetaDigest now⟩
  | reply {i n now p p'} : s.net[n]? = some p →
      GossipEngine.Reply (F.engine i) (s.handler i) (s.members i) now p.msg p' →
      Sent F s (.deliver i n now) p'

/-- A message that is on its way after a step was so before or has just been
sent. -/
theorem packet_step {p : Packet} (h : p ∈ (update F l s).net) : p ∈ s.net ∨ Sent F s l p := by
  cases l with
  | meet i target =>
    rcases List.mem_append.1 h with h | h
    · exact .inl h
    · rcases List.mem_singleton.1 h with rfl
      have hsent := Sent.meet (F := F) (s := s) i target
      simp only [F.selfId]
      exact .inr hsent
  | requestSync i target keys =>
    rcases List.mem_append.1 h with h | h
    · exact .inl h
    · rcases List.mem_singleton.1 h with rfl
      have hsent := Sent.syncRequest (F := F) (s := s) i target keys
      simp only [F.selfId]
      exact .inr hsent
  | gossip i chosen now =>
    rcases List.mem_append.1 h with h | h
    · exact .inl h
    · rcases List.mem_map.1 h with ⟨m, hm, rfl⟩
      have hsent : Sent F s (.gossip i chosen now) _ := .gossip hm
      simp only [F.selfId]
      exact .inr hsent
  | deliver i n now =>
    rw [update, deliver] at h
    split at h
    · exact .inl h
    · next p' hp' =>
      rcases List.mem_append.1 h with h | h
      · exact .inl (List.mem_of_mem_eraseIdx h)
      · exact .inr (.reply hp' (GossipEngine.reply_of_mem_sends h))
  | lose n => exact .inl (List.mem_of_mem_eraseIdx h)
  | duplicate n =>
    rcases List.mem_append.1 h with h | h
    · exact .inl h
    · exact .inl (List.mem_of_getElem? (Option.mem_toList.1 h))
  | start | store | probe => exact .inl h

end GossipNetwork

end HierKvGateway
