import HierKvGateway.Cluster.Messages
import Mathlib.Data.List.AList

/-!
# Cluster.Member — the member list

Each instance keeps one record of every instance it has heard of (`member.rs`).
The records are filed under the id they carry (`MemberList.keyed`), so a lookup
by id and a scan of all records see the same thing (`MemberList.mem_allMembers`).
-/

namespace HierKvGateway

/-- What an instance thinks of another one. -/
inductive MemberStatus where
  | alive
  | suspect
  | dead
deriving DecidableEq, Repr

/-- The record of an instance. -/
structure ClusterMember where
  instanceId : InstanceId
  region : RegionId
  /-- Where it can be reached. -/
  addr : String
  /-- When it was last heard of (Unix milliseconds). -/
  lastPongUnix : Nat
  status : MemberStatus
  /-- The versions of its metadata. -/
  metaDigest : MetaDigest
deriving DecidableEq, Repr

/-- `ClusterMember::new`. -/
def ClusterMember.new (instanceId : InstanceId) (region : RegionId) (addr : String)
    (metaDigest : MetaDigest) (now : Nat) : ClusterMember where
  instanceId := instanceId
  region := region
  addr := addr
  lastPongUnix := now
  status := .alive
  metaDigest := metaDigest

/-- The records of the known instances, each under its own id. -/
structure MemberList where
  members : AList fun _ : InstanceId => ClusterMember
  keyed : ∀ m ∈ members.entries, m.2.instanceId = m.1

namespace MemberList

/-- `MemberList::new`. -/
def new : MemberList := ⟨∅, nofun⟩

/-- The record of an instance. -/
def get (l : MemberList) (i : InstanceId) : Option ClusterMember := l.members.lookup i

/-- Insert or overwrite the record of an instance. -/
def upsert (l : MemberList) (m : ClusterMember) : MemberList where
  members := l.members.insert m.instanceId m
  keyed := by
    intro e he
    rcases List.mem_cons.1 he with rfl | he
    · rfl
    · exact l.keyed e (List.kerase_sublist _ _ |>.subset he)

/-- All records. -/
def allMembers (l : MemberList) : List ClusterMember := l.members.entries.map Sigma.snd

/-- The records of the instances thought to be alive. -/
def aliveMembers (l : MemberList) : List ClusterMember := l.allMembers.filter (·.status = .alive)

/-- Change what is thought of an instance; nothing if it is unknown. -/
def setStatus (status : MemberStatus) (l : MemberList) (i : InstanceId) : MemberList :=
  match l.get i with
  | none => l
  | some m => l.upsert { m with status := status }

/-- `MemberList::mark_suspect`. -/
def markSuspect : MemberList → InstanceId → MemberList := setStatus .suspect

/-- `MemberList::mark_dead`. -/
def markDead : MemberList → InstanceId → MemberList := setStatus .dead

variable {l : MemberList} {i j : InstanceId} {m : ClusterMember}

@[simp] theorem get_new (i : InstanceId) : new.get i = none := AList.lookup_empty i

/-- The record filed under an id is the one of that id. -/
theorem instanceId_of_get (h : l.get i = some m) : m.instanceId = i :=
  l.keyed ⟨i, m⟩ (AList.mem_lookup_iff.1 h)

theorem mem_allMembers : m ∈ l.allMembers ↔ l.get m.instanceId = some m := by
  constructor
  · intro h
    rcases List.mem_map.1 h with ⟨⟨i, m'⟩, he, rfl⟩
    have hid : m'.instanceId = i := l.keyed _ he
    subst hid
    exact AList.mem_lookup_iff.2 he
  · intro h
    exact List.mem_map.2 ⟨⟨m.instanceId, m⟩, AList.mem_lookup_iff.1 h, rfl⟩

/-- No id has two records. -/
theorem nodup_allMembers (l : MemberList) : (l.allMembers.map (·.instanceId)).Nodup := by
  have hkeys : l.allMembers.map (·.instanceId) = l.members.keys := by
    rw [allMembers, List.map_map]
    exact List.map_congr_left l.keyed
  rw [hkeys]
  exact l.members.nodupKeys

theorem mem_aliveMembers :
    m ∈ l.aliveMembers ↔ l.get m.instanceId = some m ∧ m.status = .alive := by
  rw [aliveMembers, List.mem_filter, mem_allMembers, decide_eq_true_eq]

@[simp] theorem get_upsert_self (l : MemberList) (m : ClusterMember) :
    (l.upsert m).get m.instanceId = some m := AList.lookup_insert _

theorem get_upsert_of_ne (l : MemberList) (h : i ≠ m.instanceId) :
    (l.upsert m).get i = l.get i := AList.lookup_insert_ne h

theorem get_upsert (l : MemberList) (m : ClusterMember) (i : InstanceId) :
    (l.upsert m).get i = if i = m.instanceId then some m else l.get i := by
  split
  · next h => rw [h, get_upsert_self]
  · next h => exact get_upsert_of_ne l h

/-- Changing the status of an instance changes nothing else. -/
theorem get_setStatus (status : MemberStatus) (l : MemberList) (j i : InstanceId) :
    (l.setStatus status j).get i =
      if i = j then (l.get i).map ({ · with status := status }) else l.get i := by
  rw [setStatus]
  cases hj : l.get j with
  | none =>
    dsimp only
    split
    · next h => rw [h, hj, Option.map_none]
    · rfl
  | some m =>
    -- the record is filed under its own id
    have hid := instanceId_of_get hj
    subst hid
    dsimp only
    rw [get_upsert]
    split
    · next h => rw [h, hj, Option.map_some]
    · rfl

end MemberList

end HierKvGateway
