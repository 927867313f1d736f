import HierKvGateway.Core.Error
import HierKvGateway.Core.Ids
import HierKvGateway.Lib.Update

/-!
# Metadata.RoutingHistory — which backend a session was routed to

One record for each session (`routing_history.rs`). Reading a record does not look at its age;
old records are removed by `evict_expired`, which somebody has to call.
-/

namespace HierKvGateway

/-- The affinity record of a session. -/
structure SessionAffinity where
  backend : BackendId
  /-- Unix seconds. -/
  lastUsedUnix : Nat
  kvOverlapAtRoute : BitVec 32
deriving DecidableEq, Repr

/-- The routing history. -/
structure RoutingHistory where
  sessions : AList fun _ : SessionId => SessionAffinity

namespace RoutingHistory

/-- `RoutingHistory::new`. -/
def new : RoutingHistory := ⟨∅⟩

/-- The record of a session. -/
def get (h : RoutingHistory) (session : SessionId) : Option SessionAffinity :=
  h.sessions.lookup session

/-- Write the record of a session; it was used in the second `now`. -/
def set (now : Nat) (session : SessionId) (backend : BackendId) (kvOverlapAtRoute : BitVec 32)
    (h : RoutingHistory) : RoutingHistory :=
  ⟨h.sessions.insert session ⟨backend, now, kvOverlapAtRoute⟩⟩

/-- A record that is older than the TTL. -/
def Expired (now : Nat) (ttl : Duration) (a : SessionAffinity) : Prop :=
  saturatingAdd a.lastUsedUnix ttl.asSecs < now

instance (now : Nat) (ttl : Duration) (a : SessionAffinity) : Decidable (Expired now ttl a) :=
  inferInstanceAs (Decidable (_ < _))

/-- Remove the records older than the TTL; how many were removed. -/
def evictExpired (now : Nat) (ttl : Duration) (h : RoutingHistory) : Nat × RoutingHistory :=
  let kept := h.sessions.entries.filter fun e => ¬Expired now ttl e.2
  (h.sessions.entries.length - kept.length,
    ⟨⟨kept, List.NodupKeys.sublist List.filter_sublist h.sessions.nodupKeys⟩⟩)

/-- Eviction removes the old records and no others. -/
theorem get_evictExpired (now : Nat) (ttl : Duration) (h : RoutingHistory) (session : SessionId) :
    (h.evictExpired now ttl).2.get session =
      (h.get session).filter fun a => ¬Expired now ttl a := by
  ext a
  rw [Option.filter_eq_some_iff]
  constructor
  · intro ha
    have hmem := AList.mem_lookup_iff.1 ha
    rcases List.mem_filter.1 hmem with ⟨hmem, hkeep⟩
    exact ⟨AList.mem_lookup_iff.2 hmem, hkeep⟩
  · rintro ⟨ha, hkeep⟩
    have hmem := AList.mem_lookup_iff.1 ha
    exact AList.mem_lookup_iff.2 (List.mem_filter.2 ⟨hmem, hkeep⟩)

/-- A record after a write is an old one, or that of the session, used in this second. -/
theorem get_set_cases {now : Nat} {session session' : SessionId} {backend : BackendId}
    {overlap : BitVec 32} {h : RoutingHistory} {a : SessionAffinity}
    (ha : (h.set now session backend overlap).get session' = some a) :
    h.get session' = some a ∨ session = session' ∧ a.lastUsedUnix = now := by
  rcases AList.lookup_of_insert ha with ⟨heq, rfl⟩ | ⟨-, hold⟩
  · exact Or.inr ⟨heq.symm, rfl⟩
  · exact Or.inl hold

end RoutingHistory

end HierKvGateway
