import HierKvGateway.Cluster.SharedState
import HierKvGateway.Lib.Run

/-!
# Cluster.SharedLock — locks with a TTL

Any number of holders take and give back locks of the store in memory, each call an
atomic operation on the map entry, while the clock moves on (`LockHistory.system`). The
history keeps every lock granted and not given back.

A holder that takes its lock again refreshes it: the new grant replaces the old one, also
when it expires earlier. `LockHistory.lock_safe` is about the latest grant of each holder.
-/

namespace HierKvGateway

/-- A lock granted until `expiry` (Unix seconds). -/
structure Grant where
  key : String
  holder : String
  expiry : Nat
deriving DecidableEq, Repr

/-- The store and the locks it has granted. -/
structure LockHistory where
  store : LocalSharedState
  /-- The current second. -/
  clock : Nat
  /-- The grants not given back by their holders, newest first. -/
  grants : List Grant

namespace LockHistory

/-- The steps. -/
inductive Label where
  | tick (now : Nat)
  | tryLock (key holder : String) (ttl : Duration)
  | unlock (key holder : String)

/-- A call of `try_lock`. -/
def tryLock (key holder : String) (ttl : Duration) (s : LockHistory) : LockHistory :=
  let r := s.store.tryLock s.clock key holder ttl
  { s with
    store := r.2
    grants :=
      if r.1 then ⟨key, holder, saturatingAdd s.clock ttl.asSecs⟩ :: s.grants else s.grants }

/-- A call of `unlock`. -/
def unlock (key holder : String) (s : LockHistory) : LockHistory :=
  { s with
    store := s.store.unlock key holder
    grants := s.grants.filter fun g => ¬(g.key = key ∧ g.holder = holder) }

def guard : Label → LockHistory → Prop
  | .tick now, s => s.clock ≤ now
  | .tryLock _ _ _, _ => True
  | .unlock _ _, _ => True

def update : Label → LockHistory → LockHistory
  | .tick now, s => { s with clock := now }
  | .tryLock key holder ttl, s => s.tryLock key holder ttl
  | .unlock key holder, s => s.unlock key holder

/-- No lock has been granted. -/
def Initial (s : LockHistory) : Prop := s.store = .new ∧ s.grants = []

/-- All interleavings of the calls. -/
def system : Lts LockHistory Label where
  init := Initial
  guard := guard
  update := update

instance (l : Label) (s : LockHistory) : Decidable (system.guard l s) :=
  match l with
  | .tick now => inferInstanceAs (Decidable (s.clock ≤ now))
  | .tryLock _ _ _ => .isTrue trivial
  | .unlock _ _ => .isTrue trivial

/-! ## Leases -/

/-- When the latest grant of a holder expires. -/
def lease (s : LockHistory) (key holder : String) : Option Nat :=
  (s.grants.find? fun g => g.key = key ∧ g.holder = holder).map Grant.expiry

/-- The holder's latest grant has not expired. -/
def Holds (s : LockHistory) (key holder : String) : Prop :=
  ∃ expiry, s.lease key holder = some expiry ∧ s.clock < expiry

variable {s : LockHistory} {key key' holder holder' : String} {ttl : Duration}

/-- The call takes the lock. -/
def Granted (s : LockHistory) (key holder : String) (ttl : Duration) : Prop :=
  (s.store.tryLock s.clock key holder ttl).1 = true

theorem granted_iff :
    s.Granted key holder ttl ↔
      s.store.locks.get s.clock key = none ∨ s.store.locks.get s.clock key = some holder := by
  unfold Granted LocalSharedState.tryLock
  rw [LocalSharedState.tryLockEntry_eq]
  dsimp only
  split
  · next h => exact iff_of_true rfl h
  · next h => exact iff_of_false nofun h

theorem tryLock_of_granted (h : s.Granted key holder ttl) :
    s.tryLock key holder ttl =
      { s with
        store.locks := LocalSharedState.setEntry s.clock key holder ttl s.store.locks
        grants := ⟨key, holder, saturatingAdd s.clock ttl.asSecs⟩ :: s.grants } := by
  have hfree := granted_iff.1 h
  simp only [tryLock, LocalSharedState.tryLock, LocalSharedState.tryLockEntry_eq, if_pos hfree,
    if_true]

theorem tryLock_of_refused (h : ¬s.Granted key holder ttl) : s.tryLock key holder ttl = s := by
  have htaken := fun hfree => h (granted_iff.2 hfree)
  simp only [tryLock, LocalSharedState.tryLock, LocalSharedState.tryLockEntry_eq, if_neg htaken]
  rfl

theorem lease_cons_self (store : LocalSharedState) (clock : Nat) (g : Grant) (grants : List Grant) :
    lease ⟨store, clock, g :: grants⟩ g.key g.holder = some g.expiry := by
  simp [lease]

theorem lease_cons_of_ne {store : LocalSharedState} {clock : Nat} {g : Grant} {grants : List Grant}
    (h : ¬(g.key = key ∧ g.holder = holder)) :
    lease ⟨store, clock, g :: grants⟩ key holder = lease ⟨store, clock, grants⟩ key holder := by
  simp [lease, h]

theorem lease_unlock_self (s : LockHistory) (key holder : String) :
    (s.unlock key holder).lease key holder = none := by
  simp only [lease, unlock, Option.map_eq_none_iff, List.find?_eq_none, List.mem_filter]
  rintro g ⟨_, hg⟩ hsame
  exact of_decide_eq_true hg (of_decide_eq_true hsame)

theorem lease_unlock_of_ne (h : ¬(key' = key ∧ holder' = holder)) :
    (s.unlock key holder).lease key' holder' = s.lease key' holder' := by
  simp only [lease, unlock, List.find?_filter]
  congr 2
  funext g
  by_cases hg : g.key = key' ∧ g.holder = holder'
  · rcases hg with ⟨rfl, rfl⟩
    simp [h]
  · simp [hg]

/-! ## The map and the leases -/

/-- A lease that has not expired is in the map. -/
def Recorded (s : LockHistory) : Prop :=
  ∀ key holder expiry, s.lease key holder = some expiry → s.clock < expiry →
    s.store.locks.lookup key = some (holder, expiry)

/-- Whoever holds a lock is found in the map. -/
theorem Recorded.get (h : s.Recorded) (hh : s.Holds key holder) :
    s.store.locks.get s.clock key = some holder := by
  rcases hh with ⟨expiry, hlease, hlt⟩
  exact Expiring.get_eq_some.2 ⟨expiry, h key holder expiry hlease hlt, hlt⟩

theorem recorded_tick (h : s.Recorded) {now : Nat} (hle : s.clock ≤ now) :
    Recorded { s with clock := now } := by
  intro key holder expiry hlease hlt
  exact h key holder expiry hlease (Nat.lt_of_le_of_lt hle hlt)

theorem recorded_tryLock (h : s.Recorded) (key holder : String) (ttl : Duration) :
    (s.tryLock key holder ttl).Recorded := by
  by_cases hgranted : s.Granted key holder ttl
  · rw [tryLock_of_granted hgranted]
    intro key' holder' expiry hlease hlt
    by_cases hsame : key = key' ∧ holder = holder'
    · -- the new grant
      rcases hsame with ⟨rfl, rfl⟩
      rw [lease_cons_self _ _ ⟨key, holder, _⟩] at hlease
      cases hlease
      exact Expiring.lookup_put_self _ _ _ _
    · rw [lease_cons_of_ne hsame] at hlease
      have hheld := h.get ⟨expiry, hlease, hlt⟩
      have hne : key' ≠ key := by
        -- somebody else's unexpired lease would have refused the call
        rintro rfl
        rcases granted_iff.1 hgranted with hfree | hown
        · rw [hheld] at hfree
          exact absurd hfree nofun
        · rw [hheld] at hown
          exact hsame ⟨rfl, (Option.some.inj hown).symm⟩
      show (Expiring.put _ _ _ _).lookup key' = _
      rw [Expiring.lookup_put_of_ne hne]
      exact h key' holder' expiry hlease hlt
  · rw [tryLock_of_refused hgranted]
    exact h

/-- Giving back somebody else's lock changes nothing. -/
theorem unlockEntry_of_ne {locks : Expiring String String}
    (h : ∀ expiry, locks.lookup key ≠ some (holder, expiry)) :
    LocalSharedState.unlockEntry key holder locks = locks := by
  unfold LocalSharedState.unlockEntry
  split
  · next owner expiry hlookup =>
    rw [if_neg]
    rintro rfl
    exact h expiry hlookup
  · rfl

theorem lookup_unlockEntry_of_ne {locks : Expiring String String} (h : key' ≠ key) :
    (LocalSharedState.unlockEntry key holder locks).lookup key' = locks.lookup key' := by
  unfold LocalSharedState.unlockEntry
  split
  · split
    · exact Expiring.lookup_remove_of_ne h
    · rfl
  · rfl

theorem recorded_unlock (h : s.Recorded) (key holder : String) :
    (s.unlock key holder).Recorded := by
  intro key' holder' expiry hlease hlt
  by_cases hsame : key' = key ∧ holder' = holder
  · rcases hsame with ⟨rfl, rfl⟩
    rw [lease_unlock_self] at hlease
    exact absurd hlease nofun
  · rw [lease_unlock_of_ne hsame] at hlease
    have hlookup := h key' holder' expiry hlease hlt
    show (LocalSharedState.unlockEntry key holder s.store.locks).lookup key' = _
    by_cases hkey : key' = key
    · subst hkey
      rw [unlockEntry_of_ne]
      · exact hlookup
      · intro expiry' hown
        rw [hlookup] at hown
        cases hown
        exact hsame ⟨rfl, rfl⟩
    · rw [lookup_unlockEntry_of_ne hkey]
      exact hlookup

theorem recorded_reachable (hs : system.Reachable s) : s.Recorded := by
  refine Lts.invariant (P := Recorded) ?_ ?_ s hs
  · rintro s ⟨_, hgrants⟩ key holder expiry hlease _
    rw [lease, hgrants] at hlease
    exact absurd hlease nofun
  · intro s l h hg
    cases l with
    | tick now => exact recorded_tick h hg
    | tryLock key holder ttl => exact recorded_tryLock h key holder ttl
    | unlock key holder => exact recorded_unlock h key holder

/-! ## Safety -/

/-- No two holders have grants that have not expired, whichever grants they are. -/
def GrantsExclusive (s : LockHistory) : Prop :=
  ∀ g ∈ s.grants, ∀ g' ∈ s.grants, g.key = g'.key → s.clock < g.expiry → s.clock < g'.expiry →
    g.holder = g'.holder

instance (s : LockHistory) : Decidable s.GrantsExclusive :=
  inferInstanceAs (Decidable (∀ g ∈ s.grants, ∀ g' ∈ s.grants, _ → _ → _ → _))

/-- A holder refreshes its lock for a second; after that second another one takes the lock, with
the first grant good for another minute. -/
theorem grants_not_exclusive : ¬∀ s, system.Reachable s → s.GrantsExclusive := by
  intro h
  have hstart : system.Reachable ⟨.new, 0, []⟩ := .init ⟨rfl, rfl⟩
  have henabled : system.Enabled ⟨.new, 0, []⟩ [.tryLock "leader" "node-a" (.fromSecs 60),
      .tryLock "leader" "node-a" (.fromSecs 1), .tick 1,
      .tryLock "leader" "node-b" (.fromSecs 60)] := by
    decide +kernel
  exact absurd (h _ (hstart.run henabled)) (by decide +kernel)

/-- At most one holder has a lease that has not expired; a lock is not granted to anybody else
before the lease of its holder expires or is given back; and only the owner of the entry can
remove it. -/
theorem lock_safe (hs : system.Reachable s) (key : String) :
    (∀ holder holder', s.Holds key holder → s.Holds key holder' → holder = holder') ∧
      (∀ holder ttl, s.Granted key holder ttl → ∀ owner, s.Holds key owner → owner = holder) ∧
      ∀ holder, (∀ expiry, s.store.locks.lookup key ≠ some (holder, expiry)) →
        s.store.unlock key holder = s.store := by
  have hrec := recorded_reachable hs
  refine ⟨?_, ?_, ?_⟩
  · intro holder holder' hh hh'
    have hget := hrec.get hh
    rw [hrec.get hh'] at hget
    exact (Option.some.inj hget).symm
  · intro holder ttl hgranted owner howner
    have hget := hrec.get howner
    rcases granted_iff.1 hgranted with hfree | hown
    · rw [hget] at hfree
      exact absurd hfree nofun
    · rw [hget] at hown
      exact Option.some.inj hown
  · intro holder hother
    unfold LocalSharedState.unlock
    rw [unlockEntry_of_ne hother]

/-- In the last second of a lease nobody else gets the lock. -/
theorem lock_safe_last_second :
    ¬(system.run ⟨.new, 0, []⟩ [.tryLock "leader" "node-a" (.fromSecs 60), .tick 59]).Granted
      "leader" "node-b" (.fromSecs 60) := by
  intro hgranted
  have hstart : system.Reachable ⟨.new, 0, []⟩ := .init ⟨rfl, rfl⟩
  have henabled : system.Enabled ⟨.new, 0, []⟩
      [.tryLock "leader" "node-a" (.fromSecs 60), .tick 59] := by
    decide +kernel
  have howner := (lock_safe (hstart.run henabled) "leader").2.1 "node-b" (.fromSecs 60) hgranted "node-a"
    ⟨60, by decide +kernel, by decide +kernel⟩
  exact absurd howner (by decide)

end LockHistory

end HierKvGateway
