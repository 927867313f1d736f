import HierKvGateway.Cluster.SharedState
import HierKvGateway.Lib.Run
import HierKvGateway.Lib.Update

/-!
# Cluster.SharedReads — reads and writes of the store in memory

`session_get`, `prefix_history_get` and `metrics_get` look an entry up and, if it is
expired or missing, remove its key; the two are separate operations on the map. Sets and
gets of any number of tasks interleave (`SharedReads.system`).

A write is lost if a get removes it on what it has seen before. `noLostWrite_of_undisturbed`:
no write is lost as long as no set lands between the two operations of a get, and no get
finds an entry expired that another one is still going to look up.
-/

namespace HierKvGateway

/-- A call of a task on one of the maps. -/
inductive EntryCall (κ ν : Type) where
  | get (k : κ)
  | set (k : κ) (v : ν) (ttl : Duration)

/-- How far a call has got. -/
inductive EntryPhase (ν : Type) where
  | idle
  /-- The clock has been read. -/
  | started (now : Nat)
  /-- The entry was found expired or missing; the key is to be removed. -/
  | missed
  | done (result : Option ν)

/-- A map of the store, and the tasks that use it. -/
structure SharedReads (ι κ ν : Type) where
  map : Expiring κ ν
  /-- The current second. -/
  clock : Nat
  phase : ι → EntryPhase ν
  /-- The value set last under a key, and its expiry. -/
  last : κ → Option (ν × Nat)

namespace SharedReads

variable {ι κ ν : Type}

/-- The steps of the calls. -/
inductive Label (ι : Type) where
  | tick (now : Nat)
  /-- The task reads the clock. -/
  | start (i : ι)
  /-- The lookup of a get, the insertion of a set. -/
  | act (i : ι)
  | remove (i : ι)

def guard : Label ι → SharedReads ι κ ν → Prop
  | .tick now, s => s.clock ≤ now
  | .start i, s => s.phase i = .idle
  | .act i, s => ∃ now, s.phase i = .started now
  | .remove i, s => s.phase i = .missed

section System

variable [DecidableEq ι] [DecidableEq κ]

/-- The lookup of a get. -/
def lookUp (i : ι) (k : κ) (now : Nat) (s : SharedReads ι κ ν) : SharedReads ι κ ν :=
  match s.map.get now k with
  | some v => { s with phase := Function.update s.phase i (.done (some v)) }
  | none => { s with phase := Function.update s.phase i .missed }

/-- The insertion of a set. -/
def insert (i : ι) (k : κ) (v : ν) (ttl : Duration) (now : Nat) (s : SharedReads ι κ ν) :
    SharedReads ι κ ν :=
  { s with
    map := LocalSharedState.setEntry now k v ttl s.map
    phase := Function.update s.phase i (.done none)
    last := Function.update s.last k (some (v, saturatingAdd now ttl.asSecs)) }

/-- The operation on the map of a task that has read the clock. -/
def act (calls : ι → EntryCall κ ν) (i : ι) (s : SharedReads ι κ ν) : SharedReads ι κ ν :=
  match s.phase i, calls i with
  | .started now, .get k => s.lookUp i k now
  | .started now, .set k v ttl => s.insert i k v ttl now
  | _, _ => s

/-- The removal of the key a get has missed. -/
def remove (calls : ι → EntryCall κ ν) (i : ι) (s : SharedReads ι κ ν) : SharedReads ι κ ν :=
  match calls i with
  | .get k =>
    { s with
      map := s.map.remove k
      phase := Function.update s.phase i (.done none) }
  | .set _ _ _ => s

def update (calls : ι → EntryCall κ ν) : Label ι → SharedReads ι κ ν → SharedReads ι κ ν
  | .tick now, s => { s with clock := now }
  | .start i, s => { s with phase := Function.update s.phase i (.started s.clock) }
  | .act i, s => s.act calls i
  | .remove i, s => s.remove calls i

/-- An empty map, and nothing set or called. -/
structure Initial (s : SharedReads ι κ ν) : Prop where
  map : s.map = ∅
  phase : ∀ i, s.phase i = .idle
  last : ∀ k, s.last k = none

/-- All interleavings of the calls. -/
def system (calls : ι → EntryCall κ ν) : Lts (SharedReads ι κ ν) (Label ι) where
  init := Initial
  guard := guard
  update := update calls

variable {calls : ι → EntryCall κ ν} {s : SharedReads ι κ ν} {i j : ι} {k : κ} {v : ν} {now e : Nat}

theorem act_get (hi : s.phase i = .started now) (hcall : calls i = .get k) :
    s.act calls i = s.lookUp i k now := by
  unfold act
  rw [hi, hcall]

theorem act_set {ttl : Duration} (hi : s.phase i = .started now) (hcall : calls i = .set k v ttl) :
    s.act calls i = s.insert i k v ttl now := by
  unfold act
  rw [hi, hcall]

theorem remove_get (hcall : calls i = .get k) :
    s.remove calls i =
      { s with
        map := s.map.remove k
        phase := Function.update s.phase i (.done none) } := by
  unfold remove
  rw [hcall]

/-- Without interference, the two operations of a get are `getEntry`. -/
theorem map_get_alone (hi : s.phase i = .started now) (hcall : calls i = .get k) :
    let s' := s.act calls i
    (if s.map.get now k = none then (s'.remove calls i).map else s'.map) =
      (LocalSharedState.getEntry now k s.map).2 := by
  intro s'
  have hs' : s' = s.lookUp i k now := act_get hi hcall
  rw [LocalSharedState.getEntry_snd, hs', lookUp, remove_get hcall]
  cases s.map.get now k with
  | none => rfl
  | some v => rfl

/-! ## Lost writes -/

/-- A get that read the clock before the expiry of what was set last is going to find it. -/
def NoLostWrite (calls : ι → EntryCall κ ν) (s : SharedReads ι κ ν) : Prop :=
  ∀ i k v e now, calls i = .get k → s.phase i = .started now → s.last k = some (v, e) →
    now < e → s.map.get now k = some v

/-- A set does not land between the two operations of a get, and a get does not find an entry
expired that another one read the clock in time for. -/
def Undisturbed (calls : ι → EntryCall κ ν) (s : SharedReads ι κ ν) : Label ι → Prop
  | .act i =>
    match calls i with
    | .set k _ _ => ∀ j, calls j = .get k → s.phase j ≠ .missed
    | .get k => ∀ now v e, s.phase i = .started now → s.map.lookup k = some (v, e) → e ≤ now →
        ∀ j now', calls j = .get k → s.phase j = .started now' → e ≤ now'
  | _ => True

/-- What was set last is in the map and no get is about to remove it, or all gets under way
read the clock too late for it. -/
structure Kept (calls : ι → EntryCall κ ν) (s : SharedReads ι κ ν) : Prop where
  started_le : ∀ i now, s.phase i = .started now → now ≤ s.clock
  kept : ∀ k v e, s.last k = some (v, e) →
    (s.map.lookup k = some (v, e) ∧ ∀ j, calls j = .get k → s.phase j ≠ .missed) ∨
      (e ≤ s.clock ∧ ∀ j now, calls j = .get k → s.phase j = .started now → e ≤ now)

omit [DecidableEq κ] in
/-- A phase other than `started` leaves the gets that have read the clock. -/
theorem started_of_update (i : ι) (p : EntryPhase ν) (hp : ∀ now, p ≠ .started now)
    (h : Function.update s.phase i p j = .started now) : s.phase j = .started now := by
  rcases Function.update_cases h with ⟨-, h⟩ | ⟨-, h⟩
  · exact absurd h (hp now)
  · exact h

omit [DecidableEq κ] in
/-- A phase other than `missed` leaves the gets that are about to remove their key. -/
theorem missed_of_update (i : ι) (p : EntryPhase ν) (hp : p ≠ .missed)
    (h : Function.update s.phase i p j = .missed) : s.phase j = .missed := by
  rcases Function.update_cases h with ⟨-, h⟩ | ⟨-, h⟩
  · exact absurd h hp
  · exact h

omit [DecidableEq ι] in
theorem Kept.noLostWrite (h : Kept calls s) : NoLostWrite calls s := by
  intro i k v e now hcall hi hlast hlt
  rcases h.kept k v e hlast with ⟨hlookup, _⟩ | ⟨_, hlate⟩
  · exact Expiring.get_eq_some.2 ⟨e, hlookup, hlt⟩
  · have := hlate i now hcall hi
    omega

omit [DecidableEq ι] in
theorem kept_tick (h : Kept calls s) (hle : s.clock ≤ now) : Kept calls { s with clock := now } where
  started_le i now' hi := Nat.le_trans (h.started_le i now' hi) hle
  kept k v e hlast := by
    rcases h.kept k v e hlast with hin | ⟨hexp, hlate⟩
    · exact Or.inl hin
    · exact Or.inr ⟨Nat.le_trans hexp hle, hlate⟩

/-- A call reads the clock. -/
theorem kept_start (h : Kept calls s) (i : ι) :
    Kept calls { s with phase := Function.update s.phase i (.started s.clock) } where
  started_le j now hj := by
    by_cases hji : j = i
    · subst hji
      have hp : (EntryPhase.started s.clock : EntryPhase ν) = .started now := by
        rwa [← Function.update_self j (.started s.clock) s.phase]
      cases hp
      exact Nat.le_refl _
    · exact h.started_le j now (by rwa [← Function.update_of_ne hji (.started s.clock) s.phase])
  kept k v e hlast := by
    rcases h.kept k v e hlast with ⟨hlookup, hnone⟩ | ⟨hexp, hlate⟩
    · exact Or.inl ⟨hlookup, fun j hcall hj => hnone j hcall (missed_of_update i (.started s.clock) nofun hj)⟩
    · -- it reads a clock past the expiry
      refine Or.inr ⟨hexp, ?_⟩
      intro j now hcall hj
      by_cases hji : j = i
      · subst hji
        have hp : (EntryPhase.started s.clock : EntryPhase ν) = .started now := by
          rwa [← Function.update_self j (.started s.clock) s.phase]
        cases hp
        exact hexp
      · exact hlate j now hcall (by rwa [← Function.update_of_ne hji (.started s.clock) s.phase])

/-- A get finds a live entry. -/
theorem kept_found (h : Kept calls s) (i : ι) (result : Option ν) :
    Kept calls { s with phase := Function.update s.phase i (.done result) } where
  started_le j now hj := h.started_le j now (started_of_update i (.done result) nofun hj)
  kept k v e hlast := by
    rcases h.kept k v e hlast with ⟨hlookup, hnone⟩ | ⟨hexp, hlate⟩
    · exact Or.inl ⟨hlookup, fun j hcall hj => hnone j hcall (missed_of_update i (.done result) nofun hj)⟩
    · exact Or.inr ⟨hexp, fun j now hcall hj => hlate j now hcall (started_of_update i (.done result) nofun hj)⟩

/-- A get misses an entry that no other get under way came in time for. -/
theorem kept_missed (h : Kept calls s) (hi : s.phase i = .started now) (hcall : calls i = .get k)
    (hmiss : s.map.get now k = none)
    (hquiet : ∀ v e, s.map.lookup k = some (v, e) → e ≤ now →
      ∀ j now', calls j = .get k → s.phase j = .started now' → e ≤ now') :
    Kept calls { s with phase := Function.update s.phase i .missed } where
  started_le j now' hj := h.started_le j now' (started_of_update i .missed nofun hj)
  kept k' v e hlast := by
    rcases h.kept k' v e hlast with ⟨hlookup, hnone⟩ | ⟨hexp, hlate⟩
    · by_cases hk : k' = k
      · -- the entry is there, so it was found expired
        subst hk
        have hexp := Expiring.get_eq_none.1 hmiss v e hlookup
        refine Or.inr ⟨Nat.le_trans hexp (h.started_le i now hi), ?_⟩
        intro j now' hcallj hj
        exact hquiet v e hlookup hexp j now' hcallj (started_of_update i .missed nofun hj)
      · refine Or.inl ⟨hlookup, ?_⟩
        intro j hcallj
        have hji : j ≠ i := by
          rintro rfl
          rw [hcall] at hcallj
          cases hcallj
          exact hk rfl
        show Function.update s.phase i .missed j ≠ _
        rw [Function.update_of_ne hji]
        exact hnone j hcallj
    · exact Or.inr ⟨hexp, fun j now' hcallj hj =>
        hlate j now' hcallj (started_of_update i .missed nofun hj)⟩

/-- A set lands while no get is about to remove the key. -/
theorem kept_insert (h : Kept calls s) {ttl : Duration}
    (hquiet : ∀ j, calls j = .get k → s.phase j ≠ .missed) :
    Kept calls (s.insert i k v ttl now) where
  started_le j now' hj := h.started_le j now' (started_of_update i (.done none) nofun hj)
  kept k' v' e hlast := by
    have hlast' : Function.update s.last k (some (v, saturatingAdd now ttl.asSecs)) k' =
      some (v', e) := hlast
    show ((Expiring.put _ _ _ _).lookup k' = _ ∧ ∀ j, _ → Function.update s.phase i _ j ≠ _) ∨ _
    rcases Function.update_cases hlast' with ⟨rfl, heq⟩ | ⟨hk, hlast'⟩
    · cases heq
      refine Or.inl ⟨Expiring.lookup_put_self _ _ _ _, ?_⟩
      intro j hcall hj
      exact hquiet j hcall (missed_of_update i (.done none) nofun hj)
    · rw [Expiring.lookup_put_of_ne hk]
      rcases h.kept k' v' e hlast' with ⟨hlookup, hnone⟩ | ⟨hexp, hlate⟩
      · exact Or.inl ⟨hlookup, fun j hcall hj => hnone j hcall (missed_of_update i (.done none) nofun hj)⟩
      · exact Or.inr ⟨hexp, fun j now' hcall hj => hlate j now' hcall (started_of_update i (.done none) nofun hj)⟩

/-- A get removes the key it has missed: what was set last had expired. -/
theorem kept_remove (h : Kept calls s) (hi : s.phase i = .missed) (hcall : calls i = .get k) :
    Kept calls { s with
      map := s.map.remove k
      phase := Function.update s.phase i (.done none) } where
  started_le j now' hj := h.started_le j now' (started_of_update i (.done none) nofun hj)
  kept k' v e hlast := by
    rcases h.kept k' v e hlast with ⟨hlookup, hnone⟩ | ⟨hexp, hlate⟩
    · have hk : k' ≠ k := by
        rintro rfl
        exact hnone i hcall hi
      refine Or.inl ⟨?_, fun j hcallj hj => hnone j hcallj (missed_of_update i (.done none) nofun hj)⟩
      show (s.map.remove k).lookup k' = _
      rw [Expiring.lookup_remove_of_ne hk]
      exact hlookup
    · exact Or.inr ⟨hexp, fun j now' hcallj hj =>
        hlate j now' hcallj (started_of_update i (.done none) nofun hj)⟩

theorem kept_act (h : Kept calls s) (hg : ∃ now, s.phase i = .started now)
    (hquiet : Undisturbed calls s (.act i)) : Kept calls (s.act calls i) := by
  rcases hg with ⟨now, hi⟩
  unfold Undisturbed at hquiet
  cases hcall : calls i with
  | get k =>
    simp only [hcall] at hquiet
    rw [act_get hi hcall, lookUp]
    cases hget : s.map.get now k with
    | some v => exact kept_found h i (some v)
    | none => exact kept_missed h hi hcall hget (fun v e => hquiet now v e hi)
  | set k v ttl =>
    simp only [hcall] at hquiet
    rw [act_set hi hcall]
    exact kept_insert h hquiet

theorem kept_remove_step (h : Kept calls s) (hi : s.phase i = .missed) :
    Kept calls (s.remove calls i) := by
  unfold remove
  cases hcall : calls i with
  | get k => exact kept_remove h hi hcall
  | set k v ttl => exact h

/-- No write is lost in a run whose steps are undisturbed. -/
theorem noLostWrite_of_undisturbed
    (hs : ((system calls).restrict (Undisturbed calls)).Reachable s) : NoLostWrite calls s := by
  refine Kept.noLostWrite (Lts.invariant (P := Kept calls) ?_ ?_ s hs)
  · intro s h
    constructor
    · intro i now hi
      rw [h.phase i] at hi
      exact absurd hi nofun
    · intro k v e hlast
      rw [h.last k] at hlast
      exact absurd hlast nofun
  · rintro s l h ⟨hg, hquiet⟩
    cases l with
    | tick now => exact kept_tick h hg
    | start i => exact kept_start h i
    | act i => exact kept_act h hg hquiet
    | remove i => exact kept_remove_step h hg

/-- No session, prefix history entry or metrics that were set are lost in runs whose steps are
undisturbed. -/
theorem no_write_lost {sessionCalls : ι → EntryCall SessionId BackendId}
    {prefixCalls : ι → EntryCall (BitVec 64) PrefixDispatchEntry}
    {metricsCalls : ι → EntryCall BackendId BackendMetrics}
    {sessions : SharedReads ι SessionId BackendId}
    {prefixes : SharedReads ι (BitVec 64) PrefixDispatchEntry}
    {metrics : SharedReads ι BackendId BackendMetrics}
    (hs : ((system sessionCalls).restrict (Undisturbed sessionCalls)).Reachable sessions)
    (hp : ((system prefixCalls).restrict (Undisturbed prefixCalls)).Reachable prefixes)
    (hm : ((system metricsCalls).restrict (Undisturbed metricsCalls)).Reachable metrics) :
    NoLostWrite sessionCalls sessions ∧ NoLostWrite prefixCalls prefixes ∧
      NoLostWrite metricsCalls metrics :=
  ⟨noLostWrite_of_undisturbed hs, noLostWrite_of_undisturbed hp, noLostWrite_of_undisturbed hm⟩

end System

/-! ## A lost write -/

/-- The empty map of a fresh store. -/
def fresh (ι κ ν : Type) : SharedReads ι κ ν := ⟨∅, 0, fun _ => .idle, fun _ => none⟩

theorem initial_fresh (ι κ ν : Type) : Initial (fresh ι κ ν) := ⟨rfl, fun _ => rfl, fun _ => rfl⟩

instance decidableStarted (p : EntryPhase ν) : Decidable (∃ now, p = .started now) :=
  match p with
  | .started now => .isTrue ⟨now, rfl⟩
  | .idle => .isFalse nofun
  | .missed => .isFalse nofun
  | .done _ => .isFalse nofun

instance decidablePhaseIdle (p : EntryPhase ν) : Decidable (p = .idle) :=
  match p with
  | .idle => .isTrue rfl
  | .started _ => .isFalse nofun
  | .missed => .isFalse nofun
  | .done _ => .isFalse nofun

instance decidablePhaseMissed (p : EntryPhase ν) : Decidable (p = .missed) :=
  match p with
  | .missed => .isTrue rfl
  | .idle => .isFalse nofun
  | .started _ => .isFalse nofun
  | .done _ => .isFalse nofun

instance decidableGuard [DecidableEq ι] [DecidableEq κ] (calls : ι → EntryCall κ ν) (l : Label ι)
    (s : SharedReads ι κ ν) : Decidable ((system calls).guard l s) :=
  match l with
  | .tick now => inferInstanceAs (Decidable (s.clock ≤ now))
  | .start i => inferInstanceAs (Decidable (s.phase i = .idle))
  | .act i => inferInstanceAs (Decidable (∃ now, s.phase i = .started now))
  | .remove i => inferInstanceAs (Decidable (s.phase i = .missed))

/-- A session set for a second, read, set again, and read again. -/
def sessionTwice : Fin 4 → EntryCall SessionId BackendId
  | 0 => .set ⟨"s"⟩ ⟨⟨"eu"⟩, ⟨"a"⟩⟩ (.fromSecs 1)
  | 1 => .get ⟨"s"⟩
  | 2 => .set ⟨"s"⟩ ⟨⟨"eu"⟩, ⟨"b"⟩⟩ (.fromSecs 60)
  | 3 => .get ⟨"s"⟩

/-- Both gets are under way when the session has expired. The first one finds it expired and removes
it, and then the second set, which has begun in between, lands. -/
def inTurn : List (Label (Fin 4)) :=
  [.start 0, .act 0, .tick 1, .start 1, .start 3, .act 1, .start 2, .remove 1, .act 2]

theorem enabled_inTurn :
    ((system sessionTwice).restrict (Undisturbed sessionTwice)).Enabled (fresh _ _ _) inTurn := by
  let before (n : Nat) := (system sessionTwice).run (fresh _ _ _) (inTurn.take n)
  have henabled : (system sessionTwice).Enabled (fresh _ _ _) inTurn := by decide +kernel
  have hfirst : ∀ j, (before 1).phase j ≠ .missed := by decide +kernel
  have hsecond : ∀ j, (before 8).phase j ≠ .missed := by decide +kernel
  have hlate : ∀ j now, (before 5).phase j = .started now → now = 1 := by
    rintro ⟨_ | _ | _ | _ | n, hlt⟩ now hj
    · exact absurd hj nofun
    · exact (EntryPhase.started.inj hj).symm
    · exact absurd hj nofun
    · exact (EntryPhase.started.inj hj).symm
    · omega
  have hread : Undisturbed sessionTwice (before 5) (.act 1) := by
    intro now v e hnow _ hle j now' _ hj
    rw [hlate j now' hj, ← hlate 1 now hnow]
    exact hle
  exact Lts.enabled_restrict.2 ⟨henabled, trivial, fun j _ => hfirst j, trivial, trivial, trivial,
    hread, trivial, trivial, fun j _ => hsecond j, trivial⟩

/-- The second get is going to find what was set. -/
theorem no_write_lost_inTurn :
    ((system sessionTwice).run (fresh _ _ _) inTurn).map.get 1 ⟨"s"⟩ =
      some ⟨⟨"eu"⟩, ⟨"b"⟩⟩ := by
  have hs := Lts.Reachable.run (.init (initial_fresh _ _ _)) enabled_inTurn
  have hp : ((system fun _ : Fin 4 => EntryCall.get (0 : BitVec 64)).restrict
      (Undisturbed fun _ => EntryCall.get 0)).Reachable (fresh _ _ PrefixDispatchEntry) :=
    .init (initial_fresh _ _ _)
  have hm : ((system fun _ : Fin 4 => EntryCall.get (⟨⟨"eu"⟩, ⟨"a"⟩⟩ : BackendId)).restrict
      (Undisturbed fun _ => EntryCall.get ⟨⟨"eu"⟩, ⟨"a"⟩⟩)).Reachable (fresh _ _ BackendMetrics) :=
    .init (initial_fresh _ _ _)
  exact (no_write_lost hs hp hm).1 3 ⟨"s"⟩ ⟨⟨"eu"⟩, ⟨"b"⟩⟩ 61 1 rfl rfl rfl (by decide)

/-- The first get finds the session expired, the second set lands, and the get removes what was
set: the second get does not find it. -/
theorem write_lost : ¬∀ s, (system sessionTwice).Reachable s → NoLostWrite sessionTwice s := by
  intro h
  have hstart : (system sessionTwice).Reachable (fresh _ _ _) := .init (initial_fresh _ _ _)
  have henabled : (system sessionTwice).Enabled (fresh _ _ _) [.start 0, .act 0, .tick 1, .start 1,
      .act 1, .start 2, .act 2, .remove 1, .start 3] := by
    decide +kernel
  have hfound := h _ (hstart.run henabled) 3 ⟨"s"⟩ ⟨⟨"eu"⟩, ⟨"b"⟩⟩ 61 1 rfl rfl rfl (by decide)
  exact absurd hfound (by decide +kernel)

end SharedReads

end HierKvGateway
