import HierKvGateway.Cluster.CkfRelay
import HierKvGateway.Metadata.Xxh3

/-!
# Cluster.RelayCalls — events and flushes at the same time

The relay counts the events it has not published (`pending_count`) apart from the
producers that hold them. An event updates its producer, then the counter, and
flushes at the threshold; a flush resets the counter, then collects the pools,
then takes the delta of one producer after the other. All of these steps
interleave (`RelayCalls.system`), and the background loop only flushes when the
counter is positive.

`RelayCalls.pending_of_dirty`: whatever the interleaving, a producer that has
something to publish when no call is in progress is counted. The invariant
(`Covered`) says who will see to it in the meantime.
-/

namespace HierKvGateway

/-- The calls of the relay. A `Clear` visits the backend's hashes in some order. -/
inductive RelayCall where
  | applyEvent (pool : PoolId) (event : KvCacheEvent) (backend : BackendId) (order : IterOrder)
  | flush
  | publishBarrier (pool : PoolId)

/-- How far a call has got. -/
inductive RelayPhase where
  | start
  /-- The producer has taken the event, the counter has not. -/
  | updated
  /-- The threshold is reached; the counter is about to be reset. -/
  | flushing
  /-- The counter is reset, the pools are not collected yet. -/
  | collecting
  /-- These pools are still to be visited; with none left the call has returned. -/
  | visiting (pools : List PoolId)
deriving DecidableEq, Repr

/-- The call has begun and not returned. -/
def RelayPhase.InProgress : RelayPhase → Prop
  | .start => False
  | .updated => True
  | .flushing => True
  | .collecting => True
  | .visiting pools => pools ≠ []

/-- The producers, the counter, the calls, and what has been broadcast. -/
structure RelayCalls (ι : Type) where
  producers : PoolId → Option CkfProducer
  pendingCount : BitVec 64
  phase : ι → RelayPhase
  sent : List Publication

namespace RelayCalls

variable {ι : Type} [DecidableEq ι]

/-- A new relay; no call has begun. -/
def new : RelayCalls ι where
  producers := fun _ => none
  pendingCount := 0
  phase := fun _ => .start
  sent := []

/-- Advance a call. -/
def setPhase (s : RelayCalls ι) (i : ι) (p : RelayPhase) : RelayCalls ι :=
  { s with phase := Function.update s.phase i p }

/-- Replace the producer of a pool. -/
def setProducer (s : RelayCalls ι) (pool : PoolId) (p : CkfProducer) : RelayCalls ι :=
  { s with producers := Function.update s.producers pool (some p) }

/-- An event updates the producer of its pool, which is created if need be. -/
def applyEvent (H : Xxh3) (i : ι) (pool : PoolId) (event : KvCacheEvent) (backend : BackendId)
    (order : IterOrder) (s : RelayCalls ι) : RelayCalls ι :=
  let entry := (s.producers pool).getD .new
  (s.setProducer pool (entry.applyEvent H order event backend)).setPhase i .updated

/-- The event is counted; at the threshold the call goes on to flush. -/
def countPending (threshold : BitVec 64) (i : ι) (s : RelayCalls ι) : RelayCalls ι :=
  let newPending := s.pendingCount + 1
  { s with pendingCount := newPending }.setPhase i
    (if threshold ≤ newPending then .flushing else .visiting [])

/-- A flush resets the counter. -/
def resetPending (i : ι) (s : RelayCalls ι) : RelayCalls ι :=
  { s with pendingCount := 0 }.setPhase i .collecting

/-- A flush visits the next pool and broadcasts its delta, if there is one. -/
def visitPool (i : ι) (s : RelayCalls ι) : RelayCalls ι :=
  match s.phase i with
  | .visiting (pool :: pools) =>
    match s.producers pool with
    | none => s.setPhase i (.visiting pools)
    | some p =>
      let (p', publication) := KvRelay.flushPool pool p
      { s with sent := s.sent ++ publication.toList }.setProducer pool p'
        |>.setPhase i (.visiting pools)
  | _ => s

/-- Publish a full snapshot of a pool; nothing without a producer. -/
def publishBarrier (i : ι) (pool : PoolId) (s : RelayCalls ι) : RelayCalls ι :=
  match s.producers pool with
  | none => s.setPhase i (.visiting [])
  | some p =>
    let (p', publication) := KvRelay.publishBarrier pool p
    { s with sent := s.sent ++ [publication] }.setProducer pool p' |>.setPhase i (.visiting [])

/-- The steps of the calls. -/
inductive Label (ι : Type) where
  /-- The producer of an event, or the snapshot of a barrier. -/
  | producer (i : ι)
  | count (i : ι)
  | reset (i : ι)
  /-- The pools a flush collects, in some order. -/
  | collect (i : ι) (pools : List PoolId)
  | visit (i : ι)

def guard (calls : ι → RelayCall) : Label ι → RelayCalls ι → Prop
  | .producer i, s => s.phase i = .start ∧ calls i ≠ .flush
  | .count i, s => s.phase i = .updated
  | .reset i, s => s.phase i = .flushing ∨ (s.phase i = .start ∧ calls i = .flush)
  | .collect i pools, s => s.phase i = .collecting ∧ ∀ pool, pool ∈ pools ↔ s.producers pool ≠ none
  | .visit i, s => ∃ pool pools, s.phase i = .visiting (pool :: pools)

def update (H : Xxh3) (threshold : BitVec 64) (calls : ι → RelayCall) :
    Label ι → RelayCalls ι → RelayCalls ι
  | .producer i, s =>
    match calls i with
    | .applyEvent pool event backend order => s.applyEvent H i pool event backend order
    | .flush => s
    | .publishBarrier pool => s.publishBarrier i pool
  | .count i, s => s.countPending threshold i
  | .reset i, s => s.resetPending i
  | .collect i pools, s => s.setPhase i (.visiting pools)
  | .visit i, s => s.visitPool i

/-- All interleavings of the calls. -/
def system (H : Xxh3) (threshold : BitVec 64) (calls : ι → RelayCall) :
    Lts (RelayCalls ι) (Label ι) where
  init s := s = new
  guard := guard calls
  update := update H threshold calls

/-! ## Who publishes what is dirty -/

/-- The producer of the pool has something to publish. -/
def Dirty (s : RelayCalls ι) (pool : PoolId) : Prop :=
  ∃ p, s.producers pool = some p ∧ p.dirtyBuckets ≠ ∅

/-- A call in this phase will count an event or visit the pool. -/
def Attends (pool : PoolId) : RelayPhase → Prop
  | .start => False
  | .updated => True
  | .flushing => True
  | .collecting => True
  | .visiting pools => pool ∈ pools

/-- A dirty pool is counted, or some call attends to it. A counter that is about
to wrap around is about to be reset. -/
structure Covered (s : RelayCalls ι) : Prop where
  dirty : ∀ pool, s.Dirty pool → s.pendingCount ≠ 0 ∨ ∃ i, Attends pool (s.phase i)
  full : s.pendingCount = BitVec.allOnes 64 → ∃ i, s.phase i = .flushing

section Steps

variable {s : RelayCalls ι} {i j : ι} {p : RelayPhase} {pool : PoolId} {H : Xxh3}
  {threshold : BitVec 64} {calls : ι → RelayCall}

theorem phase_setPhase_self : (s.setPhase i p).phase i = p := Function.update_self ..

theorem phase_setPhase_of_ne (h : j ≠ i) : (s.setPhase i p).phase j = s.phase j :=
  Function.update_of_ne h ..

theorem RelayPhase.inProgress_of_attends (h : Attends pool p) : p.InProgress := by
  cases p with
  | start => exact h
  | updated => trivial
  | flushing => trivial
  | collecting => trivial
  | visiting pools => exact List.ne_nil_of_mem h

omit [DecidableEq ι] in
theorem covered_new : Covered (new : RelayCalls ι) where
  dirty pool h := by
    rcases h with ⟨p, hp, _⟩
    cases hp
  full h := by
    have hne : (0 : BitVec 64) ≠ BitVec.allOnes 64 := by decide
    exact absurd h hne

/-- An attending call other than the one that steps still attends. -/
theorem attends_setPhase (h : ∃ j, Attends pool (s.phase j))
    (hi : Attends pool (s.phase i) → Attends pool p) :
    ∃ j, Attends pool ((s.setPhase i p).phase j) := by
  rcases h with ⟨j, hj⟩
  by_cases hji : j = i
  · subst hji
    refine ⟨j, ?_⟩
    rw [phase_setPhase_self]
    exact hi hj
  · refine ⟨j, ?_⟩
    rw [phase_setPhase_of_ne hji]
    exact hj

/-- A flush other than the call that steps is still about to reset the counter. -/
theorem flushing_setPhase (h : ∃ j, s.phase j = .flushing) (hi : s.phase i ≠ .flushing) :
    ∃ j, (s.setPhase i p).phase j = .flushing := by
  rcases h with ⟨j, hj⟩
  have hji : j ≠ i := by
    rintro rfl
    exact hi hj
  exact ⟨j, (phase_setPhase_of_ne hji).trans hj⟩

omit [DecidableEq ι] in
/-- What `delta` leaves is clean. -/
theorem flushPool_clean (pool : PoolId) (p : CkfProducer) :
    (KvRelay.flushPool pool p).1.dirtyBuckets = ∅ := by
  rcases KvRelay.flushPool_cases pool p with ⟨hclean, hp⟩ | ⟨d, hd, hp⟩
  · rw [hp]
    exact hclean
  · rw [hp]

omit [DecidableEq ι] in
/-- A pool that is dirty after its producer was replaced by a clean one is
another pool, and was dirty before. -/
theorem dirty_setProducer {p' : CkfProducer} (hclean : p'.dirtyBuckets = ∅) {pool' : PoolId}
    (h : (s.setProducer pool p').Dirty pool') : pool' ≠ pool ∧ s.Dirty pool' := by
  rcases h with ⟨q, hq, hdirty⟩
  by_cases hpool : pool' = pool
  · subst hpool
    have hself : (s.setProducer pool' p').producers pool' = some p' := Function.update_self ..
    rw [hself, Option.some_inj] at hq
    subst hq
    exact absurd hclean hdirty
  · have hother : (s.setProducer pool p').producers pool' = s.producers pool' :=
      Function.update_of_ne hpool ..
    exact ⟨hpool, q, hother ▸ hq, hdirty⟩

theorem Covered.applyEvent (h : Covered s) (hg : s.phase i = .start) (event : KvCacheEvent)
    (backend : BackendId) (order : IterOrder) :
    Covered (s.applyEvent H i pool event backend order) where
  dirty pool' _ := by
    -- the event will be counted
    refine Or.inr ⟨i, ?_⟩
    rw [RelayCalls.applyEvent, phase_setPhase_self]
    trivial
  full hfull := flushing_setPhase (h.full hfull) (by rw [setProducer, hg]; exact nofun)

theorem Covered.countPending (h : Covered s) (hg : s.phase i = .updated) :
    Covered (s.countPending threshold i) := by
  have hi : s.phase i ≠ .flushing := by
    rw [hg]
    exact nofun
  refine ⟨fun pool' _ => ?_, fun hfull => ?_⟩
  · by_cases hzero : s.pendingCount + 1 = 0
    · -- the counter wraps around: a flush is about to reset it
      have hlast : s.pendingCount = BitVec.allOnes 64 := by
        rw [← BitVec.neg_one_eq_allOnes]
        exact eq_neg_of_add_eq_zero_left hzero
      rcases flushing_setPhase (h.full hlast) hi with ⟨j, hj⟩
      have hj : (s.countPending threshold i).phase j = .flushing := hj
      refine Or.inr ⟨j, ?_⟩
      rw [hj]
      trivial
    · exact Or.inl hzero
  · -- the largest counter is not below the threshold
    have hfull : s.pendingCount + 1 = BitVec.allOnes 64 := hfull
    have hle : threshold ≤ s.pendingCount + 1 := by
      rw [hfull, BitVec.le_def, BitVec.toNat_allOnes]
      exact Nat.le_sub_one_of_lt threshold.isLt
    refine ⟨i, ?_⟩
    rw [RelayCalls.countPending, phase_setPhase_self, if_pos hle]

theorem Covered.resetPending : Covered (s.resetPending i) where
  dirty pool' _ := by
    refine Or.inr ⟨i, ?_⟩
    rw [RelayCalls.resetPending, phase_setPhase_self]
    trivial
  full hfull := by
    have hne : (0 : BitVec 64) ≠ BitVec.allOnes 64 := by decide
    exact absurd hfull hne

theorem Covered.collect (h : Covered s) (hg : s.phase i = .collecting) {pools : List PoolId}
    (hall : ∀ pool, pool ∈ pools ↔ s.producers pool ≠ none) :
    Covered (s.setPhase i (.visiting pools)) where
  dirty pool' hdirty := by
    rcases h.dirty pool' hdirty with hcount | hattends
    · exact Or.inl hcount
    · -- the pool exists, so it has been collected
      refine Or.inr (attends_setPhase hattends fun _ => (hall pool').2 ?_)
      rcases hdirty with ⟨q, hq, _⟩
      intro hnone
      have hq : s.producers pool' = some q := hq
      rw [hq] at hnone
      cases hnone
  full hfull := flushing_setPhase (h.full hfull) (by rw [hg]; exact nofun)

theorem Covered.visitPool (h : Covered s) {pools : List PoolId}
    (hg : s.phase i = .visiting (pool :: pools)) : Covered (s.visitPool i) := by
  have hi : s.phase i ≠ .flushing := by
    rw [hg]
    exact nofun
  -- the visit of another pool is still to come
  have hrest : ∀ pool', pool' ≠ pool → Attends pool' (s.phase i) →
      Attends pool' (.visiting pools) := by
    intro pool' hne hatt
    rw [hg] at hatt
    exact List.mem_of_ne_of_mem hne hatt
  cases hp : s.producers pool with
  | none =>
    simp only [RelayCalls.visitPool, hg, hp]
    refine ⟨fun pool' hdirty => ?_, fun hfull => flushing_setPhase (h.full hfull) hi⟩
    rcases h.dirty pool' hdirty with hcount | hattends
    · exact Or.inl hcount
    · refine Or.inr (attends_setPhase hattends (hrest pool' ?_))
      rintro rfl
      rcases hdirty with ⟨q, hq, _⟩
      have hq : s.producers pool' = some q := hq
      rw [hp] at hq
      cases hq
  | some p =>
    simp only [RelayCalls.visitPool, hg, hp]
    refine ⟨fun pool' hdirty => ?_, fun hfull => flushing_setPhase (h.full hfull) hi⟩
    rcases dirty_setProducer (flushPool_clean pool p) hdirty with ⟨hne, hdirty⟩
    rcases h.dirty pool' hdirty with hcount | hattends
    · exact Or.inl hcount
    · exact Or.inr (attends_setPhase hattends (hrest pool' hne))

theorem Covered.publishBarrier (h : Covered s) (hg : s.phase i = .start) :
    Covered (s.publishBarrier i pool) := by
  have hi : s.phase i ≠ .flushing := by
    rw [hg]
    exact nofun
  have hidle : ∀ pool', Attends pool' (s.phase i) → Attends pool' (.visiting []) := by
    intro pool' hatt
    rw [hg] at hatt
    exact absurd hatt id
  cases hp : s.producers pool with
  | none =>
    simp only [RelayCalls.publishBarrier, hp]
    refine ⟨fun pool' hdirty => ?_, fun hfull => flushing_setPhase (h.full hfull) hi⟩
    rcases h.dirty pool' hdirty with hcount | hattends
    · exact Or.inl hcount
    · exact Or.inr (attends_setPhase hattends (hidle pool'))
  | some p =>
    simp only [RelayCalls.publishBarrier, hp]
    refine ⟨fun pool' hdirty => ?_, fun hfull => flushing_setPhase (h.full hfull) hi⟩
    -- a snapshot leaves nothing dirty
    have hclean : (KvRelay.publishBarrier pool p).1.dirtyBuckets = ∅ := rfl
    rcases dirty_setProducer hclean hdirty with ⟨_, hdirty⟩
    rcases h.dirty pool' hdirty with hcount | hattends
    · exact Or.inl hcount
    · exact Or.inr (attends_setPhase hattends (hidle pool'))

theorem Covered.step (h : Covered s) (l : Label ι) (hg : guard calls l s) :
    Covered (update H threshold calls l s) := by
  cases l with
  | producer i =>
    rcases hg with ⟨hstart, hcall⟩
    rw [update]
    cases hi : calls i with
    | applyEvent pool event backend order => exact h.applyEvent hstart event backend order
    | flush => exact absurd hi hcall
    | publishBarrier pool => exact h.publishBarrier hstart
  | count i => exact h.countPending hg
  | reset i => exact .resetPending
  | collect i pools => exact h.collect hg.1 hg.2
  | visit i =>
    rcases hg with ⟨pool, pools, hphase⟩
    exact h.visitPool hphase

end Steps

/-- For any events, flushes and barriers on any pools, in every interleaving of
their steps: whenever no call is in progress and some producer has changes it has
not published, the counter is positive. -/
theorem pending_of_dirty (H : Xxh3) (threshold : BitVec 64) (calls : ι → RelayCall) :
    ∀ s, (system H threshold calls).Reachable s → (∀ i, ¬ (s.phase i).InProgress) →
      (∃ pool, s.Dirty pool) → 0 < s.pendingCount := by
  intro s hs hidle hdirty
  have hcovered : Covered s := by
    refine Lts.invariant (S := system H threshold calls) (P := Covered) ?_ ?_ s hs
    · rintro _ rfl
      exact covered_new
    · intro s l h hg
      exact h.step l hg
  rcases hdirty with ⟨pool, hpool⟩
  rcases hcovered.dirty pool hpool with hcount | ⟨i, hi⟩
  · exact (BitVec.pos_iff_ne_zero _).2 hcount
  · exact absurd (RelayPhase.inProgress_of_attends hi) (hidle i)

/-- The pool of the example. -/
def somePool : PoolId := ⟨⟨1⟩, ⟨"r1"⟩⟩

/-- The backend of the example stores a block. -/
def storesBlock (hash : BlockHash) : RelayCall :=
  .applyEvent somePool (.stored ⟨1, 0⟩ [hash] none []) ⟨⟨"r1"⟩, ⟨"i1"⟩⟩ .ascending

theorem storesBlock_ne_flush (hash : BlockHash) : storesBlock hash ≠ .flush := by
  intro h
  cases h

/-- The calls of the example. -/
inductive SomeCall where
  | first
  | second
  | third
  | flush
deriving DecidableEq

/-- Three events and a flush. -/
def someCalls : SomeCall → RelayCall
  | .first => storesBlock 1
  | .second => storesBlock 2
  | .third => storesBlock 3
  | .flush => .flush

/-- The second event reaches its producer while the flush is in progress, and is counted when that
is over. -/
def overlapping : List (Label SomeCall) :=
  [.producer .first, .count .first, .reset .flush, .producer .second, .collect .flush [somePool],
    .visit .flush, .count .second, .producer .third, .count .third]

theorem enabled_overlapping : (system .short 16 someCalls).Enabled new overlapping := by
  refine ⟨⟨rfl, storesBlock_ne_flush 1⟩, rfl, .inr ⟨rfl, rfl⟩, ⟨rfl, storesBlock_ne_flush 2⟩,
    ⟨rfl, fun pool => ?_⟩, ⟨_, _, rfl⟩, rfl, ⟨rfl, storesBlock_ne_flush 3⟩, rfl, trivial⟩
  -- both events so far went to this pool
  rw [List.mem_singleton]
  by_cases h : pool = somePool
  · subst h
    exact iff_of_true rfl (Option.some_ne_none _)
  · refine iff_of_false h (not_not.2 ?_)
    exact (Function.update_of_ne h _ _).trans (Function.update_of_ne h _ _)

theorem pending_of_dirty_overlapping :
    0 < ((system .short 16 someCalls).run new overlapping).pendingCount := by
  refine pending_of_dirty .short 16 someCalls _ (.run (.init rfl) enabled_overlapping) ?_ ?_
  · -- all calls have returned
    intro i hprog
    have hreturned : ((system .short 16 someCalls).run new overlapping).phase i = .visiting [] := by
      cases i <;> decide +kernel
    rw [hreturned] at hprog
    exact hprog rfl
  · have hdirty : (((system .short 16 someCalls).run new overlapping).producers somePool).any
        (fun p => decide (p.dirtyBuckets ≠ ∅)) = true := by
      decide +kernel
    rcases Option.any_eq_true_iff_get _ _ |>.1 hdirty with ⟨hsome, hp⟩
    exact ⟨somePool, _, (Option.some_get hsome).symm, of_decide_eq_true hp⟩

end RelayCalls

end HierKvGateway
