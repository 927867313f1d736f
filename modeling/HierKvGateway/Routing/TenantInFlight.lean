import HierKvGateway.Lib.Run
import HierKvGateway.Lib.Update
import HierKvGateway.Routing.TenantScheduler
import Mathlib.Data.Finset.Card

/-!
# Routing.TenantInFlight — the requests of a tenant in flight

Any number of requests of one tenant go through `check_admission`, `record_request_start` and
`record_request_end`, in any order of their atomic steps (`system`). The check of the limit of
concurrent requests loads the counter, and the request is counted later, in another call: several
requests can find the same room.

`AdmissionState.within_limit`: as long as a request passes the check only when there is room for it
and for those before it that are not counted yet, the limit holds.
-/

namespace HierKvGateway

/-- How far a request has got. -/
inductive AdmissionPhase where
  | absent
  /-- Has its bucket. -/
  | entered
  /-- Has a token. -/
  | consumed
  /-- Has found fewer requests in flight than the limit. -/
  | passed
  | admitted
  | refused
  | running
  | ended
deriving DecidableEq, Repr

/-- The request is past the check of the limit and is not counted yet. -/
def AdmissionPhase.Pending : AdmissionPhase → Prop
  | .passed => True
  | .admitted => True
  | _ => False

/-- The request is counted. -/
def AdmissionPhase.Running : AdmissionPhase → Prop
  | .running => True
  | _ => False

/-- A step of the requests of a tenant. -/
inductive AdmissionStep (ι F : Type) where
  /-- `check_admission` is called. -/
  | enter (r : ι)
  /-- It tries to consume a token, with an instant it has read before. -/
  | consume (r : ι) (now : Nat)
  /-- It loads the number of requests in flight. -/
  | load (r : ι)
  /-- It decides by priority, with a capacity and reserved fractions that it has loaded. -/
  | prioritize (r : ι) (total used : BitVec 64) (reserved : F)
  /-- `record_request_start`. -/
  | start (r : ι)
  /-- `record_request_end`. -/
  | finish (r : ι)

/-- The bucket of the tenant, and its requests. -/
structure AdmissionState (ι F : Type) where
  bucket : TenantBucket F
  phase : ι → AdmissionPhase
  /-- The requests that have passed the check of the limit, or are not subject to it, and are not
  counted yet. -/
  pending : Finset ι
  /-- The requests that are counted. -/
  running : Finset ι

namespace AdmissionState

variable {ι F : Type}

/-- A step may be taken: every request takes its own in order. -/
def guard : AdmissionStep ι F → AdmissionState ι F → Prop
  | .enter r, s => s.phase r = .absent
  | .consume r _, s => s.phase r = .entered
  | .load r, s => s.phase r = .consumed
  | .prioritize r _ _ _, s => s.phase r = .passed
  | .start r, s => s.phase r = .admitted
  | .finish r, s => s.phase r = .running

/-- The most requests in flight: the limit, or what the counter can count. -/
def limit (quota : TenantQuota F) : Nat :=
  match quota.maxConcurrent with
  | some max => max.toNat
  | none => 2 ^ 64 - 1

/-- The number of requests past the check is below the limit. -/
def Room (s : AdmissionState ι F) : Prop :=
  s.bucket.inFlight.toNat + s.pending.card < limit s.bucket.quota

/-- A request gets past the check only when there is room. -/
def HasRoom (config : TenantConfig F) (s : AdmissionState ι F) : AdmissionStep ι F → Prop
  | .enter _ => config.enabled = false → s.Room
  | .load _ => s.bucket.atMaxConcurrent = false → s.Room
  | _ => True

instance (s : AdmissionState ι F) : Decidable s.Room := inferInstanceAs (Decidable (_ < _))

instance (config : TenantConfig F) (s : AdmissionState ι F) :
    ∀ l : AdmissionStep ι F, Decidable (HasRoom config s l)
  | .enter _ => inferInstanceAs (Decidable (config.enabled = false → s.Room))
  | .load _ => inferInstanceAs (Decidable (s.bucket.atMaxConcurrent = false → s.Room))
  | .consume _ _ | .prioritize _ _ _ _ | .start _ | .finish _ => .isTrue trivial

section System

variable [DecidableEq ι] [Floating F] (config : TenantConfig F) (id : TenantId)

/-- `check_admission` begins. Without scheduling the request is admitted. -/
def enter (r : ι) (s : AdmissionState ι F) : AdmissionState ι F :=
  if config.enabled then { s with phase := Function.update s.phase r .entered }
  else
    { s with
      phase := Function.update s.phase r .admitted
      pending := insert r s.pending }

/-- The rate limit. -/
def consume (r : ι) (now : Nat) (s : AdmissionState ι F) : AdmissionState ι F :=
  let (ok, bucket) := s.bucket.bucket.tryConsume (Floating.ofNat 1) now
  { s with
    bucket := { s.bucket with bucket := bucket }
    phase := Function.update s.phase r (if ok then .consumed else .refused) }

/-- The limit of concurrent requests. -/
def load (r : ι) (s : AdmissionState ι F) : AdmissionState ι F :=
  if s.bucket.atMaxConcurrent then { s with phase := Function.update s.phase r .refused }
  else
    { s with
      phase := Function.update s.phase r .passed
      pending := insert r s.pending }

/-- The decision by priority. -/
def prioritize (r : ι) (total used : BitVec 64) (reserved : F) (s : AdmissionState ι F) :
    AdmissionState ι F :=
  if config.decidePriority s.bucket.quota.priority (capacityUsed total used) reserved = .admitted
  then { s with phase := Function.update s.phase r .admitted }
  else
    { s with
      phase := Function.update s.phase r .refused
      pending := s.pending.erase r }

/-- What a step does. -/
def update : AdmissionStep ι F → AdmissionState ι F → AdmissionState ι F
  | .enter r, s => s.enter config r
  | .consume r now, s => s.consume r now
  | .load r, s => s.load r
  | .prioritize r total used reserved, s => s.prioritize config r total used reserved
  | .start r, s =>
    { bucket := { s.bucket with inFlight := s.bucket.inFlight + 1 }
      phase := Function.update s.phase r .running
      pending := s.pending.erase r
      running := insert r s.running }
  | .finish r, s =>
    { s with
      bucket := { s.bucket with inFlight := s.bucket.inFlight - 1 }
      phase := Function.update s.phase r .ended
      running := s.running.erase r }

/-- The bucket of the tenant is new, and there are no requests yet. -/
def fresh (created : Nat) : AdmissionState ι F where
  bucket := .new (config.resolveQuota id) created
  phase _ := .absent
  pending := ∅
  running := ∅

/-- The requests of a tenant, in any order of their steps. -/
def system : Lts (AdmissionState ι F) (AdmissionStep ι F) where
  init s := ∃ created, s = fresh config id created
  guard := guard
  update := update config

instance (l : AdmissionStep ι F) (s : AdmissionState ι F) :
    Decidable ((system config id).guard l s) :=
  match l with
  | .enter r => inferInstanceAs (Decidable (s.phase r = .absent))
  | .consume r _ => inferInstanceAs (Decidable (s.phase r = .entered))
  | .load r => inferInstanceAs (Decidable (s.phase r = .consumed))
  | .prioritize r _ _ _ => inferInstanceAs (Decidable (s.phase r = .passed))
  | .start r => inferInstanceAs (Decidable (s.phase r = .admitted))
  | .finish r => inferInstanceAs (Decidable (s.phase r = .running))

/-- The requests past the check are within the limit, and the counter counts those that have
started. -/
structure Counted (quota : TenantQuota F) (s : AdmissionState ι F) : Prop where
  sameQuota : s.bucket.quota = quota
  pending : ∀ r, r ∈ s.pending ↔ (s.phase r).Pending
  running : ∀ r, r ∈ s.running ↔ (s.phase r).Running
  inFlight : s.bucket.inFlight.toNat = s.running.card
  bound : s.running.card + s.pending.card ≤ limit quota

variable {config id} {quota : TenantQuota F} {s : AdmissionState ι F} {r : ι}

omit [Floating F] in
/-- The requests in a phase, after one request has moved on. -/
theorem mem_update {P : AdmissionPhase → Prop} {ids ids' : Finset ι} {p : AdmissionPhase}
    (h : ∀ r, r ∈ ids ↔ P (s.phase r)) (hself : r ∈ ids' ↔ P p)
    (hother : ∀ r', r' ≠ r → (r' ∈ ids' ↔ r' ∈ ids)) (r' : ι) :
    r' ∈ ids' ↔ P (Function.update s.phase r p r') := by
  by_cases hr : r' = r
  · subst hr
    rw [Function.update_self]
    exact hself
  · rw [Function.update_of_ne hr, hother r' hr, h]

theorem mem_insert_of_ne {ids : Finset ι} (r' : ι) (hr : r' ≠ r) :
    r' ∈ insert r ids ↔ r' ∈ ids := by
  rw [Finset.mem_insert]
  exact ⟨fun h => h.resolve_left hr, Or.inr⟩

theorem mem_erase_of_ne {ids : Finset ι} (r' : ι) (hr : r' ≠ r) :
    r' ∈ ids.erase r ↔ r' ∈ ids := by
  rw [Finset.mem_erase]
  exact ⟨And.right, fun h => ⟨hr, h⟩⟩

omit [DecidableEq ι] [Floating F] in
theorem Counted.not_pending (h : Counted quota s) {p : AdmissionPhase} (hr : s.phase r = p)
    (hp : ¬p.Pending) : r ∉ s.pending := by
  rw [h.pending, hr]
  exact hp

omit [DecidableEq ι] [Floating F] in
theorem Counted.not_running (h : Counted quota s) {p : AdmissionPhase} (hr : s.phase r = p)
    (hp : ¬p.Running) : r ∉ s.running := by
  rw [h.running, hr]
  exact hp

omit [Floating F] in
/-- A request that is not past the check moves on to where it is not past it either. -/
theorem counted_outside (h : Counted quota s) {p : AdmissionPhase} (hpend : r ∉ s.pending)
    (hrun : r ∉ s.running) (hp : ¬p.Pending) (hp' : ¬p.Running)
    {bucket : TokenBucket F} :
    Counted quota { s with
      bucket := { s.bucket with bucket := bucket }
      phase := Function.update s.phase r p } where
  sameQuota := h.sameQuota
  pending := mem_update h.pending (iff_of_false hpend hp) fun _ _ => Iff.rfl
  running := mem_update h.running (iff_of_false hrun hp') fun _ _ => Iff.rfl
  inFlight := h.inFlight
  bound := h.bound

omit [Floating F] in
/-- A request gets past the check. -/
theorem counted_join (h : Counted quota s) {p : AdmissionPhase} (hpend : r ∉ s.pending)
    (hrun : r ∉ s.running) (hp : p.Pending) (hp' : ¬p.Running) (hroom : s.Room) :
    Counted quota { s with
      phase := Function.update s.phase r p
      pending := insert r s.pending } where
  sameQuota := h.sameQuota
  pending := mem_update h.pending (iff_of_true (Finset.mem_insert_self r _) hp) mem_insert_of_ne
  running := mem_update h.running (iff_of_false hrun hp') fun _ _ => Iff.rfl
  inFlight := h.inFlight
  bound := by
    unfold Room at hroom
    rw [h.inFlight, h.sameQuota] at hroom
    rw [Finset.card_insert_of_notMem hpend]
    exact hroom

omit [Floating F] in
theorem counted_enter (h : Counted quota s) (hr : s.phase r = .absent)
    (hroom : config.enabled = false → s.Room) : Counted quota (s.enter config r) := by
  have hpend := h.not_pending hr not_false
  have hrun := h.not_running hr not_false
  unfold enter
  cases henabled : config.enabled with
  | true => exact counted_outside h hpend hrun (p := .entered) not_false not_false
  | false => exact counted_join h hpend hrun (p := .admitted) trivial not_false (hroom henabled)

theorem counted_consume (h : Counted quota s) (hr : s.phase r = .entered) (now : Nat) :
    Counted quota (s.consume r now) := by
  have hpend := h.not_pending hr not_false
  have hrun := h.not_running hr not_false
  unfold consume
  dsimp only
  split
  · exact counted_outside h hpend hrun (p := .consumed) not_false not_false
  · exact counted_outside h hpend hrun (p := .refused) not_false not_false

omit [Floating F] in
theorem counted_load (h : Counted quota s) (hr : s.phase r = .consumed)
    (hroom : s.bucket.atMaxConcurrent = false → s.Room) : Counted quota (s.load r) := by
  have hpend := h.not_pending hr not_false
  have hrun := h.not_running hr not_false
  unfold load
  cases hmax : s.bucket.atMaxConcurrent with
  | true => exact counted_outside h hpend hrun (p := .refused) not_false not_false
  | false => exact counted_join h hpend hrun (p := .passed) trivial not_false (hroom hmax)

theorem counted_prioritize (h : Counted quota s) (hr : s.phase r = .passed)
    (total used : BitVec 64) (reserved : F) :
    Counted quota (s.prioritize config r total used reserved) := by
  have hpend : r ∈ s.pending := (h.pending r).2 (by rw [hr]; trivial)
  have hrun := h.not_running hr not_false
  unfold prioritize
  split
  · exact {
      sameQuota := h.sameQuota
      pending := mem_update h.pending (iff_of_true hpend trivial) fun _ _ => Iff.rfl
      running := mem_update h.running (iff_of_false hrun not_false) fun _ _ => Iff.rfl
      inFlight := h.inFlight
      bound := h.bound }
  · exact {
      sameQuota := h.sameQuota
      pending := mem_update h.pending (iff_of_false (Finset.notMem_erase r _) not_false)
        mem_erase_of_ne
      running := mem_update h.running (iff_of_false hrun not_false) fun _ _ => Iff.rfl
      inFlight := h.inFlight
      bound := by
        have hle := Finset.card_erase_le (s := s.pending) (a := r)
        have hbound := h.bound
        show s.running.card + (s.pending.erase r).card ≤ limit quota
        omega }

omit [Floating F] in
/-- The most requests in flight fit into the counter. -/
theorem limit_lt (quota : TenantQuota F) : limit quota < 2 ^ 64 := by
  unfold limit
  cases quota.maxConcurrent with
  | none =>
    dsimp only
    omega
  | some max =>
    have := max.isLt
    dsimp only
    omega

/-- A request is counted. -/
theorem counted_start (h : Counted quota s) (hr : s.phase r = .admitted) :
    Counted quota (update config (.start r) s) := by
  have hpend : r ∈ s.pending := (h.pending r).2 (by rw [hr]; trivial)
  have hrun := h.not_running hr not_false
  have hcard := Finset.card_erase_of_mem hpend
  have hpos := Finset.card_pos.2 ⟨r, hpend⟩
  have hbound := h.bound
  have hlt := limit_lt quota
  exact {
    sameQuota := h.sameQuota
    pending := mem_update h.pending (iff_of_false (Finset.notMem_erase r _) not_false)
      mem_erase_of_ne
    running := mem_update h.running (iff_of_true (Finset.mem_insert_self r _) trivial)
      mem_insert_of_ne
    inFlight := by
      show (s.bucket.inFlight + 1).toNat = (insert r s.running).card
      rw [Finset.card_insert_of_notMem hrun, BitVec.toNat_add, h.inFlight]
      show (s.running.card + 1) % 2 ^ 64 = s.running.card + 1
      omega
    bound := by
      show (insert r s.running).card + (s.pending.erase r).card ≤ limit quota
      rw [Finset.card_insert_of_notMem hrun]
      omega }

/-- A request ends. -/
theorem counted_finish (h : Counted quota s) (hr : s.phase r = .running) :
    Counted quota (update config (.finish r) s) := by
  have hrun : r ∈ s.running := (h.running r).2 (by rw [hr]; trivial)
  have hpend := h.not_pending hr not_false
  have hcard := Finset.card_erase_of_mem hrun
  have hpos := Finset.card_pos.2 ⟨r, hrun⟩
  have hcount := h.inFlight
  have hbound := h.bound
  exact {
    sameQuota := h.sameQuota
    pending := mem_update h.pending (iff_of_false hpend not_false) fun _ _ => Iff.rfl
    running := mem_update h.running (iff_of_false (Finset.notMem_erase r _) not_false)
      mem_erase_of_ne
    inFlight := by
      show (s.bucket.inFlight - 1).toNat = (s.running.erase r).card
      have hlt := s.bucket.inFlight.isLt
      rw [BitVec.toNat_sub, hcard]
      show (2 ^ 64 - 1 + s.bucket.inFlight.toNat) % 2 ^ 64 = s.running.card - 1
      omega
    bound := by
      show (s.running.erase r).card + s.pending.card ≤ limit quota
      omega }

theorem counted_step (h : Counted quota s) {l : AdmissionStep ι F} (hg : guard l s)
    (hroom : HasRoom config s l) : Counted quota (update config l s) := by
  cases l with
  | enter r => exact counted_enter h hg hroom
  | consume r now => exact counted_consume h hg now
  | load r => exact counted_load h hg hroom
  | prioritize r total used reserved => exact counted_prioritize h hg total used reserved
  | start r => exact counted_start h hg
  | finish r => exact counted_finish h hg

omit [DecidableEq ι] in
theorem counted_fresh (created : Nat) :
    Counted (config.resolveQuota id) (fresh config id created : AdmissionState ι F) where
  sameQuota := rfl
  pending r := iff_of_false (Finset.notMem_empty r) not_false
  running r := iff_of_false (Finset.notMem_empty r) not_false
  inFlight := rfl
  bound := Nat.zero_le _

/-- As long as a request gets past the check only when there is room, the requests in flight are
within the limit, and a request that ends is counted. -/
theorem within_limit (hs : ((system config id).restrict (HasRoom config)).Reachable s) :
    (∀ max, (config.resolveQuota id).maxConcurrent = some max →
      s.bucket.inFlight.toNat ≤ max.toNat) ∧
      ∀ r, guard (.finish r) s → s.bucket.inFlight ≠ 0 := by
  have hcounted : Counted (config.resolveQuota id) s := by
    refine Lts.invariant (S := (system config id).restrict (HasRoom config))
      (P := Counted (config.resolveQuota id)) ?_ ?_ s hs
    · rintro s ⟨created, rfl⟩
      exact counted_fresh created
    · intro s l h hg
      exact counted_step h hg.1 hg.2
  constructor
  · intro max hmax
    have hbound := hcounted.bound
    unfold limit at hbound
    rw [hmax, ← hcounted.inFlight] at hbound
    dsimp only at hbound
    omega
  · intro r hr hzero
    have hphase : s.phase r = .running := hr
    have hrun : r ∈ s.running := (hcounted.running r).2 (by rw [hphase]; trivial)
    have hpos := Finset.card_pos.2 ⟨r, hrun⟩
    rw [← hcounted.inFlight, hzero] at hpos
    exact absurd hpos (by decide)

end System

/-- Two requests at a time, by default. -/
def twoAtATime : TenantConfig ExtRat where
  enabled := true
  defaultMaxRps := none
  defaultMaxConcurrent := some 2
  saturationThreshold := .num (4 / 5)
  tenants := []

/-- Two requests overlap, and a third one that comes in between is refused. -/
theorem within_limit_overlapping :
    ((system twoAtATime ⟨"a"⟩).run (fresh twoAtATime ⟨"a"⟩ 0)
      [.enter 0, .enter 1, .consume 1 0, .consume 0 0, .load 0, .load 1,
        .prioritize 1 100 0 (.num 0), .start 1, .prioritize 0 100 0 (.num 0), .start 0,
        .enter 2, .consume 2 0, .load (2 : Nat)]).bucket.inFlight.toNat ≤ 2 := by
  have hinit : ((system twoAtATime ⟨"a"⟩).restrict (HasRoom twoAtATime)).Reachable
      (fresh twoAtATime ⟨"a"⟩ 0 : AdmissionState Nat ExtRat) :=
    Lts.Reachable.init ⟨0, rfl⟩
  refine (within_limit (hinit.run (Lts.enabled_restrict.2 ⟨by decide +kernel, ?_⟩))).1 2 (by decide)
  decide +kernel

/-- One request at a time, by default. -/
def oneAtATime : TenantConfig ExtRat := { twoAtATime with defaultMaxConcurrent := some 1 }

/-- Two requests load the counter before either is counted. -/
theorem both_started :
    let ls : List (AdmissionStep Nat ExtRat) :=
      [.enter 0, .consume 0 0, .load 0, .prioritize 0 100 0 (.num 0),
        .enter 1, .consume 1 0, .load 1, .prioritize 1 100 0 (.num 0), .start 0, .start 1]
    (oneAtATime.resolveQuota ⟨"a"⟩).maxConcurrent = some 1 ∧
      (system oneAtATime ⟨"a"⟩).Enabled (fresh oneAtATime ⟨"a"⟩ 0) ls ∧
      ((system oneAtATime ⟨"a"⟩).run (fresh oneAtATime ⟨"a"⟩ 0) ls).bucket.inFlight.toNat = 2 := by
  decide +kernel

end AdmissionState

end HierKvGateway
