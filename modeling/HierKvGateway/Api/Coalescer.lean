import HierKvGateway.Api.Coalesced
import HierKvGateway.Lib.Run
import HierKvGateway.Lib.Update
import Mathlib.Data.Fintype.Defs

/-!
# Api.Coalescer — one forward for concurrent requests

The first call for a key leads: it puts its producer, as a shared future, into the map, and later
calls for the key wait for the same future (`coalescer.rs`). Any of them drives it. When the leader
has its result it removes the entry, at once or `ttl_ms` later; nobody else does.

A call may be dropped while it waits. If that happens to a leader, the entry stays, and answers
calls for ever. `CoalescerState.fresh_and_removed`: as long as no leader is dropped, no call gets an
old result, and entries are removed in time.
-/

namespace HierKvGateway

/-- `CoalescingConfig`. -/
structure CoalescingConfig where
  enabled : Bool
  ttlMs : BitVec 64
  maxInflight : BitVec 64
deriving DecidableEq, Repr

/-- `CoalescingConfig::default`. -/
def CoalescingConfig.default : CoalescingConfig := ⟨false, 50, 1024⟩

/-- What a producer produces. -/
abbrev Produced := Except CoalesceError CoalescedResponse

/-- How far a call of `coalesce` has got. -/
inductive CallPhase (ι : Type) where
  | absent
  /-- Has found room in the map. -/
  | admitted
  /-- Waits for the shared future of a leader, itself or another, since a time. -/
  | attached (leader : ι) (since : Nat)
  /-- Runs its own producer beside the map. -/
  | bypassing
  | answered (leader : ι) (since : Nat) (result : Produced)
  | bypassed (result : Produced)
  | dropped
deriving DecidableEq

/-- The leader whose future a call waits for. -/
def CallPhase.waitsFor {ι : Type} : CallPhase ι → Option ι
  | .attached leader _ => some leader
  | _ => none

theorem CallPhase.waitsFor_eq_some {ι : Type} {p : CallPhase ι} {leader : ι} :
    p.waitsFor = some leader ↔ ∃ since, p = .attached leader since := by
  constructor
  · intro h
    cases p with
    | attached leader' since =>
      rcases Option.some.inj h with rfl
      exact ⟨since, rfl⟩
    | _ => exact absurd h.symm (Option.some_ne_none leader)
  · rintro ⟨since, rfl⟩
    rfl

/-- A phase in which a call has nothing to do with a shared future. -/
def CallPhase.Apart {ι : Type} : CallPhase ι → Prop
  | .attached _ _ => False
  | .answered _ _ _ => False
  | _ => True

/-- A phase of a call that has looked its key up. -/
def CallPhase.Entered {ι : Type} : CallPhase ι → Prop
  | .absent => False
  | .admitted => False
  | _ => True

/-- `CoalesceStats`. -/
structure CoalesceStats where
  leaders : Nat
  waiters : Nat
  bypassed : Nat
  forwardsSaved : Nat
deriving DecidableEq, Repr

/-- A removal that a leader has scheduled. -/
structure Removal (ι : Type) where
  key : BitVec 64
  due : Nat
  leader : ι
deriving DecidableEq

/-- The coalescer and the calls on it. A shared future is known by its leader. -/
structure CoalescerState (ι : Type) where
  /-- The time in milliseconds. -/
  now : Nat
  inflight : AList fun _ : BitVec 64 => ι
  stats : CoalesceStats
  removals : List (Removal ι)
  phase : ι → CallPhase ι
  /-- When the producer of a leader completed, and with what. -/
  completed : ι → Option (Nat × Produced)

namespace CoalescerState

variable {ι : Type}

/-- The steps of the calls and of the timers. -/
inductive Label (ι : Type) where
  | tick
  /-- `coalesce` is called and looks whether there is room. -/
  | call (c : ι)
  /-- It looks its key up and attaches to the shared future. -/
  | attach (c : ι)
  /-- The producer completes while a call polls the shared future. -/
  | complete (c : ι) (result : Produced)
  /-- The call has the result; it cleans up, if it is the leader, and returns. -/
  | resume (c : ι)
  /-- A producer beside the map completes. -/
  | bypass (c : ι) (result : Produced)
  /-- The caller goes away at an await. -/
  | drop (c : ι)
  /-- A scheduled removal is due. -/
  | remove (r : Removal ι)

/-- The call waits for a producer that is still running. -/
def Waiting (s : CoalescerState ι) (c : ι) : Prop :=
  (s.phase c).waitsFor.any (fun leader => (s.completed leader).isNone) = true

/-- The call waits for a producer that has completed. -/
def Woken (s : CoalescerState ι) (c : ι) : Prop :=
  (s.phase c).waitsFor.any (fun leader => (s.completed leader).isSome) = true

/-- The call waits for its own producer, which it leads. -/
def Leading (s : CoalescerState ι) (c : ι) : Prop := (s.phase c).waitsFor = some c

/-- The call is at an await. -/
def Pending (s : CoalescerState ι) (c : ι) : Prop :=
  (s.phase c).waitsFor.isSome = true ∨ s.phase c = .bypassing

theorem waiting_iff {s : CoalescerState ι} {c : ι} : s.Waiting c ↔
    ∃ leader since, s.phase c = .attached leader since ∧ s.completed leader = none := by
  unfold Waiting
  constructor
  · intro h
    obtain ⟨leader, hwaits, hnone⟩ := (Option.any_eq_true _ _).1 h
    obtain ⟨since, hc⟩ := CallPhase.waitsFor_eq_some.1 hwaits
    exact ⟨leader, since, hc, Option.isNone_iff_eq_none.1 hnone⟩
  · rintro ⟨leader, since, hc, hnone⟩
    rw [hc]
    exact Option.isNone_iff_eq_none.2 hnone

theorem woken_iff {s : CoalescerState ι} {c : ι} : s.Woken c ↔
    ∃ leader since t result, s.phase c = .attached leader since ∧
      s.completed leader = some (t, result) := by
  unfold Woken
  constructor
  · intro h
    obtain ⟨leader, hwaits, hsome⟩ := (Option.any_eq_true _ _).1 h
    obtain ⟨since, hc⟩ := CallPhase.waitsFor_eq_some.1 hwaits
    obtain ⟨⟨t, result⟩, hdone⟩ := Option.isSome_iff_exists.1 hsome
    exact ⟨leader, since, t, result, hc, hdone⟩
  · rintro ⟨leader, since, t, result, hc, hdone⟩
    rw [hc]
    exact Option.isSome_iff_exists.2 ⟨_, hdone⟩

/-- Time passes when nothing can run: no call is under way or woken, and no removal is due. -/
def guard : Label ι → CoalescerState ι → Prop
  | .tick, s => (∀ c, s.phase c ≠ .admitted ∧ ¬s.Woken c) ∧ ∀ r ∈ s.removals, s.now < r.due
  | .call c, s => s.phase c = .absent
  | .attach c, s => s.phase c = .admitted
  | .complete c _, s => s.Waiting c
  | .resume c, s => s.Woken c
  | .bypass c _, s => s.phase c = .bypassing
  | .drop c, s => s.Pending c
  | .remove r, s => r ∈ s.removals ∧ r.due ≤ s.now

instance [DecidableEq ι] [Fintype ι] : ∀ (l : Label ι) (s : CoalescerState ι), Decidable (guard l s)
  | .tick, s => inferInstanceAs (Decidable
    ((∀ c, s.phase c ≠ .admitted ∧
      ¬(s.phase c).waitsFor.any (fun leader => (s.completed leader).isSome) = true) ∧
        ∀ r ∈ s.removals, s.now < r.due))
  | .call c, s => inferInstanceAs (Decidable (s.phase c = .absent))
  | .attach c, s => inferInstanceAs (Decidable (s.phase c = .admitted))
  | .complete c _, s => inferInstanceAs (Decidable
    ((s.phase c).waitsFor.any (fun leader => (s.completed leader).isNone) = true))
  | .resume c, s => inferInstanceAs (Decidable
    ((s.phase c).waitsFor.any (fun leader => (s.completed leader).isSome) = true))
  | .bypass c _, s => inferInstanceAs (Decidable (s.phase c = .bypassing))
  | .drop c, s => inferInstanceAs (Decidable
    ((s.phase c).waitsFor.isSome = true ∨ s.phase c = .bypassing))
  | .remove r, s => inferInstanceAs (Decidable (r ∈ s.removals ∧ r.due ≤ s.now))

section System

variable [DecidableEq ι] (cfg : CoalescingConfig) (key : ι → BitVec 64)

/-- The capacity guard of `coalesce`: without room the call runs its producer directly. -/
def capacityGuard (c : ι) (s : CoalescerState ι) : CoalescerState ι :=
  if 0 < cfg.maxInflight.toNat ∧ cfg.maxInflight.toNat ≤ s.inflight.entries.length then
    { s with
      stats := { s.stats with bypassed := s.stats.bypassed + 1 }
      phase := Function.update s.phase c .bypassing }
  else { s with phase := Function.update s.phase c .admitted }

/-- The entry of `coalesce`: a key that is there already is waited for. -/
def attach (c : ι) (s : CoalescerState ι) : CoalescerState ι :=
  match s.inflight.lookup (key c) with
  | some leader =>
    { s with
      stats := { s.stats with
        waiters := s.stats.waiters + 1, forwardsSaved := s.stats.forwardsSaved + 1 }
      phase := Function.update s.phase c (.attached leader s.now) }
  | none =>
    { s with
      inflight := s.inflight.insert (key c) c
      stats := { s.stats with leaders := s.stats.leaders + 1 }
      phase := Function.update s.phase c (.attached c s.now) }

/-- `schedule_cleanup`. -/
def scheduleCleanup (c : ι) (s : CoalescerState ι) : CoalescerState ι :=
  if cfg.ttlMs = 0 then { s with inflight := s.inflight.erase (key c) }
  else { s with removals := ⟨key c, s.now + cfg.ttlMs.toNat, c⟩ :: s.removals }

/-- `coalesce` from the await on; the leader cleans up. -/
def finish (c leader : ι) (since : Nat) (result : Produced) (s : CoalescerState ι) :
    CoalescerState ι :=
  let s := { s with phase := Function.update s.phase c (.answered leader since result) }
  if c = leader then s.scheduleCleanup cfg key c else s

def update : Label ι → CoalescerState ι → CoalescerState ι
  | .tick, s => { s with now := s.now + 1 }
  | .call c, s => s.capacityGuard cfg c
  | .attach c, s => s.attach key c
  | .complete c result, s =>
    match s.phase c with
    | .attached leader _ =>
      { s with completed := Function.update s.completed leader (some (s.now, result)) }
    | _ => s
  | .resume c, s =>
    match s.phase c with
    | .attached leader since =>
      match s.completed leader with
      | some (_, result) => s.finish cfg key c leader since result
      | none => s
    | _ => s
  | .bypass c result, s => { s with phase := Function.update s.phase c (.bypassed result) }
  | .drop c, s => { s with phase := Function.update s.phase c .dropped }
  | .remove r, s =>
    { s with inflight := s.inflight.erase r.key, removals := s.removals.erase r }

/-- An empty map, and no calls yet. -/
structure Initial (s : CoalescerState ι) : Prop where
  inflight : s.inflight = ∅
  removals : s.removals = []
  phase : ∀ c, s.phase c = .absent
  completed : ∀ c, s.completed c = none

/-- All runs of the calls and the timers. -/
def system : Lts (CoalescerState ι) (Label ι) where
  init := Initial
  guard := guard
  update := update cfg key

instance [Fintype ι] (l : Label ι) (s : CoalescerState ι) :
    Decidable ((system cfg key).guard l s) := inferInstanceAs (Decidable (guard l s))

/-! ## Old answers -/

/-- No call is answered with the result of a producer that completed more than `ttl_ms` before the
call attached. -/
def Fresh (s : CoalescerState ι) : Prop :=
  ∀ c leader since result, s.phase c = .answered leader since result →
    ∃ t, s.completed leader = some (t, result) ∧ since ≤ t + cfg.ttlMs.toNat

/-- An entry whose producer has completed and that no call waits for is removed once `ttl_ms` has
passed. -/
def Removed (s : CoalescerState ι) : Prop :=
  ∀ k leader t result, s.inflight.lookup k = some leader → s.completed leader = some (t, result) →
    (∀ c since, s.phase c ≠ .attached leader since) → s.now ≤ t + cfg.ttlMs.toNat

/-- No leader is dropped while it waits. -/
def LeaderKept (s : CoalescerState ι) : Label ι → Prop
  | .drop c => ¬s.Leading c
  | _ => True

instance (s : CoalescerState ι) : ∀ l : Label ι, Decidable (LeaderKept s l)
  | .drop c => inferInstanceAs (Decidable ¬(s.phase c).waitsFor = some c)
  | .tick | .call _ | .attach _ | .complete _ _ | .resume _ | .bypass _ _ | .remove _ =>
    inferInstanceAs (Decidable True)

/-- Somebody is going to remove an entry: its leader, which still waits, or a timer. -/
def HasRemover (s : CoalescerState ι) (k : BitVec 64) (leader : ι) : Prop :=
  (∃ since, s.phase leader = .attached leader since) ∨
    ∃ t result r, s.completed leader = some (t, result) ∧ r ∈ s.removals ∧ r.key = k ∧
      r.due = t + cfg.ttlMs.toNat

/-- Every entry has somebody to remove it, in time. -/
structure Kept (s : CoalescerState ι) : Prop where
  attached : ∀ c leader since, s.phase c = .attached leader since →
    (s.phase leader).Entered ∧ since ≤ s.now
  completed : ∀ leader t result, s.completed leader = some (t, result) → (s.phase leader).Entered
  /-- A leader returns in the millisecond its producer completes in. -/
  leading : ∀ leader since t result, s.phase leader = .attached leader since →
    s.completed leader = some (t, result) → t = s.now
  entry : ∀ k leader, s.inflight.lookup k = some leader →
    key leader = k ∧ (s.phase leader).Entered ∧ s.HasRemover cfg k leader
  due : ∀ r ∈ s.removals, s.now ≤ r.due
  waiting : ∀ c leader since t result, s.phase c = .attached leader since →
    s.completed leader = some (t, result) → since ≤ t + cfg.ttlMs.toNat
  fresh : Fresh cfg s

variable {cfg key} {s : CoalescerState ι} {c : ι}

omit [DecidableEq ι] in
/-- What an entry still answers is at most `ttl_ms` old. -/
theorem Kept.now_le (h : Kept cfg key s) {k : BitVec 64} {leader : ι} {t : Nat} {result : Produced}
    (hentry : s.inflight.lookup k = some leader) (hdone : s.completed leader = some (t, result)) :
    s.now ≤ t + cfg.ttlMs.toNat := by
  rcases (h.entry k leader hentry).2.2 with ⟨since, hlead⟩ | ⟨t', result', r, hdone', hr, -, hdue⟩
  · have := h.leading leader since t result hlead hdone
    omega
  · rcases Option.some.inj (hdone.symm.trans hdone') with ⟨⟩
    have := h.due r hr
    omega

omit [DecidableEq ι] in
theorem Kept.removed (h : Kept cfg key s) : Removed cfg s := by
  intro k leader t result hentry hdone _
  exact h.now_le hentry hdone

omit [DecidableEq ι] in
theorem Kept.withStats (h : Kept cfg key s) (stats : CoalesceStats) :
    Kept cfg key { s with stats := stats } :=
  ⟨h.attached, h.completed, h.leading, h.entry, h.due, h.waiting, h.fresh⟩

theorem attached_of_update {c' leader : ι} {since : Nat} {p : CallPhase ι} (hp : p.Apart)
    (h : Function.update s.phase c p c' = .attached leader since) :
    s.phase c' = .attached leader since := by
  rcases Function.update_cases h with ⟨-, rfl⟩ | ⟨-, h⟩
  · exact hp.elim
  · exact h

theorem answered_of_update {c' leader : ι} {since : Nat} {result : Produced} {p : CallPhase ι}
    (hp : ∀ leader since result, p ≠ .answered leader since result)
    (h : Function.update s.phase c p c' = .answered leader since result) :
    s.phase c' = .answered leader since result := by
  rcases Function.update_cases h with ⟨-, h⟩ | ⟨-, h⟩
  · exact absurd h (hp leader since result)
  · exact h

/-- A call that has looked its key up is past that for good. -/
theorem entered_update {leader : ι} {p : CallPhase ι} (hp : (s.phase c).Entered → p.Entered)
    (h : (s.phase leader).Entered) : (Function.update s.phase c p leader).Entered := by
  by_cases hc : leader = c
  · subst hc
    rw [Function.update_self]
    exact hp h
  · rw [Function.update_of_ne hc]
    exact h

theorem entered_update_self {p : CallPhase ι} (hp : p.Entered) :
    (Function.update s.phase c p c).Entered := by
  rw [Function.update_self]
  exact hp

/-- A call that does not lead is nobody's remover. -/
theorem hasRemover_update {k : BitVec 64} {leader : ι} (p : CallPhase ι)
    (hlead : ∀ since, s.phase c ≠ .attached c since) (h : s.HasRemover cfg k leader) :
    HasRemover cfg { s with phase := Function.update s.phase c p } k leader := by
  rcases h with ⟨since, hl⟩ | hr
  · have hne : leader ≠ c := by
      rintro rfl
      exact hlead since hl
    exact Or.inl ⟨since, (Function.update_of_ne hne p s.phase).trans hl⟩
  · exact Or.inr hr

/-- A call that has nothing to do with a shared future leaves the others as they are. -/
theorem kept_apart (h : Kept cfg key s) {p : CallPhase ι} (hp : p.Apart)
    (hent : (s.phase c).Entered → p.Entered) (hlead : ∀ since, s.phase c ≠ .attached c since) :
    Kept cfg key { s with phase := Function.update s.phase c p } where
  attached c' leader since hc' := by
    obtain ⟨hleader, hsince⟩ := h.attached c' leader since (attached_of_update hp hc')
    exact ⟨entered_update hent hleader, hsince⟩
  completed leader t result hdone := entered_update hent (h.completed leader t result hdone)
  leading leader since t result hl := h.leading leader since t result (attached_of_update hp hl)
  entry k leader hentry := by
    obtain ⟨hkey, hleader, hremover⟩ := h.entry k leader hentry
    exact ⟨hkey, entered_update hent hleader, hasRemover_update p hlead hremover⟩
  due := h.due
  waiting c' leader since t result hc' :=
    h.waiting c' leader since t result (attached_of_update hp hc')
  fresh c' leader since result hc' := by
    refine h.fresh c' leader since result (answered_of_update ?_ hc')
    rintro leader since result rfl
    exact hp

omit [DecidableEq ι] in
theorem kept_tick (h : Kept cfg key s) (hquiet : ∀ c, ¬s.Woken c)
    (hdue : ∀ r ∈ s.removals, s.now < r.due) : Kept cfg key { s with now := s.now + 1 } where
  attached c leader since hc := by
    obtain ⟨hleader, hsince⟩ := h.attached c leader since hc
    exact ⟨hleader, Nat.le_succ_of_le hsince⟩
  completed := h.completed
  leading leader since t result hl hdone := by
    -- the leader would have been woken
    exact absurd (woken_iff.2 ⟨leader, since, t, result, hl, hdone⟩) (hquiet leader)
  entry := h.entry
  due := hdue
  waiting := h.waiting
  fresh := h.fresh

theorem kept_call (h : Kept cfg key s) (hc : s.phase c = .absent) :
    Kept cfg key (s.capacityGuard cfg c) := by
  have hent {p : CallPhase ι} : (s.phase c).Entered → p.Entered := by
    intro hent
    rw [hc] at hent
    exact hent.elim
  have hlead : ∀ since, s.phase c ≠ .attached c since := by
    intro since heq
    exact absurd (hc.symm.trans heq) nofun
  unfold capacityGuard
  split
  · refine (kept_apart h ?_ hent hlead).withStats _
    exact True.intro
  · refine kept_apart h ?_ hent hlead
    exact True.intro

omit [DecidableEq ι] in
theorem not_attached_of_admitted (hc : s.phase c = .admitted) (since : Nat) :
    s.phase c ≠ .attached c since := by
  rw [hc]
  exact nofun

omit [DecidableEq ι] in
/-- A call that has not looked its key up is not waited for. -/
theorem not_entered_of_admitted (hc : s.phase c = .admitted) : ¬(s.phase c).Entered := by
  rw [hc]
  exact id

/-- A call attaches to a future: one whose producer completed at most `ttl_ms` ago, or its own, for
which there is a new entry. -/
theorem kept_attached (h : Kept cfg key s) (hc : s.phase c = .admitted) {leader : ι}
    (hleader : leader = c ∨ (s.phase leader).Entered)
    (hrecent : ∀ t result, s.completed leader = some (t, result) → s.now ≤ t + cfg.ttlMs.toNat)
    {inflight : AList fun _ : BitVec 64 => ι}
    (hentries : ∀ k leader', inflight.lookup k = some leader' →
      s.inflight.lookup k = some leader' ∨ key c = k ∧ leader' = c ∧ leader = c) :
    Kept cfg key { s with
      inflight := inflight
      phase := Function.update s.phase c (.attached leader s.now) } where
  attached c' leader' since hc' := by
    rcases Function.update_cases hc' with ⟨-, heq⟩ | ⟨-, hc'⟩
    · cases heq
      refine ⟨?_, Nat.le_refl _⟩
      rcases hleader with rfl | hleader
      · exact entered_update_self True.intro
      · exact entered_update (fun _ => True.intro) hleader
    · obtain ⟨hleader, hsince⟩ := h.attached c' leader' since hc'
      exact ⟨entered_update (fun _ => True.intro) hleader, hsince⟩
  completed leader' t result hdone :=
    entered_update (fun _ => True.intro) (h.completed leader' t result hdone)
  leading leader' since t result hl hdone := by
    rcases Function.update_cases hl with ⟨rfl, heq⟩ | ⟨-, hl⟩
    · -- its producer cannot have completed: it has only now been attached
      exact absurd (h.completed leader' t result hdone) (not_entered_of_admitted hc)
    · exact h.leading leader' since t result hl hdone
  entry k leader' hk := by
    rcases hentries k leader' hk with hk | ⟨hkey, rfl, rfl⟩
    · obtain ⟨hkey, hleader, hremover⟩ := h.entry k leader' hk
      exact ⟨hkey, entered_update (fun _ => True.intro) hleader,
        hasRemover_update _ (not_attached_of_admitted hc) hremover⟩
    · exact ⟨hkey, entered_update_self True.intro, Or.inl ⟨s.now, Function.update_self ..⟩⟩
  due := h.due
  waiting c' leader' since t result hc' hdone := by
    rcases Function.update_cases hc' with ⟨-, heq⟩ | ⟨-, hc'⟩
    · cases heq
      -- the new call: the future it found is recent
      exact hrecent t result hdone
    · exact h.waiting c' leader' since t result hc' hdone
  fresh c' leader' since result hc' := by
    refine h.fresh c' leader' since result (answered_of_update ?_ hc')
    exact nofun

/-- The entry of `coalesce`. -/
theorem kept_attach (h : Kept cfg key s) (hc : s.phase c = .admitted) :
    Kept cfg key (s.attach key c) := by
  unfold attach
  rcases hentry : s.inflight.lookup (key c) with _ | leader
  · -- a new entry, whose producer has not completed
    refine (kept_attached h hc (Or.inl rfl) ?_ ?_).withStats _
    · intro t result hdone
      exact absurd (h.completed c t result hdone) (not_entered_of_admitted hc)
    · intro k leader' hk
      rcases AList.lookup_of_insert hk with ⟨hkey, hnew⟩ | ⟨-, hk⟩
      · exact Or.inr ⟨hkey.symm, hnew, rfl⟩
      · exact Or.inl hk
  · refine (kept_attached h hc (Or.inr (h.entry _ leader hentry).2.1) ?_ ?_).withStats _
    · intro t result hdone
      exact h.now_le hentry hdone
    · intro k leader' hk
      exact Or.inl hk

/-- The producer of a leader completes. -/
theorem kept_complete (h : Kept cfg key s) {leader : ι} {since : Nat} {result : Produced}
    (hc : s.phase c = .attached leader since) (hrunning : s.completed leader = none) :
    Kept cfg key
      { s with completed := Function.update s.completed leader (some (s.now, result)) } where
  attached := h.attached
  completed leader' t result' hdone := by
    rcases Function.update_cases hdone with ⟨rfl, -⟩ | ⟨-, hdone⟩
    · exact (h.attached c leader' since hc).1
    · exact h.completed leader' t result' hdone
  leading leader' since' t result' hl hdone := by
    rcases Function.update_cases hdone with ⟨-, heq⟩ | ⟨-, hdone⟩
    · cases heq
      rfl
    · exact h.leading leader' since' t result' hl hdone
  entry k leader' hk := by
    obtain ⟨hkey, hleader, hremover⟩ := h.entry k leader' hk
    refine ⟨hkey, hleader, ?_⟩
    rcases hremover with hl | ⟨t, result', r, hdone, hr⟩
    · exact Or.inl hl
    · -- an entry waiting for its timer is of a producer that has completed before
      have hne : leader' ≠ leader := by
        rintro rfl
        exact absurd (hrunning.symm.trans hdone).symm (Option.some_ne_none _)
      exact Or.inr ⟨t, result', r, (Function.update_of_ne hne _ _).trans hdone, hr⟩
  due := h.due
  waiting c' leader' since' t result' hc' hdone := by
    rcases Function.update_cases hdone with ⟨-, heq⟩ | ⟨-, hdone⟩
    · cases heq
      -- a producer that completes now is not late for anybody who waits
      have := (h.attached c' leader' since' hc').2
      omega
    · exact h.waiting c' leader' since' t result' hc' hdone
  fresh c' leader' since' result' hc' := by
    obtain ⟨t, hdone, hle⟩ := h.fresh c' leader' since' result' hc'
    have hne : leader' ≠ leader := by
      rintro rfl
      exact absurd (hrunning.symm.trans hdone).symm (Option.some_ne_none _)
    exact ⟨t, (Function.update_of_ne hne _ _).trans hdone, hle⟩

/-- A call returns with its answer; if it leads, the entry has no remover left but the timer. -/
theorem kept_answered (h : Kept cfg key s) {leader : ι} {since t : Nat} {result : Produced}
    (hc : s.phase c = .attached leader since) (hdone : s.completed leader = some (t, result))
    (hentry : ∀ k, s.inflight.lookup k = some c → c = leader →
      ∃ r ∈ s.removals, r.key = k ∧ r.due = t + cfg.ttlMs.toNat) :
    Kept cfg key
      { s with phase := Function.update s.phase c (.answered leader since result) } where
  attached c' leader' since' hc' := by
    rcases Function.update_cases hc' with ⟨-, heq⟩ | ⟨-, hc'⟩
    · exact nomatch heq
    · obtain ⟨hleader, hsince⟩ := h.attached c' leader' since' hc'
      exact ⟨entered_update (fun _ => True.intro) hleader, hsince⟩
  completed leader' t' result' hdone' :=
    entered_update (fun _ => True.intro) (h.completed leader' t' result' hdone')
  leading leader' since' t' result' hl hdone' := by
    rcases Function.update_cases hl with ⟨-, heq⟩ | ⟨-, hl⟩
    · exact nomatch heq
    · exact h.leading leader' since' t' result' hl hdone'
  entry k leader' hk := by
    obtain ⟨hkey, hleader, hremover⟩ := h.entry k leader' hk
    refine ⟨hkey, entered_update (fun _ => True.intro) hleader, ?_⟩
    by_cases hlead : c = leader
    · by_cases heq : leader' = c
      · -- its own entry: from now on only the timer removes it
        obtain ⟨r, hr⟩ := hentry k (heq ▸ hk) hlead
        refine Or.inr ⟨t, result, r, ?_, hr⟩
        rw [heq, hlead]
        exact hdone
      · rcases hremover with ⟨since', hl⟩ | hr
        · exact Or.inl ⟨since', (Function.update_of_ne heq _ s.phase).trans hl⟩
        · exact Or.inr hr
    · -- a call that only waited has removed nothing
      refine hasRemover_update _ ?_ hremover
      intro since' heq
      rw [hc] at heq
      exact hlead (CallPhase.attached.inj heq).1.symm
  due := h.due
  waiting c' leader' since' t' result' hc' := by
    rcases Function.update_cases hc' with ⟨-, heq⟩ | ⟨-, hc'⟩
    · exact nomatch heq
    · exact h.waiting c' leader' since' t' result' hc'
  fresh c' leader' since' result' hc' := by
    rcases Function.update_cases hc' with ⟨-, heq⟩ | ⟨-, hc'⟩
    · cases heq
      exact ⟨t, hdone, h.waiting c leader since t result hc hdone⟩
    · exact h.fresh c' leader' since' result' hc'

omit [DecidableEq ι] in
theorem kept_erase (h : Kept cfg key s) (k : BitVec 64) :
    Kept cfg key { s with inflight := s.inflight.erase k } :=
  { h with
    entry := by
      intro k' leader hk
      exact h.entry k' leader (AList.lookup_of_erase hk).2 }

omit [DecidableEq ι] in
theorem kept_schedule (h : Kept cfg key s) {r : Removal ι} (hr : s.now ≤ r.due) :
    Kept cfg key { s with removals := r :: s.removals } :=
  { h with
    entry := by
      intro k leader hk
      obtain ⟨hkey, hleader, hremover⟩ := h.entry k leader hk
      refine ⟨hkey, hleader, ?_⟩
      rcases hremover with hl | ⟨t, result, r', hdone, hr', hrest⟩
      · exact Or.inl hl
      · exact Or.inr ⟨t, result, r', hdone, List.mem_cons_of_mem _ hr', hrest⟩
    due := List.forall_mem_cons.2 ⟨hr, h.due⟩ }

/-- A call returns; the leader cleans up. -/
theorem kept_finish (h : Kept cfg key s) {leader : ι} {since t : Nat} {result : Produced}
    (hc : s.phase c = .attached leader since) (hdone : s.completed leader = some (t, result)) :
    Kept cfg key (s.finish cfg key c leader since result) := by
  unfold finish
  dsimp only
  split
  · rename_i hlead
    subst hlead
    unfold scheduleCleanup
    split
    · -- the entry is gone
      refine kept_answered (kept_erase h (key c)) hc hdone ?_
      intro k hk _
      obtain ⟨hne, hk⟩ := AList.lookup_of_erase hk
      exact absurd (h.entry k c hk).1.symm hne
    · -- the producer completed just now
      have hnow := h.leading c since t result hc hdone
      have hsched := kept_schedule h
        (show s.now ≤ (Removal.mk (key c) (s.now + cfg.ttlMs.toNat) c).due from
          Nat.le_add_right _ _)
      refine kept_answered hsched hc hdone ?_
      intro k hk _
      exact ⟨_, List.mem_cons_self, (h.entry k c hk).1, by rw [hnow]⟩
  · rename_i hlead
    exact kept_answered h hc hdone fun _ _ heq => absurd heq hlead

/-- A removal takes the entry with it. -/
theorem kept_remove (h : Kept cfg key s) (r : Removal ι) :
    Kept cfg key
      { s with inflight := s.inflight.erase r.key, removals := s.removals.erase r } :=
  { h with
    entry := by
      intro k leader hk
      obtain ⟨hne, hk⟩ := AList.lookup_of_erase hk
      obtain ⟨hkey, hleader, hremover⟩ := h.entry k leader hk
      refine ⟨hkey, hleader, ?_⟩
      rcases hremover with hl | ⟨t, result, r', hdone, hr', hkey', hdue⟩
      · exact Or.inl hl
      · -- the removal of another key
        have hrr' : r' ≠ r := by
          rintro rfl
          exact hne hkey'.symm
        exact Or.inr ⟨t, result, r', hdone, (List.mem_erase_of_ne hrr').2 hr', hkey', hdue⟩
    due := by
      intro r' hr'
      exact h.due r' (List.mem_of_mem_erase hr') }

theorem kept_step (h : Kept cfg key s) {l : Label ι} (hg : guard l s) (hkept : LeaderKept s l) :
    Kept cfg key (update cfg key l s) := by
  cases l with
  | tick => exact kept_tick h (fun c => (hg.1 c).2) hg.2
  | call c => exact kept_call h hg
  | attach c => exact kept_attach h hg
  | complete c result =>
    obtain ⟨leader, since, hc, hrunning⟩ := waiting_iff.1 hg
    simp only [update, hc]
    exact kept_complete h hc hrunning
  | resume c =>
    obtain ⟨leader, since, t, result, hc, hdone⟩ := woken_iff.1 hg
    simp only [update, hc, hdone]
    exact kept_finish h hc hdone
  | bypass c result =>
    have hc : s.phase c = .bypassing := hg
    refine kept_apart h ?_ ?_ ?_
    · exact True.intro
    · intro _
      exact True.intro
    · intro since heq
      exact absurd (hc.symm.trans heq) nofun
  | drop c =>
    refine kept_apart h ?_ ?_ ?_
    · exact True.intro
    · intro _
      exact True.intro
    · intro since heq
      exact hkept (CallPhase.waitsFor_eq_some.2 ⟨since, heq⟩)
  | remove r => exact kept_remove h r

omit [DecidableEq ι] in
theorem kept_initial (h : Initial s) : Kept cfg key s where
  attached c leader since hc := absurd ((h.phase c).symm.trans hc) nofun
  completed leader t result hdone :=
    absurd ((h.completed leader).symm.trans hdone).symm (Option.some_ne_none _)
  leading leader since t result hl := absurd ((h.phase leader).symm.trans hl) nofun
  entry k leader hk := by
    rw [h.inflight, AList.lookup_empty] at hk
    exact absurd hk.symm (Option.some_ne_none leader)
  due r hr := by
    rw [h.removals] at hr
    exact absurd hr List.not_mem_nil
  waiting c leader since t result hc := absurd ((h.phase c).symm.trans hc) nofun
  fresh c leader since result hc := absurd ((h.phase c).symm.trans hc) nofun

/-- As long as no leader is dropped, no call gets an old answer, and entries are removed in
time. -/
theorem fresh_and_removed (hs : ((system cfg key).restrict LeaderKept).Reachable s) :
    Fresh cfg s ∧ Removed cfg s := by
  have hinit : ∀ s, Initial s → Kept cfg key s := fun s hs => kept_initial hs
  have hkept := Lts.invariant (S := (system cfg key).restrict LeaderKept) hinit
    (fun s l h hg => kept_step h hg.1 hg.2) s hs
  exact ⟨hkept.fresh, hkept.removed⟩

end System

/-! ## Three calls

All are for the same key, with the default TTL of 50 ms. -/

/-- The default configuration, enabled. -/
def cfg : CoalescingConfig := { CoalescingConfig.default with enabled := true }

/-- The calls. -/
inductive Call where
  | first
  | second
  | third
deriving DecidableEq

instance : Fintype Call where
  elems := {.first, .second, .third}
  complete c := by cases c <;> decide

/-- All calls are for one key. -/
def sameKey : Call → BitVec 64 := fun _ => 7

/-- No calls yet. -/
def start : CoalescerState Call where
  now := 0
  inflight := ∅
  stats := ⟨0, 0, 0, 0⟩
  removals := []
  phase _ := .absent
  completed _ := none

theorem initial_start : Initial start := ⟨rfl, rfl, fun _ => rfl, fun _ => rfl⟩

/-- The first call leads, the second waits; the second is dropped, and the first returns. -/
def waiterDropped : List (Label Call) :=
  [.call .first, .attach .first, .call .second, .attach .second, .drop .second,
    .complete .first (.error ⟨"e"⟩), .resume .first] ++
    List.replicate 50 .tick ++ [.call .third, .attach .third, .resume .third]

/-- A third call 50 ms later still gets the answer, and the properties hold. -/
theorem fresh_and_removed_waiterDropped :
    Fresh cfg ((system cfg sameKey).run start waiterDropped) ∧
      Removed cfg ((system cfg sameKey).run start waiterDropped) := by
  have henabled : (system cfg sameKey).Enabled start waiterDropped := by decide +kernel
  have hkept : Run.Each (fun s l => (system cfg sameKey).update l s) LeaderKept start
      waiterDropped := by
    decide +kernel
  exact fresh_and_removed ((Lts.Reachable.init initial_start).run
    (Lts.enabled_restrict.2 ⟨henabled, hkept⟩))

/-- The first call leads, the second waits; the first is dropped, and the second drives the
producer. A third call comes 51 ms later. -/
def leaderDropped : List (Label Call) :=
  [.call .first, .attach .first, .call .second, .attach .second, .drop .first,
    .complete .second (.error ⟨"e"⟩), .resume .second] ++
    List.replicate 51 .tick ++ [.call .third, .attach .third, .resume .third]

/-- The third call gets the old answer, and the entry is still there. -/
theorem orphan_answers :
    let s := (system cfg sameKey).run start leaderDropped
    (system cfg sameKey).Reachable s ∧ ¬Fresh cfg s ∧ ¬Removed cfg s := by
  have henabled : (system cfg sameKey).Enabled start leaderDropped := by decide +kernel
  have hphase : ((system cfg sameKey).run start leaderDropped).phase .third =
      .answered .first 51 (.error ⟨"e"⟩) := by decide +kernel
  have hdone : ((system cfg sameKey).run start leaderDropped).completed .first =
      some (0, .error ⟨"e"⟩) := by decide +kernel
  refine ⟨(Lts.Reachable.init initial_start).run henabled, ?_, ?_⟩
  · intro hfresh
    obtain ⟨t, ht, hle⟩ := hfresh .third .first 51 _ hphase
    rcases Prod.mk.inj (Option.some.inj (hdone.symm.trans ht)) with ⟨rfl, -⟩
    exact absurd hle (by decide)
  · intro hremoved
    have hnobody : ∀ c, (((system cfg sameKey).run start leaderDropped).phase c).waitsFor ≠
        some .first := by
      decide +kernel
    have hle := hremoved 7 .first 0 _ (by decide +kernel) hdone
      fun c since hc => hnobody c (CallPhase.waitsFor_eq_some.2 ⟨since, hc⟩)
    exact absurd hle (by decide +kernel)

end CoalescerState

end HierKvGateway
