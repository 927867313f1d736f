import HierKvGateway.Cluster.Gossip
import HierKvGateway.Lib.Run
import Mathlib.Logic.Function.Basic

/-!
# Cluster.FailureDetector — from alive to suspect to dead

One engine's probe ticks and the messages it handles, one at a time. A tick marks
a member that has been silent for the probe timeout as suspect, and a suspect that
has been silent for the suspect timeout as dead. Both timeouts count from the
same moment, the last time the member was heard of.

So the time a member is given as a suspect is the suspect timeout less the time
it took to suspect it. `graceful_iff`: a member that is marked dead has been a
suspect for the whole suspect timeout exactly when no tick falls between the end
of that timeout counted from the last message and its end counted from the tick
that found the member overdue.
-/

namespace HierKvGateway

/-- What the engine sees. -/
inductive DetectorEvent where
  | tick (now : Nat)
  | message (now : Nat) (h : GossipHandler) (msg : GossipMessage)

/-- When it sees it. -/
def DetectorEvent.now : DetectorEvent → Nat
  | .tick now => now
  | .message now _ _ => now

/-- The member list, and what can be told from the events so far. -/
structure FailureDetector where
  members : MemberList
  /-- The time of the last event. -/
  clock : Nat
  /-- The tick that marked a member as suspect, if nothing was heard of it since. -/
  since : InstanceId → Option Nat
  /-- When a member was last heard of. -/
  heardAt : InstanceId → Option Nat
  /-- The first tick at which it had been silent for the probe timeout. -/
  overdueAt : InstanceId → Option Nat

namespace FailureDetector

/-- What a list says of an instance. -/
def statusOf (l : MemberList) (X : InstanceId) : Option MemberStatus := (l.get X).map (·.status)

/-- The detector of an engine that has just started. -/
def new (e : GossipEngine) (h : GossipHandler) (now : Nat) : FailureDetector where
  members := MemberList.new.upsert
    (.new e.selfId e.selfRegion e.selfAddr h.currentMetaDigest now)
  clock := now
  since := fun _ => none
  heardAt := fun _ => none
  overdueAt := fun _ => none

/-- A probe tick. -/
def tick (e : GossipEngine) (now : Nat) (s : FailureDetector) : FailureDetector where
  members := e.probeScan now s.members
  clock := now
  since X :=
    if statusOf s.members X = some .alive ∧
        statusOf (e.probeScan now s.members) X = some .suspect then some now
    else s.since X
  heardAt := s.heardAt
  overdueAt X := (s.overdueAt X).or
    ((s.heardAt X).bind fun p => if p + e.config.probeTimeoutMs < now then some now else none)

/-- A message is handled. -/
def message (e : GossipEngine) (now : Nat) (h : GossipHandler) (msg : GossipMessage)
    (s : FailureDetector) : FailureDetector :=
  let members := (e.receive h s.members now msg).members
  match e.hears msg with
  | none => { s with members := members, clock := now }
  | some X =>
    { members := members
      clock := now
      since := Function.update s.since X none
      heardAt := Function.update s.heardAt X (some now)
      overdueAt := Function.update s.overdueAt X none }

def step (e : GossipEngine) (s : FailureDetector) : DetectorEvent → FailureDetector
  | .tick now => s.tick e now
  | .message now h msg => s.message e now h msg

/-- The suspect timeout as configured, in milliseconds. -/
def suspectTimeout (e : GossipEngine) : Nat := e.config.suspectTimeoutSecs * 1000

/-- The event marks the member as dead. -/
def Dies (e : GossipEngine) (s : FailureDetector) (ev : DetectorEvent) (X : InstanceId) : Prop :=
  statusOf s.members X ≠ some .dead ∧ statusOf (s.step e ev).members X = some .dead

/-- Whoever is marked as dead was a suspect, marked so more than the suspect
timeout ago and not heard of since. -/
def Graceful (e : GossipEngine) (s : FailureDetector) (ev : DetectorEvent) : Prop :=
  ∀ X, Dies e s ev X → statusOf s.members X = some .suspect ∧
    ∃ t, s.since X = some t ∧ t + suspectTimeout e < ev.now

/-- A tick that comes later than the suspect timeout after a member was heard of
comes also later than the suspect timeout after the tick that found it overdue. -/
def Unhurried (e : GossipEngine) (s : FailureDetector) : DetectorEvent → Prop
  | .tick now => ∀ X p t, s.heardAt X = some p → s.overdueAt X = some t →
      p + suspectTimeout e < now → t + suspectTimeout e < now
  | .message _ _ _ => True

/-- The clock does not go back, and fits 64 bits. -/
def InTime (s : FailureDetector) (ev : DetectorEvent) : Prop :=
  s.clock ≤ ev.now ∧ ev.now ≤ GossipEngine.u64Max

variable {e : GossipEngine} {s : FailureDetector} {X : InstanceId} {now : Nat}

/-! ## What an event does to a member -/

theorem get_tick (hX : X ≠ e.selfId) :
    (s.tick e now).members.get X =
      (s.members.get X).map
        fun m => { m with status := GossipEngine.verdict e.config now m } := by
  rw [tick, GossipEngine.get_probeScan]
  cases hm : s.members.get X with
  | none => rfl
  | some m =>
    have hid : m.instanceId ≠ e.selfId := by
      rw [MemberList.instanceId_of_get hm]
      exact hX
    rw [Option.map_some, Option.map_some, GossipEngine.probed, if_neg hid]

theorem get_tick_self : (s.tick e now).members.get e.selfId = s.members.get e.selfId := by
  rw [tick, GossipEngine.get_probeScan]
  cases hm : s.members.get e.selfId with
  | none => rfl
  | some m =>
    rw [Option.map_some, GossipEngine.probed, if_pos (MemberList.instanceId_of_get hm)]

theorem message_of_none {h : GossipHandler} {msg : GossipMessage} (hn : e.hears msg = none) :
    s.message e now h msg = { s with clock := now } := by
  rw [message, GossipEngine.receive_of_hears_none hn, hn]

/-- A message from another instance. -/
structure Heard (s s' : FailureDetector) (Y : InstanceId) (now : Nat) : Prop where
  record : ∃ m, s'.members.get Y = some m ∧ m.lastPongUnix = now ∧ m.status = .alive
  heardAt : s'.heardAt Y = some now
  overdueAt : s'.overdueAt Y = none
  others : ∀ X ≠ Y, s'.members.get X = s.members.get X ∧ s'.since X = s.since X ∧
    s'.heardAt X = s.heardAt X ∧ s'.overdueAt X = s.overdueAt X
  clock : s'.clock = now

variable (s now) in
theorem message_of_some {h : GossipHandler} {msg : GossipMessage} {Y : InstanceId}
    (hY : e.hears msg = some Y) : Y ≠ e.selfId ∧ Heard s (s.message e now h msg) Y now := by
  have hreceived : Y ≠ e.selfId ∧ ∃ c, c.sender = Y ∧
      (e.receive h s.members now msg).members = s.members.upsert (s.members.heard c now) :=
    GossipEngine.receive_of_hears hY
  rcases hreceived with ⟨hne, c, rfl, hmembers⟩
  refine ⟨hne, ?_⟩
  rw [message, hmembers, hY]
  refine ⟨⟨_, MemberList.get_upsert_heard _ c now, rfl, rfl⟩, Function.update_self _ _ _,
    Function.update_self _ _ _, fun X hX => ⟨?_, ?_, ?_, ?_⟩, rfl⟩
  · exact MemberList.get_upsert_of_ne _ hX
  · exact Function.update_of_ne hX _ _
  · exact Function.update_of_ne hX _ _
  · exact Function.update_of_ne hX _ _

/-! ## What the events tell about a member's status -/

/-- How a member's status goes with the events so far. -/
def Phase (e : GossipEngine) (s : FailureDetector) (X : InstanceId) : MemberStatus → Prop
  | .alive => s.overdueAt X = none
  | .suspect => ∃ t, s.overdueAt X = some t ∧ s.since X = some t
  | .dead => ∃ t, s.overdueAt X = some t ∧ t + suspectTimeout e < s.clock

/-- What is known of another instance. -/
inductive Tracked (e : GossipEngine) (s : FailureDetector) (X : InstanceId) : Prop
  | unknown : s.heardAt X = none → s.members.get X = none → Tracked e s X
  | known {m} : s.members.get X = some m → s.heardAt X = some m.lastPongUnix →
      Phase e s X m.status → Tracked e s X

/-- The engine never hears from itself and never probes itself. -/
structure Tracks (e : GossipEngine) (s : FailureDetector) : Prop where
  self : s.heardAt e.selfId = none
  others : ∀ X ≠ e.selfId, Tracked e s X

theorem tracks_new (e : GossipEngine) (h : GossipHandler) (now : Nat) : Tracks e (new e h now) where
  self := rfl
  others X hX := by
    refine .unknown rfl ?_
    rw [new, MemberList.get_upsert_of_ne _ hX]
    exact MemberList.get_new X

section Tick

variable {m : ClusterMember} {p t : Nat}

variable (e now) in
theorem verdict_of_alive (hm : m.status = .alive) :
    GossipEngine.verdict e.config now m =
      if m.lastPongUnix + e.config.probeTimeoutMs < now then .suspect else .alive := by
  have hlate : m.lastPongUnix < now - e.config.probeTimeoutMs ↔
      m.lastPongUnix + e.config.probeTimeoutMs < now := by omega
  simp only [GossipEngine.verdict, hm, hlate]

variable (e) in
theorem verdict_of_suspect (hmax : now ≤ GossipEngine.u64Max) (hm : m.status = .suspect) :
    GossipEngine.verdict e.config now m =
      if m.lastPongUnix + suspectTimeout e < now then .dead else .suspect := by
  have hlate : m.lastPongUnix < now - GossipEngine.suspectTimeoutMs e.config ↔
      m.lastPongUnix + suspectTimeout e < now := by
    simp only [GossipEngine.suspectTimeoutMs, GossipEngine.u64Max, suspectTimeout] at hmax ⊢
    omega
  simp only [GossipEngine.verdict, hm, hlate]

theorem verdict_of_dead (hm : m.status = .dead) :
    GossipEngine.verdict e.config now m = .dead := by
  simp only [GossipEngine.verdict, hm]

/-- Overdue is overdue until something is heard. -/
theorem overdueAt_tick_of_some (h : s.overdueAt X = some t) :
    (s.tick e now).overdueAt X = some t := by
  show (s.overdueAt X).or _ = some t
  rw [h]
  rfl

variable (e now) in
theorem overdueAt_tick_of_none (h : s.overdueAt X = none) (hheard : s.heardAt X = some p) :
    (s.tick e now).overdueAt X =
      if p + e.config.probeTimeoutMs < now then some now else none := by
  show (s.overdueAt X).or _ = _
  rw [h, hheard]
  rfl

/-- A suspect has been one since it became one. -/
theorem since_tick_of_suspect (h : statusOf s.members X = some .suspect) :
    (s.tick e now).since X = s.since X := by
  apply if_neg
  rintro ⟨halive, _⟩
  rw [h] at halive
  contradiction

/-- The tick that suspects a member is the one that finds it overdue. -/
theorem phase_tick_alive (hX : X ≠ e.selfId) (hget : s.members.get X = some m)
    (hheard : s.heardAt X = some m.lastPongUnix) (hm : m.status = .alive)
    (hnone : s.overdueAt X = none) :
    Phase e (s.tick e now) X (GossipEngine.verdict e.config now m) := by
  have hoverdue := overdueAt_tick_of_none e now hnone hheard
  have hverdict := verdict_of_alive e now hm
  by_cases hlate : m.lastPongUnix + e.config.probeTimeoutMs < now
  · rw [if_pos hlate] at hoverdue hverdict
    have hbefore : statusOf s.members X = some .alive := by
      rw [statusOf, hget, Option.map_some, hm]
    have hafter : statusOf (s.tick e now).members X = some .suspect := by
      rw [statusOf, get_tick hX, hget, Option.map_some, Option.map_some, hverdict]
    rw [hverdict]
    exact ⟨now, hoverdue, if_pos ⟨hbefore, hafter⟩⟩
  · rw [if_neg hlate] at hoverdue hverdict
    rw [hverdict]
    exact hoverdue

/-- The time of death is late enough when the tick was not hurried. -/
theorem phase_tick_suspect (hmax : now ≤ GossipEngine.u64Max)
    (hunhurried : Unhurried e s (.tick now)) (hget : s.members.get X = some m)
    (hheard : s.heardAt X = some m.lastPongUnix) (hm : m.status = .suspect)
    (hphase : Phase e s X .suspect) :
    Phase e (s.tick e now) X (GossipEngine.verdict e.config now m) := by
  rcases hphase with ⟨t, hoverdue, hsince⟩
  have hverdict := verdict_of_suspect e hmax hm
  by_cases hlate : m.lastPongUnix + suspectTimeout e < now
  · rw [if_pos hlate] at hverdict
    rw [hverdict]
    exact ⟨t, overdueAt_tick_of_some hoverdue, hunhurried X _ t hheard hoverdue hlate⟩
  · rw [if_neg hlate] at hverdict
    have hstatus : statusOf s.members X = some .suspect := by
      rw [statusOf, hget, Option.map_some, hm]
    rw [hverdict]
    exact ⟨t, overdueAt_tick_of_some hoverdue, (since_tick_of_suspect hstatus).trans hsince⟩

theorem phase_tick_dead (hclock : s.clock ≤ now) (hm : m.status = .dead)
    (hphase : Phase e s X .dead) :
    Phase e (s.tick e now) X (GossipEngine.verdict e.config now m) := by
  rcases hphase with ⟨t, hoverdue, hdead⟩
  rw [verdict_of_dead hm]
  exact ⟨t, overdueAt_tick_of_some hoverdue, lt_of_lt_of_le hdead hclock⟩

theorem tracked_tick (hX : X ≠ e.selfId) (h : Tracked e s X) (htime : InTime s (.tick now))
    (hunhurried : Unhurried e s (.tick now)) : Tracked e (s.tick e now) X := by
  cases h with
  | unknown hheard hget =>
    refine .unknown hheard ?_
    rw [get_tick hX, hget]
    rfl
  | @known m hget hheard hphase =>
    have hget' : (s.tick e now).members.get X =
        some { m with status := GossipEngine.verdict e.config now m } := by
      rw [get_tick hX, hget]
      rfl
    refine .known hget' hheard ?_
    cases hm : m.status with
    | alive =>
      rw [hm] at hphase
      exact phase_tick_alive hX hget hheard hm hphase
    | suspect =>
      rw [hm] at hphase
      exact phase_tick_suspect htime.2 hunhurried hget hheard hm hphase
    | dead =>
      rw [hm] at hphase
      exact phase_tick_dead htime.1 hm hphase

end Tick

theorem tracked_heard {s' : FailureDetector} {Y : InstanceId} (h : Tracked e s X)
    (hheard : Heard s s' Y now) (hclock : s.clock ≤ now) : Tracked e s' X := by
  by_cases hX : X = Y
  · subst hX
    rcases hheard.record with ⟨m, hm, hpong, halive⟩
    -- it is alive again, and nothing before the message counts any more
    refine .known hm (by rw [hpong]; exact hheard.heardAt) ?_
    rw [halive]
    exact hheard.overdueAt
  · rcases hheard.others X hX with ⟨hget, hsince, hheardAt, hoverdue⟩
    cases h with
    | unknown hnone hnoget => exact .unknown (hheardAt.trans hnone) (hget.trans hnoget)
    | @known m hm hpong hphase =>
      refine .known (hget.trans hm) (hheardAt.trans hpong) ?_
      cases hstatus : m.status with
      | alive =>
        rw [hstatus] at hphase
        exact hoverdue.trans hphase
      | suspect =>
        rw [hstatus] at hphase
        rcases hphase with ⟨t, ht, hts⟩
        exact ⟨t, hoverdue.trans ht, hsince.trans hts⟩
      | dead =>
        rw [hstatus] at hphase
        rcases hphase with ⟨t, ht, hdead⟩
        refine ⟨t, hoverdue.trans ht, ?_⟩
        rw [hheard.clock]
        exact lt_of_lt_of_le hdead hclock

/-- A later clock changes nothing for anyone. -/
theorem tracked_later (h : Tracked e s X) (hclock : s.clock ≤ now) :
    Tracked e { s with clock := now } X := by
  cases h with
  | unknown hnone hnoget => exact .unknown hnone hnoget
  | @known m hm hpong hphase =>
    refine .known hm hpong ?_
    cases hstatus : m.status with
    | alive | suspect =>
      rw [hstatus] at hphase
      exact hphase
    | dead =>
      rw [hstatus] at hphase
      rcases hphase with ⟨t, ht, hdead⟩
      exact ⟨t, ht, lt_of_lt_of_le hdead hclock⟩

theorem Tracks.step {ev : DetectorEvent} (h : Tracks e s) (htime : InTime s ev)
    (hunhurried : Unhurried e s ev) : Tracks e (s.step e ev) := by
  cases ev with
  | tick now =>
    constructor
    · exact h.self
    · intro X hX
      exact tracked_tick hX (h.others X hX) htime hunhurried
  | message now hd msg =>
    show Tracks e (s.message e now hd msg)
    cases hY : e.hears msg with
    | none =>
      rw [message_of_none hY]
      exact ⟨h.self, fun X hX => tracked_later (h.others X hX) htime.1⟩
    | some Y =>
      rcases message_of_some s now hY with ⟨hne, hheard⟩
      constructor
      · rw [(hheard.others e.selfId hne.symm).2.2.1]
        exact h.self
      · intro X hX
        exact tracked_heard (h.others X hX) hheard htime.1

/-! ## When a death is graceful -/

/-- A message buries nobody. -/
theorem not_dies_message {h : GossipHandler} {msg : GossipMessage} :
    ¬ Dies e s (.message now h msg) X := by
  rintro ⟨hbefore, hafter⟩
  rw [step] at hafter
  cases hY : e.hears msg with
  | none =>
    rw [message_of_none hY] at hafter
    exact hbefore hafter
  | some Y =>
    rcases message_of_some s now hY with ⟨_, hheard⟩
    by_cases hX : X = Y
    · subst hX
      rcases hheard.record with ⟨m, hm, _, halive⟩
      rw [statusOf, hm, Option.map_some, halive] at hafter
      exact nomatch hafter
    · rw [statusOf, (hheard.others X hX).1] at hafter
      exact hbefore hafter

/-- A tick buries the suspects silent for the suspect timeout. -/
theorem dies_tick_iff (hmax : now ≤ GossipEngine.u64Max) (hX : X ≠ e.selfId) {m : ClusterMember}
    (hm : s.members.get X = some m) :
    Dies e s (.tick now) X ↔
      m.status = .suspect ∧ m.lastPongUnix + suspectTimeout e < now := by
  rw [Dies, step, statusOf, statusOf, get_tick hX, hm, Option.map_some, Option.map_some,
    Option.map_some]
  cases hstatus : m.status with
  | alive =>
    rw [verdict_of_alive e now hstatus]
    split
    · simp
    · simp
  | suspect =>
    rw [verdict_of_suspect e hmax hstatus]
    split
    · next hlate => simp [hlate]
    · next hlate => simp [hlate]
  | dead => simp

theorem not_dies_self : ¬ Dies e s (.tick now) e.selfId := by
  rintro ⟨hbefore, hafter⟩
  rw [step, statusOf, get_tick_self] at hafter
  exact hbefore hafter

/-- Who dies at a tick that is not hurried has been a suspect for long enough. -/
theorem graceful_of_unhurried (h : Tracks e s) (htime : InTime s (.tick now))
    (hunhurried : Unhurried e s (.tick now)) : Graceful e s (.tick now) := by
  intro X hX
  by_cases hself : X = e.selfId
  · subst hself
    exact absurd hX not_dies_self
  · cases h.others X hself with
    | unknown _ hget =>
      rw [Dies, step, statusOf, statusOf, get_tick hself, hget] at hX
      exact nomatch hX.2
    | @known m hm hpong hphase =>
      rcases (dies_tick_iff htime.2 hself hm).1 hX with ⟨hstatus, hlate⟩
      rw [hstatus] at hphase
      rcases hphase with ⟨t, hoverdue, hsince⟩
      refine ⟨by rw [statusOf, hm, Option.map_some, hstatus], t, hsince, ?_⟩
      exact hunhurried X _ t hpong hoverdue hlate

/-- A hurried tick buries a suspect too early. -/
theorem unhurried_of_graceful (h : Tracks e s) (htime : InTime s (.tick now))
    (hgraceful : Graceful e s (.tick now)) : Unhurried e s (.tick now) := by
  intro X p t hp ht hlate
  by_cases hself : X = e.selfId
  · subst hself
    rw [h.self] at hp
    exact nomatch hp
  · cases h.others X hself with
    | unknown hnone _ =>
      rw [hnone] at hp
      exact nomatch hp
    | @known m hm hpong hphase =>
      rw [hpong] at hp
      rcases Option.some.inj hp with rfl
      cases hstatus : m.status with
      | alive =>
        rw [hstatus] at hphase
        have hnone : s.overdueAt X = none := hphase
        rw [hnone] at ht
        exact nomatch ht
      | suspect =>
        -- the member dies at this tick, so it was suspected early enough
        rw [hstatus] at hphase
        rcases hphase with ⟨t₀, hoverdue, hsince⟩
        rcases hgraceful X ((dies_tick_iff htime.2 hself hm).2 ⟨hstatus, hlate⟩) with
          ⟨_, t₁, hsince', hgrace⟩
        rw [hoverdue] at ht
        rw [hsince] at hsince'
        rcases Option.some.inj ht with rfl
        rcases Option.some.inj hsince' with rfl
        exact hgrace
      | dead =>
        rw [hstatus] at hphase
        rcases hphase with ⟨t₀, hoverdue, hdead⟩
        rw [hoverdue] at ht
        rcases Option.some.inj ht with rfl
        exact lt_of_lt_of_le hdead htime.1

theorem graceful_step_iff {ev : DetectorEvent} (h : Tracks e s) (htime : InTime s ev) :
    Unhurried e s ev ↔ Graceful e s ev := by
  cases ev with
  | message now hd msg =>
    refine iff_of_true trivial ?_
    intro X hX
    exact absurd hX not_dies_message
  | tick now =>
    constructor
    · intro hunhurried
      exact graceful_of_unhurried h htime hunhurried
    · intro hgraceful
      exact unhurried_of_graceful h htime hgraceful

/-- For every configuration, every clock that does not go back and every sequence
of ticks and messages: whoever is marked as dead has been a suspect for more than
the suspect timeout, at every event, exactly when at every tick the suspect
timeout has passed since a member was found overdue if it has passed since the
member was last heard of. -/
theorem graceful_iff (e : GossipEngine) (h : GossipHandler) (t : Nat) (evs : List DetectorEvent)
    (htime : Run.Each (step e) InTime (new e h t) evs) :
    Run.Each (step e) (Graceful e) (new e h t) evs ↔
      Run.Each (step e) (Unhurried e) (new e h t) evs :=
  (Run.each_iff_of_invariant (J := Tracks e) (fun _ _ hJ hD hC => hJ.step hD hC)
    (fun _ _ hJ hD => graceful_step_iff hJ hD) (tracks_new e h t) htime).symm

/-- An engine with a probe timeout of one second and a suspect timeout of ten. -/
def someEngine : GossipEngine := ⟨⟨"a"⟩, ⟨"r1"⟩, "10.0.0.1:7946", ⟨3, 1000, 10⟩⟩

def someHandler : GossipHandler := ⟨.default, fun _ => []⟩

/-- A ping arrives. -/
def pinged : FailureDetector :=
  (new someEngine someHandler 0).step someEngine
    (.message 0 someHandler (.ping ⟨"b"⟩ ⟨"r1"⟩ .default 0))

theorem heard_pinged : Heard (new someEngine someHandler 0) pinged ⟨"b"⟩ 0 := by
  have hsender : someEngine.hears (.ping ⟨"b"⟩ ⟨"r1"⟩ .default 0) = some ⟨"b"⟩ := by decide
  exact (message_of_some (new someEngine someHandler 0) 0 hsender).2

/-- The sender is suspected after a second and given up eleven seconds later. -/
theorem graceful_iff_patient :
    Run.Each (step someEngine) (Graceful someEngine) (new someEngine someHandler 0)
      [.message 0 someHandler (.ping ⟨"b"⟩ ⟨"r1"⟩ .default 0), .tick 1001, .tick 12002] := by
  refine (graceful_iff someEngine someHandler 0
    [.message 0 someHandler (.ping ⟨"b"⟩ ⟨"r1"⟩ .default 0), .tick 1001, .tick 12002] ?_).2
    ⟨trivial, ?_, ?_, trivial⟩
  · exact ⟨⟨by decide, by decide⟩, ⟨by decide, by decide⟩, ⟨by decide, by decide⟩, trivial⟩
  · -- nobody is overdue before the first tick
    intro X p t _ ht
    have hnone : pinged.overdueAt X = none := by
      by_cases hX : X = ⟨"b"⟩
      · rw [hX]
        exact heard_pinged.overdueAt
      · exact (heard_pinged.others X hX).2.2.2
    exact absurd (hnone.symm.trans ht) nofun
  · intro X p t _ ht _
    have hoverdue : (pinged.overdueAt X).or ((pinged.heardAt X).bind fun p =>
        if p + 1000 < 1001 then some 1001 else none) = some t := ht
    by_cases hX : X = ⟨"b"⟩
    · rw [hX, heard_pinged.overdueAt, heard_pinged.heardAt] at hoverdue
      rcases hoverdue with ⟨⟩
      decide
    · rcases heard_pinged.others X hX with ⟨_, _, hheardAt, hoverdueAt⟩
      rw [hoverdueAt, hheardAt] at hoverdue
      exact nomatch hoverdue

/-- The sender is given up after nine seconds. -/
theorem not_graceful_hurried :
    ¬ Run.Each (step someEngine) (Graceful someEngine) (new someEngine someHandler 0)
      [.message 0 someHandler (.ping ⟨"b"⟩ ⟨"r1"⟩ .default 0), .tick 1001, .tick 10001] := by
  rintro ⟨_, _, hgraceful, _⟩
  have hdies : Dies someEngine (pinged.step someEngine (.tick 1001)) (.tick 10001) ⟨"b"⟩ := by
    rw [Dies]
    decide +kernel
  rcases hgraceful ⟨"b"⟩ hdies with ⟨_, t, ht, hlate⟩
  have hsince : (pinged.step someEngine (.tick 1001)).since ⟨"b"⟩ = some 1001 := by
    decide +kernel
  rcases Option.some.inj (hsince.symm.trans ht) with rfl
  exact absurd hlate (by decide)

end FailureDetector

end HierKvGateway
