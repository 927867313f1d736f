import HierKvGateway.Lib.Run
import Mathlib.Logic.Function.Basic

/-!
# Cluster.Lifecycle — starting and stopping an engine

`GossipEngine::start` and `stop` and, under them, those of the TCP transport. Each
of the two keeps a running flag of its own, which `start` sets before it tries
anything and `stop` clears. The three loops of every start share the engine's
flag and look at it once per turn, so a loop that is busy while the engine is
stopped and started again notices nothing.

`Lifecycle.orderly_iff`: every start does what it says, and no two instances of a
loop are ever alive, exactly when no start follows a failed one without a stop in
between, and no start binds while a loop of an earlier one is still alive.
-/

namespace HierKvGateway

/-- The transport; channels are numbered in the order they are made. -/
structure TcpClusterTransport where
  running : Bool
  /-- The channel whose sender the transport holds. -/
  inboundTx : Option Nat
  /-- The channel whose receiver has not been handed out. -/
  inboundRx : Option Nat
  /-- The channel the listener feeds, if the transport is bound. -/
  listener : Option Nat
  channels : Nat
deriving DecidableEq, Repr

namespace TcpClusterTransport

def new : TcpClusterTransport where
  running := false
  inboundTx := none
  inboundRx := none
  listener := none
  channels := 0

/-- `TcpClusterTransport::start`, the operating system answering `bind`. -/
def start (addr : String) (bind : Except String Unit) (t : TcpClusterTransport) :
    TcpClusterTransport × Except String Unit :=
  if t.running then (t, .ok ())
  else
    match bind with
    -- the flag stays set
    | .error e =>
      ({ t with running := true }, .error s!"TcpClusterTransport failed to bind {addr}: {e}")
    | .ok () =>
      ({ running := true
         inboundTx := some t.channels
         inboundRx := some t.channels
         listener := some t.channels
         channels := t.channels + 1 }, .ok ())

/-- `TcpClusterTransport::stop`. -/
def stop (t : TcpClusterTransport) : TcpClusterTransport :=
  if t.running then { t with running := false, inboundTx := none, listener := none } else t

end TcpClusterTransport

/-- The loops of an engine. -/
inductive LoopKind where
  | gossip
  | probe
  | message
deriving DecidableEq, Repr

/-- Where an instance of a loop is. -/
inductive LoopPhase where
  | unborn
  /-- About to look at the flag. -/
  | check
  /-- Between two looks. -/
  | busy
  | ended
deriving DecidableEq, Repr

/-- The instance exists. -/
def LoopPhase.Alive : LoopPhase → Prop
  | .check => True
  | .busy => True
  | .unborn => False
  | .ended => False

/-- An engine, its transport, and the loops of its starts, the `g`-th of which
have the number `g`. -/
structure Lifecycle where
  running : Bool
  transport : TcpClusterTransport
  starts : Nat
  phase : LoopKind → Nat → LoopPhase
  /-- The channel a message loop receives from, if it was given one. -/
  receiver : Nat → Option Nat
  /-- The last start failed, and no stop has followed. -/
  failed : Bool

namespace Lifecycle

/-- An engine that has not been started. -/
def new : Lifecycle where
  running := false
  transport := .new
  starts := 0
  phase := fun _ _ => .unborn
  receiver := fun _ => none
  failed := false

/-- `start` once the transport has started: the receiver is taken, the loops are
spawned. -/
def spawn (t : TcpClusterTransport) (s : Lifecycle) : Lifecycle where
  running := true
  transport := { t with inboundRx := none }
  starts := s.starts + 1
  phase k := Function.update (s.phase k) s.starts .check
  receiver := Function.update s.receiver s.starts t.inboundRx
  failed := s.failed

/-- `GossipEngine::start`. -/
def start (addr : String) (bind : Except String Unit) (s : Lifecycle) :
    Lifecycle × Except String Unit :=
  if s.running then (s, .ok ())
  else
    match s.transport.start addr bind with
    | (t, .error e) => ({ s with running := true, transport := t, failed := true }, .error e)
    | (t, .ok ()) => (s.spawn t, .ok ())

/-- `GossipEngine::stop`. -/
def stop (s : Lifecycle) : Lifecycle :=
  if s.running then { s with running := false, transport := s.transport.stop, failed := false }
  else s

/-- The calls, and the steps of the loops. -/
inductive Label where
  | start (bind : Except String Unit)
  | stop
  /-- A loop looks at the flag, and ends if it is clear. -/
  | check (k : LoopKind) (g : Nat)
  /-- A turn of a loop is over. -/
  | turn (k : LoopKind) (g : Nat)
  /-- A message loop finds its channel closed and ends. -/
  | closed (g : Nat)

/-- The transport still has a sender for the channel of the message loop. -/
def Open (s : Lifecycle) (g : Nat) : Prop :=
  s.receiver g ≠ none ∧ s.receiver g = s.transport.inboundTx

instance (s : Lifecycle) (g : Nat) : Decidable (s.Open g) :=
  inferInstanceAs (Decidable (_ ∧ _))

def guard : Label → Lifecycle → Prop
  | .start _, _ => True
  | .stop, _ => True
  | .check k g, s => s.phase k g = .check
  | .turn k g, s => s.phase k g = .busy
  | .closed g, s => s.phase .message g = .busy ∧ ¬ s.Open g

/-- Move an instance of a loop. -/
def setPhase (s : Lifecycle) (k : LoopKind) (g : Nat) (p : LoopPhase) : Lifecycle :=
  { s with phase := Function.update s.phase k (Function.update (s.phase k) g p) }

def update (addr : String) : Label → Lifecycle → Lifecycle
  | .start bind, s => (s.start addr bind).1
  | .stop, s => s.stop
  | .check k g, s => s.setPhase k g (if s.running then .busy else .ended)
  | .turn k g, s => s.setPhase k g .check
  | .closed g, s => s.setPhase .message g .ended

/-- Calls one after the other, loops at any point of their turns. -/
def system (addr : String) : Lts Lifecycle Label where
  init s := s = new
  guard := guard
  update := update addr

/-! ## What a start promises -/

variable {addr : String} {s : Lifecycle} {k k' : LoopKind} {g g' : Nat} {l : Label}

/-- The instance exists. -/
def Alive (s : Lifecycle) (k : LoopKind) (g : Nat) : Prop := (s.phase k g).Alive

/-- The transport is bound, and one instance of each loop is running. -/
structure Started (s : Lifecycle) : Prop where
  bound : s.transport.listener ≠ none
  loops : ∀ k, ∃! g, s.Alive k g

/-- No two instances of a loop are alive. -/
def AtMostOne (s : Lifecycle) : Prop := ∀ k g g', s.Alive k g → s.Alive k g' → g = g'

/-- A start that returns `Ok`, and one that can bind, leaves a started engine; and
no two instances of a loop come to be alive. -/
def Orderly (addr : String) (s : Lifecycle) (l : Label) : Prop :=
  AtMostOne (update addr l s) ∧
    match l with
    | .start bind =>
      ((s.start addr bind).2 = .ok () → Started (s.start addr bind).1) ∧
        (bind = .ok () → Started (s.start addr bind).1)
    | _ => True

/-- No start follows a failed one without a stop, and no start binds while a loop
is alive. -/
def Careful (s : Lifecycle) : Label → Prop
  | .start bind =>
    s.failed = false ∧ (s.running = false → bind = .ok () → ∀ k g, ¬ s.Alive k g)
  | _ => True

/-! ## The invariant of careful runs -/

/-- The flags agree, only loops of the latest start are alive, and if the engine
runs and its start did not fail, all of them are and the message loop receives
what the listener hears. -/
structure Sound (s : Lifecycle) : Prop where
  flags : s.transport.running = s.running
  future : ∀ k g, s.starts ≤ g → s.phase k g = .unborn
  latest : ∀ k g, s.Alive k g → g + 1 = s.starts
  down : s.running = false → s.transport.listener = none ∧ s.failed = false
  failed : s.failed = true → s.transport.listener = none
  up : s.running = true → s.failed = false →
    ∃ g ch, s.starts = g + 1 ∧ s.transport.listener = some ch ∧
      s.transport.inboundTx = some ch ∧ s.receiver g = some ch ∧ ∀ k, s.Alive k g

theorem sound_new : Sound new where
  flags := rfl
  future _ _ _ := rfl
  latest _ _ h := absurd h id
  down _ := ⟨rfl, rfl⟩
  failed _ := rfl
  up h := absurd h nofun

theorem Sound.atMostOne (h : Sound s) : AtMostOne s := by
  intro k g g' hg hg'
  have h1 := h.latest k g hg
  have h2 := h.latest k g' hg'
  omega

theorem Sound.started (h : Sound s) (hrun : s.running = true) (hfailed : s.failed = false) :
    Started s := by
  rcases h.up hrun hfailed with ⟨g, ch, _, hlistener, _, _, halive⟩
  constructor
  · rw [hlistener]
    exact Option.some_ne_none ch
  · intro k
    exact ⟨g, halive k, fun g' hg' => h.atMostOne k g' g hg' (halive k)⟩

/-! ### Calls -/

theorem start_of_running (h : s.running = true) (bind : Except String Unit) :
    s.start addr bind = (s, .ok ()) := by
  rw [start, if_pos h]

theorem transport_start (ht : s.transport.running = false) (bind : Except String Unit) :
    s.transport.start addr bind =
      match bind with
      | .error e => ({ s.transport with running := true },
          .error s!"TcpClusterTransport failed to bind {addr}: {e}")
      | .ok () => (⟨true, some s.transport.channels, some s.transport.channels,
          some s.transport.channels, s.transport.channels + 1⟩, .ok ()) := by
  unfold TcpClusterTransport.start
  rw [ht]
  cases bind with
  | error e => rfl
  | ok _ => rfl

theorem start_of_error (h : Sound s) (hrun : s.running = false) (e : String) :
    s.start addr (.error e) =
      ({ s with running := true, transport := { s.transport with running := true }, failed := true },
        .error s!"TcpClusterTransport failed to bind {addr}: {e}") := by
  rw [start, transport_start (h.flags.trans hrun), hrun]
  rfl

theorem start_of_ok (h : Sound s) (hrun : s.running = false) :
    s.start addr (.ok ()) =
      (s.spawn ⟨true, some s.transport.channels, some s.transport.channels,
        some s.transport.channels, s.transport.channels + 1⟩, .ok ()) := by
  rw [start, transport_start (h.flags.trans hrun), hrun]
  rfl

/-- What a start spawns is alive, besides what was. -/
theorem alive_spawn {t : TcpClusterTransport} :
    (s.spawn t).Alive k g ↔ g = s.starts ∨ s.Alive k g ∧ g ≠ s.starts := by
  by_cases hg : g = s.starts
  · subst hg
    have hphase : (s.spawn t).phase k s.starts = .check := Function.update_self _ _ _
    rw [Alive, hphase]
    exact iff_of_true trivial (.inl rfl)
  · have hphase : (s.spawn t).phase k g = s.phase k g := Function.update_of_ne hg _ _
    rw [Alive, hphase]
    constructor
    · intro halive
      exact .inr ⟨halive, hg⟩
    · rintro (heq | ⟨halive, _⟩)
      · exact absurd heq hg
      · exact halive

theorem Sound.start (h : Sound s) (bind : Except String Unit) (hc : Careful s (.start bind)) :
    Sound (s.start addr bind).1 := by
  by_cases hrun : s.running = true
  · rw [start_of_running hrun]
    exact h
  · have hdown : s.running = false := Bool.eq_false_iff.2 hrun
    cases bind with
    | error e =>
      rw [start_of_error h hdown]
      exact ⟨rfl, h.future, h.latest, nofun, fun _ => (h.down hdown).1, nofun⟩
    | ok _ =>
      have hnone := hc.2 hdown rfl
      rw [start_of_ok h hdown]
      constructor
      · rfl
      · intro k g hg
        have hne : g ≠ s.starts := Nat.ne_of_gt hg
        exact (Function.update_of_ne hne _ _).trans (h.future k g (Nat.le_of_succ_le hg))
      · intro k g hg
        rcases alive_spawn.1 hg with rfl | ⟨hold, _⟩
        · rfl
        · exact absurd hold (hnone k g)
      · nofun
      · intro hfailed
        exact absurd (hfailed.symm.trans hc.1) nofun
      · intro _ _
        exact ⟨s.starts, s.transport.channels, rfl, rfl, rfl, Function.update_self _ _ _,
          fun k => alive_spawn.2 (.inl rfl)⟩

theorem Sound.stop (h : Sound s) : Sound s.stop := by
  rw [Lifecycle.stop]
  split
  · next hrun =>
    have htransport : s.transport.stop =
        { s.transport with running := false, inboundTx := none, listener := none } := by
      rw [TcpClusterTransport.stop, h.flags, hrun]
      rfl
    rw [htransport]
    exact ⟨rfl, h.future, h.latest, fun _ => ⟨rfl, rfl⟩, nofun, nofun⟩
  · exact h

/-! ### Loops -/

theorem setPhase_phase (s : Lifecycle) (k k' : LoopKind) (g g' : Nat) (p : LoopPhase) :
    (s.setPhase k g p).phase k' g' = if k' = k ∧ g' = g then p else s.phase k' g' := by
  by_cases hk : k' = k
  · subst hk
    have hself : (s.setPhase k' g p).phase k' = Function.update (s.phase k') g p :=
      Function.update_self _ _ _
    rw [hself, Function.update_apply]
    simp
  · have hother : (s.setPhase k g p).phase k' = s.phase k' := Function.update_of_ne hk _ _
    rw [hother, if_neg (fun hand => hk hand.1)]

/-- A loop that exists moves on; it does not end under a running engine. -/
theorem Sound.setPhase {p : LoopPhase} (h : Sound s) (hborn : s.Alive k g)
    (hp : s.running = true → s.failed = false → s.starts = g + 1 → p.Alive) :
    Sound (s.setPhase k g p) where
  flags := h.flags
  future k' g' hg' := by
    have hne : g' ≠ g := by
      have hlatest := h.latest k g hborn
      have hle : s.starts ≤ g' := hg'
      omega
    rw [setPhase_phase, if_neg (fun hand => hne hand.2)]
    exact h.future k' g' hg'
  latest k' g' halive := by
    rw [Alive, setPhase_phase] at halive
    split at halive
    · next heq =>
      rw [heq.2]
      exact h.latest k g hborn
    · exact h.latest k' g' halive
  down := h.down
  failed := h.failed
  up hrun hfailed := by
    rcases h.up hrun hfailed with ⟨g₀, ch, hstarts, hlistener, htx, hreceiver, halive⟩
    refine ⟨g₀, ch, hstarts, hlistener, htx, hreceiver, fun k' => ?_⟩
    rw [Alive, setPhase_phase]
    split
    · next heq => exact hp hrun hfailed (heq.2 ▸ hstarts)
    · exact halive k'

theorem Sound.step (h : Sound s) (hg : guard l s) (hc : Careful s l) : Sound (update addr l s) := by
  cases l with
  | start bind => exact h.start bind hc
  | stop => exact h.stop
  | check k g =>
    have hphase : s.phase k g = .check := hg
    refine h.setPhase (by rw [Alive, hphase]; trivial) ?_
    intro hrun _ _
    rw [if_pos hrun]
    trivial
  | turn k g =>
    have hphase : s.phase k g = .busy := hg
    exact h.setPhase (by rw [Alive, hphase]; trivial) fun _ _ _ => trivial
  | closed g =>
    rcases hg with ⟨hphase, hclosed⟩
    refine h.setPhase (by rw [Alive, hphase]; trivial) ?_
    -- the channel of a running engine's message loop is open
    intro hrun hfailed hstarts
    rcases h.up hrun hfailed with ⟨g₀, ch, hstarts₀, _, htx, hreceiver, _⟩
    have hg₀ : g₀ = g := by omega
    subst hg₀
    refine absurd ⟨?_, hreceiver.trans htx.symm⟩ hclosed
    rw [hreceiver]
    exact Option.some_ne_none ch

/-! ### Which steps are orderly -/

/-- A careful start does what it says. -/
theorem Sound.started_start (h : Sound s) {bind : Except String Unit}
    (hc : Careful s (.start bind)) :
    ((s.start addr bind).2 = .ok () → Started (s.start addr bind).1) ∧
      (bind = .ok () → Started (s.start addr bind).1) := by
  by_cases hrun : s.running = true
  · have hstarted := h.started hrun hc.1
    rw [start_of_running hrun]
    constructor
    · intro _
      exact hstarted
    · intro _
      exact hstarted
  · have hdown : s.running = false := Bool.eq_false_iff.2 hrun
    cases bind with
    | error e =>
      rw [start_of_error h hdown]
      exact ⟨nofun, nofun⟩
    | ok _ =>
      have hstarted : Started (s.start addr (.ok ())).1 := by
        apply (h.start (.ok ()) hc).started
        · rw [start_of_ok h hdown]
          rfl
        · rw [start_of_ok h hdown]
          exact hc.1
      constructor
      · intro _
        exact hstarted
      · intro _
        exact hstarted

/-- A start after a failed one returns `Ok` and does nothing. -/
theorem Sound.not_failed (h : Sound s) {bind : Except String Unit}
    (hstart : (s.start addr bind).2 = .ok () → Started (s.start addr bind).1) :
    s.failed = false := by
  by_contra hfailed
  have hfailed : s.failed = true := by simpa using hfailed
  have hrun : s.running = true := by
    by_contra hrun
    have hdown := h.down (Bool.eq_false_iff.2 hrun)
    exact absurd (hfailed.symm.trans hdown.2) nofun
  rw [start_of_running hrun] at hstart
  exact (hstart rfl).bound (h.failed hfailed)

/-- A start that binds spawns a second instance of each loop that is alive. -/
theorem Sound.not_alive (h : Sound s) (hdown : s.running = false)
    (hone : AtMostOne (s.start addr (.ok ())).1) : ¬ s.Alive k g := by
  intro halive
  rw [start_of_ok h hdown] at hone
  have hold := h.latest k g halive
  have hne : g ≠ s.starts := by omega
  have heq := hone k g s.starts (alive_spawn.2 (.inr ⟨halive, hne⟩)) (alive_spawn.2 (.inl rfl))
  exact hne heq

theorem orderly_step_iff (h : Sound s) (hg : guard l s) : Careful s l ↔ Orderly addr s l := by
  constructor
  · intro hc
    refine ⟨(h.step hg hc).atMostOne, ?_⟩
    cases l with
    | start bind => exact h.started_start hc
    | stop | check | turn | closed => trivial
  · rintro ⟨hone, hstart⟩
    cases l with
    | start bind =>
      refine ⟨h.not_failed hstart.1, ?_⟩
      rintro hdown rfl k g
      exact h.not_alive hdown hone
    | stop | check | turn | closed => trivial

/-- For every sequence of starts and stops, with any outcome of the binds and the
loops anywhere in their turns: every start does what it says and no two instances
of a loop are ever alive, exactly when no start follows a failed one without a
stop, and no start binds while a loop of an earlier start is alive. -/
theorem orderly_iff (addr : String) (ls : List Label) (hls : (system addr).Enabled new ls) :
    Run.Each (fun s l => (system addr).update l s) (Orderly addr) new ls ↔
      Run.Each (fun s l => (system addr).update l s) Careful new ls :=
  (Run.each_iff_of_invariant (J := Sound) (fun _ _ h hg hc => h.step hg hc)
    (fun _ _ h hg => orderly_step_iff h hg) sound_new hls).symm

/-- A restart that waits for the loops. -/
def patientRestart : List Label :=
  [.start (.ok ()), .stop, .check .gossip 0, .check .probe 0, .check .message 0, .start (.ok ())]

theorem orderly_iff_patientRestart :
    Run.Each (fun s l => (system "10.0.0.1:7946").update l s) (Orderly "10.0.0.1:7946") new
      patientRestart := by
  refine (orderly_iff "10.0.0.1:7946" patientRestart ⟨trivial, trivial, rfl, rfl, rfl, trivial,
    trivial⟩).2 ⟨⟨rfl, ?_⟩, trivial, trivial, trivial, trivial, ⟨rfl, ?_⟩, trivial⟩
  · intro _ _ k g halive
    exact halive
  · -- the loops of the first start have ended, and there are no others
    intro _ _ k g halive
    cases g with
    | zero =>
      cases k with
      | gossip | probe | message => exact halive
    | succ g =>
      cases k with
      | gossip | probe | message => exact halive

/-- A start that cannot bind, and another one. -/
def startAgain : List Label := [.start (.error "Address already in use"), .start (.ok ())]

/-- A stop and a start while the gossip loop is between two looks at the flag. -/
def hastyRestart : List Label := [.start (.ok ()), .check .gossip 0, .stop, .start (.ok ())]

theorem not_orderly_startAgain :
    ¬ Run.Each (fun s l => (system "10.0.0.1:7946").update l s) (Orderly "10.0.0.1:7946") new
        startAgain ∧
      ¬ Run.Each (fun s l => (system "10.0.0.1:7946").update l s) (Orderly "10.0.0.1:7946") new
        hastyRestart := by
  constructor
  · -- the second start returns `Ok`, and nothing listens
    rintro ⟨_, ⟨_, hstart, _⟩, _⟩
    exact (hstart rfl).bound rfl
  · -- two gossip loops
    rintro ⟨_, _, _, ⟨hone, _⟩, _⟩
    exact absurd (hone .gossip 0 1 trivial trivial) (by decide)

end Lifecycle

end HierKvGateway
