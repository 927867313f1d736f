import HierKvGateway.Cluster.Gossip
import HierKvGateway.Lib.Run
import Mathlib.Logic.Function.Basic

/-!
# Cluster.ProbeRace — a probe scan while messages are handled

The probe loop reads all members and then marks them one by one, going by the
records it has read. Meanwhile any number of messages are handled, each of which
reads the record of its sender and then writes a fresh one. All these steps
interleave (`ProbeRace.system`).

`ProbeRace.justified_iff`: every mark is justified by the record it lands on
exactly when no member that the scan has read as overdue is written between the
reading and its turn.
-/

namespace HierKvGateway

/-- The record `ensure_member` writes, given the one it has read. -/
def Contact.record (c : Contact) (existing : Option ClusterMember) (now : Nat) :
    ClusterMember where
  instanceId := c.sender
  region := c.region
  addr := c.addr.getD ((existing.map (·.addr)).getD "")
  lastPongUnix := now
  status := .alive
  metaDigest := c.digest

/-- How far the handling of a message has got. -/
inductive EnsurePhase where
  | start
  /-- The sender's record has been read. -/
  | got (existing : Option ClusterMember)
  | done

/-- The member list, the probe loop and the messages being handled. -/
structure ProbeRace (ι : Type) where
  members : MemberList
  /-- The time the probe loop has read for its scan. -/
  scanNow : Nat
  /-- The records read that have not had their turn. -/
  todo : List ClusterMember
  /-- Who has been written since the scan began. -/
  answered : List InstanceId
  phase : ι → EnsurePhase

namespace ProbeRace

variable {ι : Type}

/-- The steps. -/
inductive Label (ι : Type) where
  /-- A scan begins: all members are read. -/
  | snapshot (now : Nat)
  /-- The next record of the scan has its turn. -/
  | mark
  | get (i : ι)
  | upsert (i : ι) (now : Nat)

def guard : Label ι → ProbeRace ι → Prop
  | .snapshot _, s => s.todo = []
  | .mark, s => s.todo ≠ []
  | .get i, s => s.phase i = .start
  | .upsert i _, s => ∃ existing, s.phase i = .got existing

/-- One turn of the probe loop. -/
def mark (e : GossipEngine) (s : ProbeRace ι) : ProbeRace ι :=
  match s.todo with
  | [] => s
  | m :: todo => { s with members := e.probeMember s.scanNow s.members m, todo := todo }

/-- A handler writes the sender's record. -/
def upsert [DecidableEq ι] (c : Contact) (i : ι) (now : Nat) (s : ProbeRace ι) : ProbeRace ι :=
  match s.phase i with
  | .got existing =>
    { s with
      members := s.members.upsert (c.record existing now)
      answered := c.sender :: s.answered
      phase := Function.update s.phase i .done }
  | _ => s

def update [DecidableEq ι] (e : GossipEngine) (calls : ι → Contact) : Label ι → ProbeRace ι → ProbeRace ι
  | .snapshot now, s => { s with scanNow := now, todo := s.members.allMembers, answered := [] }
  | .mark, s => s.mark e
  | .get i, s =>
    { s with phase := Function.update s.phase i (.got (s.members.get (calls i).sender)) }
  | .upsert i now, s => s.upsert (calls i) i now

/-- No scan is under way and no message has been looked at. -/
structure Initial (s : ProbeRace ι) : Prop where
  todo : s.todo = []
  answered : s.answered = []
  phase : ∀ i, s.phase i = .start

/-- All interleavings of the scans with the handling of the messages. -/
def system [DecidableEq ι] (e : GossipEngine) (calls : ι → Contact) : Lts (ProbeRace ι) (Label ι) where
  init := Initial
  guard := guard
  update := update e calls

variable {e : GossipEngine} {calls : ι → Contact} {s : ProbeRace ι} {m : ClusterMember}

/-- Without interference, the two steps of a handler are `ensureMember`. -/
theorem members_get_upsert [DecidableEq ι] (i : ι) (now : Nat) :
    (update e calls (.upsert i now) (update e calls (.get i) s)).members =
      s.members.ensureMember (calls i).sender (calls i).region (calls i).addr (calls i).digest
        now := by
  have hphase : (update e calls (.get i) s).phase i = .got (s.members.get (calls i).sender) :=
    Function.update_self _ _ _
  rw [MemberList.ensureMember_eq]
  show (upsert (calls i) i now _).members = _
  rw [upsert, hphase]
  rfl

/-! ## Marks and what justifies them -/

/-- The timeout that a member of this status may exceed. -/
def timeout (c : ClusterConfig) : MemberStatus → Nat
  | .alive => c.probeTimeoutMs
  | .suspect => GossipEngine.suspectTimeoutMs c
  | .dead => 0

/-- By the record read, the member is to be marked. -/
def Overdue (e : GossipEngine) (now : Nat) (m : ClusterMember) : Prop :=
  m.instanceId ≠ e.selfId ∧ GossipEngine.verdict e.config now m ≠ m.status

theorem Overdue.old {now : Nat} (h : Overdue e now m) :
    m.lastPongUnix < now - timeout e.config m.status := by
  rcases h with ⟨_, hverdict⟩
  rw [GossipEngine.verdict] at hverdict
  cases hstatus : m.status with
  | alive =>
    simp only [hstatus] at hverdict
    split at hverdict
    · assumption
    · exact absurd rfl hverdict
  | suspect =>
    simp only [hstatus] at hverdict
    split at hverdict
    · assumption
    · exact absurd rfl hverdict
  | dead =>
    simp only [hstatus] at hverdict
    exact absurd rfl hverdict

/-- A verdict that is news is not that the member is alive. -/
theorem Overdue.verdict_ne {now : Nat} (h : Overdue e now m) :
    GossipEngine.verdict e.config now m ≠ .alive := by
  intro halive
  exact h.2 (halive.trans (GossipEngine.verdict_alive halive).symm)

/-- Right after a mark takes effect, the member has been silent for the timeout
that justifies it, and a member written since the scan began is not left marked. -/
def Justified (e : GossipEngine) (s : ProbeRace ι) : Label ι → Prop
  | .mark => ∀ m todo, s.todo = m :: todo → Overdue e s.scanNow m →
      ∀ m', (s.mark e).members.get m.instanceId = some m' →
        m'.lastPongUnix < s.scanNow - timeout e.config m.status ∧
          (m.instanceId ∈ s.answered → m'.status ≠ .suspect ∧ m'.status ≠ .dead)
  | _ => True

/-- A member whose record was read as overdue has not been written since. -/
def Undisturbed (e : GossipEngine) (s : ProbeRace ι) : Label ι → Prop
  | .mark => ∀ m todo, s.todo = m :: todo → Overdue e s.scanNow m → m.instanceId ∉ s.answered
  | _ => True

/-- The records of the scan are still accurate where nobody has written. -/
structure Current (s : ProbeRace ι) : Prop where
  unanswered : ∀ m ∈ s.todo, m.instanceId ∉ s.answered →
    ∃ m', s.members.get m.instanceId = some m' ∧ m'.lastPongUnix = m.lastPongUnix
  answered : ∀ X ∈ s.answered, s.members.get X ≠ none

theorem current_initial (h : Initial s) : Current s where
  unanswered m hm := by
    rw [h.todo] at hm
    exact absurd hm List.not_mem_nil
  answered X hX := by
    rw [h.answered] at hX
    exact absurd hX List.not_mem_nil

/-- A turn of the loop changes statuses only. -/
theorem get_probeMember_lastPong (now : Nat) (l : MemberList) (m : ClusterMember)
    (X : InstanceId) :
    ((e.probeMember now l m).get X).map (·.lastPongUnix) =
      (l.get X).map (·.lastPongUnix) := by
  rw [GossipEngine.probeMember_eq]
  split
  · rfl
  · rw [MemberList.get_setStatus]
    split
    · rw [Option.map_map]
      rfl
    · rfl

/-- An overdue member that is known gets its verdict. -/
theorem get_probeMember_overdue {now : Nat} {l : MemberList} {m₀ : ClusterMember}
    (h : Overdue e now m) (hm : l.get m.instanceId = some m₀) :
    (e.probeMember now l m).get m.instanceId =
      some { m₀ with status := GossipEngine.verdict e.config now m } := by
  rw [GossipEngine.probeMember_eq, if_neg (not_or.2 h), MemberList.get_setStatus, if_pos rfl, hm]
  rfl

theorem Current.mark (h : Current s) : Current (s.mark e) := by
  rw [ProbeRace.mark]
  cases htodo : s.todo with
  | nil => exact h
  | cons m todo =>
    constructor
    · intro m' hm' hunanswered
      have hin : m' ∈ s.todo := htodo ▸ List.mem_cons_of_mem m hm'
      rcases h.unanswered m' hin hunanswered with ⟨m₀, hm₀, hpong⟩
      -- the mark leaves the times of the others, and its own, as they were
      have hsame := get_probeMember_lastPong (e := e) s.scanNow s.members m m'.instanceId
      rw [hm₀, Option.map_some, Option.map_eq_some_iff] at hsame
      rcases hsame with ⟨m₁, hm₁, hpong₁⟩
      exact ⟨m₁, hm₁, hpong₁.trans hpong⟩
    · intro X hX hnone
      have hsame := get_probeMember_lastPong (e := e) s.scanNow s.members m X
      rw [hnone, Option.map_none] at hsame
      exact h.answered X hX (Option.map_eq_none_iff.1 hsame.symm)

theorem Current.upsert [DecidableEq ι] (h : Current s) (c : Contact) (i : ι) (now : Nat) :
    Current (s.upsert c i now) := by
  rw [ProbeRace.upsert]
  split
  · next existing _ =>
    constructor
    · intro m hm hunanswered
      -- whoever has not answered yet is not the one that answers now
      rcases not_or.1 (List.mem_cons.not.1 hunanswered) with ⟨hne, hunanswered⟩
      rcases h.unanswered m hm hunanswered with ⟨m', hm', hpong⟩
      exact ⟨m', (MemberList.get_upsert_of_ne _ hne).trans hm', hpong⟩
    · intro X hX
      show (s.members.upsert (c.record existing now)).get X ≠ none
      rw [MemberList.get_upsert]
      split
      · exact Option.some_ne_none _
      · next hne =>
        rcases List.mem_cons.1 hX with rfl | hX
        · exact absurd rfl hne
        · exact h.answered X hX
  · exact h

theorem Current.step [DecidableEq ι] (h : Current s) (l : Label ι) : Current (update e calls l s) := by
  cases l with
  | snapshot now =>
    constructor
    · intro m hm _
      exact ⟨m, MemberList.mem_allMembers.1 hm, rfl⟩
    · intro X hX
      exact absurd hX List.not_mem_nil
  | mark => exact h.mark
  | get i => exact ⟨h.unanswered, h.answered⟩
  | upsert i now => exact h.upsert (calls i) i now

theorem justified_step_iff (h : Current s) (l : Label ι) : Justified e s l ↔ Undisturbed e s l := by
  cases l with
  | mark =>
    constructor
    · intro hjust m todo htodo hoverdue hanswered
      rcases Option.ne_none_iff_exists'.1 (h.answered m.instanceId hanswered) with ⟨m₀, hm₀⟩
      -- the mark hits the fresh record
      have hmark : (s.mark e).members.get m.instanceId =
          some { m₀ with status := GossipEngine.verdict e.config s.scanNow m } := by
        rw [ProbeRace.mark, htodo]
        exact get_probeMember_overdue hoverdue hm₀
      rcases (hjust m todo htodo hoverdue _ hmark).2 hanswered with ⟨hsuspect, hdead⟩
      cases hverdict : GossipEngine.verdict e.config s.scanNow m with
      | alive => exact hoverdue.verdict_ne hverdict
      | suspect => exact hsuspect hverdict
      | dead => exact hdead hverdict
    · intro hundisturbed m todo htodo hoverdue m' hm'
      have hunanswered := hundisturbed m todo htodo hoverdue
      refine ⟨?_, fun hanswered => absurd hanswered hunanswered⟩
      have hin : m ∈ s.todo := htodo ▸ List.mem_cons_self
      rcases h.unanswered m hin hunanswered with ⟨m₀, hm₀, hpong⟩
      rw [ProbeRace.mark, htodo] at hm'
      have hsame := get_probeMember_lastPong (e := e) s.scanNow s.members m m.instanceId
      rw [hm', hm₀] at hsame
      have hpong' : m'.lastPongUnix = m₀.lastPongUnix := Option.some.inj hsame
      rw [hpong', hpong]
      exact hoverdue.old
  | snapshot | get | upsert => exact Iff.rfl

/-- Throughout a run, every mark is justified exactly when no member that the scan
has read as overdue is written between the reading and its turn. -/
theorem justified_iff [DecidableEq ι] (e : GossipEngine) (calls : ι → Contact)
    (s : ProbeRace ι) (hs : Initial s) (ls : List (Label ι)) (hls : (system e calls).Enabled s ls) :
    Run.Each (fun s l => (system e calls).update l s) (Justified e) s ls ↔
      Run.Each (fun s l => (system e calls).update l s) (Undisturbed e) s ls :=
  (Run.each_iff_of_invariant (J := Current) (fun _ l h _ _ => h.step l)
    (fun _ l h _ => (justified_step_iff h l).symm) (current_initial hs) hls).symm

/-- An engine that knows `b`, last heard of at time 0. -/
def oneMember : ProbeRace Unit where
  members := MemberList.new.upsert
    (.new ⟨"b"⟩ ⟨"r1"⟩ "10.0.0.2:7946" .default 0)
  scanNow := 0
  todo := []
  answered := []
  phase := fun _ => .start

/-- A pong of `b`. -/
def somePong : Unit → Contact := fun _ => ⟨⟨"b"⟩, ⟨"r1"⟩, none, .default⟩

def proberEngine : GossipEngine := ⟨⟨"a"⟩, ⟨"r1"⟩, "10.0.0.1:7946", ⟨3, 1000, 10⟩⟩

theorem initial_oneMember : Initial oneMember := ⟨rfl, rfl, fun _ => rfl⟩

/-- The pong is handled after the scan. -/
theorem justified_iff_pongLate :
    Run.Each (fun s l => (system proberEngine somePong).update l s) (Justified proberEngine)
      oneMember [.snapshot 5000, .mark, .get (), .upsert () 5001] := by
  refine (justified_iff proberEngine somePong oneMember initial_oneMember
    [.snapshot 5000, .mark, .get (), .upsert () 5001] ?_).2 ?_
  · exact ⟨rfl, List.cons_ne_nil _ _, rfl, ⟨_, rfl⟩, trivial⟩
  · exact ⟨trivial, fun _ _ _ _ => List.not_mem_nil, trivial, trivial, trivial⟩

/-- The pong is handled between the reading and the mark. -/
theorem not_justified_pongBetween :
    ¬ ∀ ls, (system proberEngine somePong).Enabled oneMember ls →
      Run.Each (fun s l => (system proberEngine somePong).update l s) (Justified proberEngine)
        oneMember ls := by
  intro h
  have henabled : (system proberEngine somePong).Enabled oneMember
      [.snapshot 5000, .get (), .upsert () 5001, .mark] :=
    ⟨rfl, rfl, ⟨_, rfl⟩, List.cons_ne_nil _ _, trivial⟩
  rcases h _ henabled with ⟨_, _, _, hjust, _⟩
  have hoverdue : Overdue proberEngine 5000
      (.new ⟨"b"⟩ ⟨"r1"⟩ "10.0.0.2:7946" .default 0) := by
    rw [Overdue]
    decide
  have hmarked : (((system proberEngine somePong).run oneMember
      [.snapshot 5000, .get (), .upsert () 5001, .mark]).members).get ⟨"b"⟩ =
      some ⟨⟨"b"⟩, ⟨"r1"⟩, "10.0.0.2:7946", 5001, .suspect, .default⟩ := by
    decide +kernel
  exact absurd (hjust _ _ rfl hoverdue _ hmarked).1 (by decide)

end ProbeRace

end HierKvGateway
