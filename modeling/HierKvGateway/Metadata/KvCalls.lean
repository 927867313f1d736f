import HierKvGateway.Metadata.KvIndex
import Mathlib.Data.Fintype.Basic

/-!
# Metadata.KvCalls — concurrent calls of the index

`kv_apply_event` and `kv_remove_backend` are asynchronous: each call is a
sequence of steps, and any number of calls interleave.

* `kv_apply_event` assigns a lane, enqueues a command for the worker of the tree,
  waits until the worker has executed it, and then performs the lane writes of
  the event one by one, on the lane it was given at the start;
* `kv_remove_backend` unassigns the lane, and then has the worker remove the
  backend from the tree.

The worker takes commands in the order they were enqueued. `KvCalls.isolated`
says which interleavings keep the lanes of different backends apart.
-/

namespace HierKvGateway

/-- How far a call has got. -/
inductive Phase where
  | start
  /-- A lane has been looked up or removed, and no command enqueued yet. -/
  | assigned (lane : Option LocalLane)
  /-- The call waits for the worker. -/
  | queued (lane : Option LocalLane)
  /-- The worker has answered; these lane writes remain. -/
  | projecting (lane : Option LocalLane) (rest : List LaneWrite)
deriving DecidableEq, Repr

/-- The lane a call has been given. -/
def Phase.lane : Phase → Option LocalLane
  | .start => none
  | .assigned lane => lane
  | .queued lane => lane
  | .projecting lane _ => lane

/-- The lane writes a call still has to perform after the worker's answer. -/
def Phase.rest : Phase → List LaneWrite
  | .start => []
  | .assigned _ => []
  | .queued _ => []
  | .projecting _ ws => ws

/-- The call has begun and not returned. -/
def Phase.InProgress : Phase → Prop
  | .start => False
  | .assigned _ => True
  | .queued _ => True
  | .projecting _ ws => ws ≠ []

/-- The call has returned. -/
def Phase.Returned : Phase → Prop
  | .start => False
  | .assigned _ => False
  | .queued _ => False
  | .projecting _ ws => ws = []

instance : ∀ p : Phase, Decidable p.InProgress
  | .start => .isFalse id
  | .assigned _ => .isTrue trivial
  | .queued _ => .isTrue trivial
  | .projecting _ ws => inferInstanceAs (Decidable (ws ≠ []))

instance : ∀ p : Phase, Decidable p.Returned
  | .start => .isFalse id
  | .assigned _ => .isFalse id
  | .queued _ => .isFalse id
  | .projecting _ ws => inferInstanceAs (Decidable (ws = []))

/-- The lane writes of a call that was given `lane`. -/
def KvOp.writes : KvOp → Option LocalLane → List LaneWrite
  | .applyEvent e _, some _ => e.laneWrites
  | .applyEvent _ _, none => []
  | .removeBackend _, _ => []

/-- What the worker does for a call. -/
def KvOp.execute (t : TreeState) : KvOp → TreeState
  | .applyEvent e b => t.applyEvent b e
  | .removeBackend b => t.removeBackend b

/-- The index, the channel of the worker, and the calls. `log` is the history of
the calls the worker has executed. -/
structure KvCalls (ι : Type) where
  radix : TreeState
  ckf : LocalCkf
  channel : List ι
  phase : ι → Phase
  log : List ι

namespace KvCalls

variable {ι : Type} [DecidableEq ι]

/-- A new index; no call has begun. -/
def new : KvCalls ι where
  radix := .new
  ckf := .new
  channel := []
  phase := fun _ => .start
  log := []

/-- Advance a call. -/
def setPhase (s : KvCalls ι) (i : ι) (p : Phase) : KvCalls ι :=
  { s with phase := Function.update s.phase i p }

/-- The first step of a call: assign a lane, or unassign it. -/
def begin (calls : ι → KvOp) (i : ι) (s : KvCalls ι) : KvCalls ι :=
  match calls i with
  | .applyEvent _ b =>
    let (ckf, lane) := s.ckf.assignLane b
    { s with ckf := ckf }.setPhase i (.assigned lane)
  | .removeBackend b => { s with ckf := s.ckf.unassignLane b }.setPhase i (.assigned none)

/-- Enqueue the command of a call. -/
def enqueue (i : ι) (s : KvCalls ι) : KvCalls ι :=
  { s with channel := s.channel ++ [i] }.setPhase i (.queued (s.phase i).lane)

/-- The worker executes the oldest command and answers. -/
def execute (calls : ι → KvOp) (s : KvCalls ι) : KvCalls ι :=
  match s.channel with
  | [] => s
  | i :: q =>
    let lane := (s.phase i).lane
    { s with
      radix := (calls i).execute s.radix
      channel := q
      log := s.log ++ [i] }.setPhase i (.projecting lane ((calls i).writes lane))

/-- One lane write of a call. -/
def write (H : Xxh3) (i : ι) (s : KvCalls ι) : KvCalls ι :=
  match s.phase i with
  | .projecting (some l) (w :: ws) =>
    { s with ckf := s.ckf.write H l w }.setPhase i (.projecting (some l) ws)
  | _ => s

/-- The steps of the calls and of the worker. -/
inductive Label (ι : Type) where
  | begin (i : ι)
  | enqueue (i : ι)
  | execute
  | write (i : ι)
deriving DecidableEq, Repr

def guard : Label ι → KvCalls ι → Prop
  | .begin i, s => s.phase i = .start
  | .enqueue i, s => s.phase i = .assigned (s.phase i).lane
  | .execute, s => s.channel ≠ []
  | .write i, s => (s.phase i).rest ≠ []

instance decidableGuard : ∀ (l : Label ι) (s : KvCalls ι), Decidable (guard l s)
  | .begin _, _ => inferInstanceAs (Decidable (_ = _))
  | .enqueue _, _ => inferInstanceAs (Decidable (_ = _))
  | .execute, s => inferInstanceAs (Decidable (s.channel ≠ []))
  | .write _, _ => inferInstanceAs (Decidable (_ ≠ _))

def update (H : Xxh3) (calls : ι → KvOp) : Label ι → KvCalls ι → KvCalls ι
  | .begin i, s => s.begin calls i
  | .enqueue i, s => s.enqueue i
  | .execute, s => s.execute calls
  | .write i, s => s.write H i

/-- All interleavings of the calls. -/
def system (H : Xxh3) (calls : ι → KvOp) : Lts (KvCalls ι) (Label ι) where
  init s := s = new
  guard := guard
  update := update H calls

/-! ## Lane isolation -/

/-- No unassignment of a lane while a call still has it: an event of the backend
that is between its lane assignment and its last lane write. -/
def Undisturbed (calls : ι → KvOp) (s : KvCalls ι) : Label ι → Prop
  | .begin i => ∀ b, calls i = .removeBackend b →
      ∀ j e, calls j = .applyEvent e b → (s.phase j).InProgress → (s.phase j).lane = none
  | .enqueue _ => True
  | .execute => True
  | .write _ => True

/-- The lane a call is about to write to is not bound to another backend, and
when no call is in progress the unbound lanes are not active. -/
structure Isolated (calls : ι → KvOp) (s : KvCalls ι) : Prop where
  own : ∀ i e b, calls i = .applyEvent e b → (s.phase i).rest ≠ [] →
    ∀ l, (s.phase i).lane = some l → ∀ b', b' ≠ b → s.ckf.laneBackends l ≠ some b'
  retired : (∀ i, ¬ (s.phase i).InProgress) →
    ∀ l, s.ckf.laneBackends l = none → s.ckf.laneStatus l ≠ .active

/-- What the steps keep: a waiting command belongs to a waiting call, lane writes
belong to an event with a lane, and the lane of a call in progress is the lane of
its backend. -/
structure Inv (calls : ι → KvOp) (s : KvCalls ι) : Prop where
  bound : s.ckf.Bound
  distinct : s.channel.Nodup
  queued : ∀ i ∈ s.channel, ∃ lane, s.phase i = .queued lane
  writer : ∀ i, (s.phase i).rest ≠ [] →
    ∃ e b l, calls i = .applyEvent e b ∧ (s.phase i).lane = some l
  captured : ∀ i e b l, calls i = .applyEvent e b → (s.phase i).InProgress →
    (s.phase i).lane = some l → s.ckf.backendLanes b = some l

section Phase

variable {p : Phase}

theorem Phase.inProgress_of_rest (h : p.rest ≠ []) : p.InProgress := by
  cases p with
  | start => exact absurd rfl h
  | assigned _ => trivial
  | queued _ => trivial
  | projecting _ ws => exact h

theorem Phase.eq_projecting (h : p.rest ≠ []) :
    ∃ w ws, p = .projecting p.lane (w :: ws) := by
  cases p with
  | start => exact absurd rfl h
  | assigned _ => exact absurd rfl h
  | queued _ => exact absurd rfl h
  | projecting lane ws =>
    obtain ⟨w, ws, rfl⟩ := List.exists_cons_of_ne_nil h
    exact ⟨w, ws, rfl⟩

end Phase

section Steps

variable {H : Xxh3} {calls : ι → KvOp} {s : KvCalls ι} {i j : ι} {e : KvCacheEvent}
  {b : BackendId} {p : Phase}

theorem phase_setPhase_self : (s.setPhase i p).phase i = p := Function.update_self ..

theorem phase_setPhase_of_ne (h : j ≠ i) : (s.setPhase i p).phase j = s.phase j :=
  Function.update_of_ne h ..

theorem begin_applyEvent (h : calls i = .applyEvent e b) :
    s.begin calls i = { s with ckf := (s.ckf.assignLane b).1 }.setPhase i
      (.assigned (s.ckf.assignLane b).2) := by
  rw [begin, h]

theorem begin_removeBackend (h : calls i = .removeBackend b) :
    s.begin calls i = { s with ckf := s.ckf.unassignLane b }.setPhase i (.assigned none) := by
  rw [begin, h]

theorem execute_cons {q : List ι} (h : s.channel = i :: q) :
    s.execute calls = { s with
      radix := (calls i).execute s.radix
      channel := q
      log := s.log ++ [i] }.setPhase i
        (.projecting (s.phase i).lane ((calls i).writes (s.phase i).lane)) := by
  rw [execute, h]

theorem write_projecting {l : LocalLane} {w : LaneWrite} {ws : List LaneWrite}
    (h : s.phase i = .projecting (some l) (w :: ws)) :
    s.write H i = { s with ckf := s.ckf.write H l w }.setPhase i (.projecting (some l) ws) := by
  rw [write, h]

omit [DecidableEq ι] in
theorem inv_new : Inv calls new where
  bound := .new
  distinct := List.nodup_nil
  queued _ h := absurd h List.not_mem_nil
  writer _ h := absurd rfl h
  captured _ _ _ _ _ h := h.elim

omit [DecidableEq ι] in
/-- A call that has not been enqueued is not in the channel. -/
theorem Inv.notMem (h : Inv calls s) (hp : ∀ lane, s.phase i ≠ .queued lane) : i ∉ s.channel := by
  intro hi
  obtain ⟨lane, hq⟩ := h.queued i hi
  exact hp lane hq

/-- Changing the phase of one call, and the projection along with it: what has to
be checked of the call, and of the lanes of the others. -/
theorem Inv.advance (h : Inv calls s) {c : LocalCkf} (hc : c.Bound)
    (hi : i ∉ s.channel) (hwriter : p.rest ≠ [] → ∃ e b l, calls i = .applyEvent e b ∧ p.lane = some l)
    (hself : ∀ e b l, calls i = .applyEvent e b → p.InProgress → p.lane = some l →
      c.backendLanes b = some l)
    (hothers : ∀ j e b l, j ≠ i → calls j = .applyEvent e b → (s.phase j).InProgress →
      (s.phase j).lane = some l → c.backendLanes b = some l) :
    Inv calls ({ s with ckf := c }.setPhase i p) where
  bound := hc
  distinct := h.distinct
  queued j hj := by
    have hji : j ≠ i := fun heq => hi (heq ▸ hj)
    rw [phase_setPhase_of_ne hji]
    exact h.queued j hj
  writer j := by
    by_cases hji : j = i
    · subst hji
      rw [phase_setPhase_self]
      exact hwriter
    · rw [phase_setPhase_of_ne hji]
      exact h.writer j
  captured j e b l hj := by
    by_cases hji : j = i
    · subst hji
      rw [phase_setPhase_self]
      exact hself e b l hj
    · rw [phase_setPhase_of_ne hji]
      exact hothers j e b l hji hj

theorem Inv.begin (h : Inv calls s) (hg : s.phase i = .start)
    (hu : Undisturbed calls s (.begin i)) : Inv calls (s.begin calls i) := by
  have hi : i ∉ s.channel := h.notMem fun lane heq => by
    rw [hg] at heq
    cases heq
  cases hcall : calls i with
  | applyEvent e b =>
    rw [begin_applyEvent hcall]
    refine h.advance (h.bound.assign b) hi (fun hrest => absurd rfl hrest) ?_ ?_
    · intro e' b' l hcall' _ hlane
      rw [hcall] at hcall'
      cases hcall'
      exact LocalCkf.backendLanes_assignLane_self hlane
    · intro j e' b' l _ hj hprog hlane
      exact LocalCkf.backendLanes_assignLane (h.captured j e' b' l hj hprog hlane)
  | removeBackend b =>
    rw [begin_removeBackend hcall]
    refine h.advance (h.bound.unassign b) hi (fun hrest => absurd rfl hrest) ?_ ?_
    · intro e b' l hcall'
      rw [hcall] at hcall'
      cases hcall'
    · -- no call in progress has the lane that goes
      intro j e b' l _ hj hprog hlane
      have hb : b' ≠ b := by
        rintro rfl
        have hnone := hu b' hcall j e hj hprog
        rw [hlane] at hnone
        cases hnone
      rw [LocalCkf.backendLanes_unassignLane_of_ne hb]
      exact h.captured j e b' l hj hprog hlane

theorem Inv.enqueue (h : Inv calls s) (hg : s.phase i = .assigned (s.phase i).lane) :
    Inv calls (s.enqueue i) := by
  have hi : i ∉ s.channel := h.notMem fun lane heq => by
    rw [hg] at heq
    cases heq
  have hprog : (s.phase i).InProgress := by
    rw [hg]
    trivial
  have hadv := h.advance (i := i) (p := .queued (s.phase i).lane) h.bound hi
    (fun hrest => absurd rfl hrest) (fun e b l hcall _ hlane => h.captured i e b l hcall hprog hlane)
    (fun j e b l _ hj hp hl => h.captured j e b l hj hp hl)
  refine ⟨hadv.bound, ?_, fun j hj => ?_, hadv.writer, hadv.captured⟩
  · refine List.nodup_append.2 ⟨h.distinct, List.nodup_singleton i, fun a ha c hc heq => ?_⟩
    rw [List.mem_singleton.1 hc] at heq
    exact hi (heq ▸ ha)
  · rcases List.mem_append.1 hj with hj | hj
    · exact hadv.queued j hj
    · rw [List.mem_singleton.1 hj]
      exact ⟨_, phase_setPhase_self⟩

theorem Inv.execute (h : Inv calls s) {q : List ι} (hq : s.channel = i :: q) :
    Inv calls (s.execute calls) := by
  have hnodup : i ∉ q ∧ q.Nodup := List.nodup_cons.1 (hq ▸ h.distinct)
  obtain ⟨lane, hphase⟩ := h.queued i (hq ▸ List.mem_cons_self)
  have hprog : (s.phase i).InProgress := by
    rw [hphase]
    trivial
  -- the channel without the call
  have hpop : Inv calls { s with
      radix := (calls i).execute s.radix
      channel := q
      log := s.log ++ [i] } :=
    ⟨h.bound, hnodup.2, fun j hj => h.queued j (hq ▸ List.mem_cons_of_mem i hj), h.writer, h.captured⟩
  rw [execute_cons hq]
  refine hpop.advance h.bound hnodup.1 (fun hrest => ?_)
    (fun e b l hcall _ hlane => h.captured i e b l hcall hprog hlane)
    (fun j e b l _ hj hp hl => h.captured j e b l hj hp hl)
  have hrest : (calls i).writes (s.phase i).lane ≠ [] := hrest
  change ∃ e b l, calls i = .applyEvent e b ∧ (s.phase i).lane = some l
  cases hcall : calls i with
  | applyEvent e b =>
    cases hlane : (s.phase i).lane with
    | none =>
      rw [hcall, hlane] at hrest
      exact absurd rfl hrest
    | some l => exact ⟨e, b, l, rfl, rfl⟩
  | removeBackend b =>
    rw [hcall] at hrest
    exact absurd rfl hrest

omit [DecidableEq ι] in
/-- A call that is about to write is an event whose backend has the lane, and the
lane is active. -/
theorem Inv.writing (h : Inv calls s) (hg : (s.phase i).rest ≠ []) :
    ∃ e b l w ws, calls i = .applyEvent e b ∧ s.phase i = .projecting (some l) (w :: ws) ∧
      s.ckf.backendLanes b = some l ∧ s.ckf.laneStatus l = .active := by
  obtain ⟨e, b, l, hcall, hlane⟩ := h.writer i hg
  obtain ⟨w, ws, hphase⟩ := Phase.eq_projecting hg
  have hbound := h.captured i e b l hcall (Phase.inProgress_of_rest hg) hlane
  rw [hlane] at hphase
  exact ⟨e, b, l, w, ws, hcall, hphase, hbound, h.bound.active_of_laneOf hbound⟩

theorem Inv.write (h : Inv calls s) (hg : (s.phase i).rest ≠ []) : Inv calls (s.write H i) := by
  obtain ⟨e, b, l, w, ws, hcall, hphase, hbound, hactive⟩ := h.writing hg
  have hsame := LocalCkf.write_sameBindings (H := H) hactive w
  have hi : i ∉ s.channel := h.notMem fun lane heq => by
    rw [hphase] at heq
    cases heq
  rw [write_projecting hphase]
  refine h.advance (h.bound.same hsame) hi (fun _ => ⟨e, b, l, hcall, rfl⟩) ?_ ?_
  · intro e' b' l' hcall' _ hlane
    rw [hcall] at hcall'
    cases hcall'
    cases hlane
    rw [hsame.backendLanes]
    exact hbound
  · intro j e' b' l' _ hj hprog hlane
    rw [hsame.backendLanes]
    exact h.captured j e' b' l' hj hprog hlane

theorem Inv.step (h : Inv calls s) (l : Label ι) (hg : guard l s) (hu : Undisturbed calls s l) :
    Inv calls (update H calls l s) := by
  cases l with
  | begin i => exact h.begin hg hu
  | enqueue i => exact h.enqueue hg
  | execute =>
    obtain ⟨i, q, hq⟩ := List.exists_cons_of_ne_nil hg
    exact h.execute hq
  | write i => exact h.write hg

omit [DecidableEq ι] in
theorem Inv.toIsolated (h : Inv calls s) : Isolated calls s where
  own i e b hcall hrest l hlane b' hb' hother := by
    have hbound := h.captured i e b l hcall (Phase.inProgress_of_rest hrest) hlane
    rw [h.bound.inverse, hother, Option.some_inj] at hbound
    exact hb' hbound
  retired _ l hl := by
    rw [h.bound.retired l hl]
    exact nofun

end Steps

/-- For any calls, in every interleaving in which no lane is unassigned while a
call still has it: an event never writes to a lane bound to another backend, and
an unbound lane is never left active. -/
theorem isolated (H : Xxh3) (calls : ι → KvOp) :
    ∀ s, ((system H calls).restrict (Undisturbed calls)).Reachable s → Isolated calls s := by
  intro s hs
  have hinv : Inv calls s := by
    refine Lts.invariant (S := (system H calls).restrict (Undisturbed calls)) (P := Inv calls)
      ?_ ?_ s hs
    · rintro _ rfl
      exact inv_new
    · intro s l h hg
      exact h.step l hg.1 hg.2
  exact hinv.toIsolated

/-! Three calls: a `Clear` and a removal of the first backend, and an event of the
second. When they do not overlap, nothing goes wrong. -/

def firstBackend : BackendId := ⟨⟨"r1"⟩, ⟨"i1"⟩⟩

def secondBackend : BackendId := ⟨⟨"r2"⟩, ⟨"i2"⟩⟩

def staleCalls : Fin 3 → KvOp
  | 0 => .applyEvent (.clear ⟨1, 0⟩) firstBackend
  | 1 => .removeBackend firstBackend
  | 2 => .applyEvent (.stored ⟨2, 0⟩ [1] none []) secondBackend

/-- The removal begins after the `Clear` has returned. -/
def apart : List (Label (Fin 3)) :=
  [.begin 0, .enqueue 0, .execute, .write 0, .begin 1, .begin 2, .enqueue 1, .enqueue 2, .execute,
    .execute]

theorem isolated_apart : Isolated staleCalls ((system .short staleCalls).run new apart) := by
  have henabled : (system .short staleCalls).Enabled new apart := by
    unfold Lts.Enabled system
    decide +kernel
  have hidle : ∀ j, ¬ (((system .short staleCalls).run new (apart.take 4)).phase j).InProgress := by
    decide +kernel
  have hundisturbed : Run.Each (fun s l => (system .short staleCalls).update l s)
      (Undisturbed staleCalls) new apart := by
    refine ⟨?_, trivial, trivial, trivial, ?_, ?_, trivial, trivial, trivial, trivial, trivial⟩
    · intro b h
      cases h
    · -- nothing is in progress when the removal begins
      intro b _ j e _ hprog
      exact absurd hprog (hidle j)
    · intro b h
      cases h
  have hreach := Lts.Reachable.run (S := (system .short staleCalls).restrict (Undisturbed staleCalls))
    (.init rfl) (Lts.enabled_restrict.2 ⟨henabled, hundisturbed⟩)
  exact isolated .short staleCalls _ hreach

/-! A `Clear` of one backend has its lane when the backend is removed. If the lane
is handed to another backend the `Clear` empties that backend's lane; if nobody
takes it, the `Clear` leaves it active. -/

/-- The lane goes to the second backend before the `Clear` is projected. -/
def handedOver : List (Label (Fin 3)) := [.begin 0, .enqueue 0, .execute, .begin 1, .begin 2]

/-- Both calls of the first backend return. -/
def revived : List (Label (Fin 3)) :=
  [.begin 0, .enqueue 0, .execute, .begin 1, .enqueue 1, .execute, .write 0]

theorem not_isolated_staleCalls :
    ((system .short staleCalls).Enabled new handedOver ∧
      ¬ Isolated staleCalls ((system .short staleCalls).run new handedOver)) ∧
    ((system .short staleCalls).Enabled new revived ∧
      ¬ Isolated staleCalls ((system .short staleCalls).run new revived)) := by
  refine ⟨⟨?_, fun h => ?_⟩, ?_, fun h => ?_⟩
  · unfold Lts.Enabled system
    decide +kernel
  · have hrest : (((system .short staleCalls).run new handedOver).phase 0).rest ≠ [] := by
      decide +kernel
    have hlane : (((system .short staleCalls).run new handedOver).phase 0).lane = some 0 := by
      decide +kernel
    exact h.own 0 _ _ rfl hrest 0 hlane secondBackend (by decide) (by decide +kernel)
  · unfold Lts.Enabled system
    decide +kernel
  · have hidle : ∀ i, ¬ (((system .short staleCalls).run new revived).phase i).InProgress := by
      decide +kernel
    exact h.retired hidle 0 (by decide +kernel) (by decide +kernel)

end KvCalls

end HierKvGateway
