import HierKvGateway.Lib.Rotation
import HierKvGateway.Lib.Run
import HierKvGateway.Lib.Update
import Mathlib.Data.List.Perm.Basic

/-!
# Api.Telemetry — where decision events go

An event goes to every configured sink, one after the other (`telemetry.rs`): the ring buffer behind
the admin endpoint, the log, and a channel to the task that appends to the file. Requests emit at
the same time, so their events can arrive in another order at another sink, and the writer falls
behind as it likes. The bytes of a line reach the file one after the other, and it may fail between
any two of them.

`TelemetryState.delivers`: still, every sink gets the event of a request once, when the request has
passed it, and nothing else. The buffer holds the newest ones up to its capacity, and the lines that
the writer takes are an initial part of what was sent to it: after a failure it takes no more. What
it has added to the file is an initial part of these lines, and only the last of them can be cut.
-/

namespace HierKvGateway

/-! ## The ring buffer -/

/-- `DecisionEventBuffer`: the newest events, the oldest first. -/
structure DecisionEventBuffer (ε : Type) where
  events : List ε
  capacity : Nat
deriving DecidableEq, Repr

namespace DecisionEventBuffer

variable {ε : Type}

/-- `DecisionEventBuffer::new`. -/
def new (capacity : Nat) : DecisionEventBuffer ε := ⟨[], capacity⟩

/-- `push`: the oldest event makes room. -/
def push (event : ε) (b : DecisionEventBuffer ε) : DecisionEventBuffer ε :=
  if b.capacity = 0 then b
  else
    let kept := if b.capacity ≤ b.events.length then b.events.tail else b.events
    { b with events := kept ++ [event] }

/-- `snapshot`: at most so many of the newest events; 0 is for all. -/
def snapshot (limit : Nat) (b : DecisionEventBuffer ε) : List ε :=
  let keep := if limit = 0 then b.events.length else min limit b.events.length
  b.events.drop (b.events.length - keep)

/-- The buffer holds the newest of all events. -/
def Holds (b : DecisionEventBuffer ε) (all : List ε) : Prop := b.events = all.rtake b.capacity

theorem holds_new (capacity : Nat) : (new capacity : DecisionEventBuffer ε).Holds [] :=
  (List.rtake_nil capacity).symm

theorem Holds.push {b : DecisionEventBuffer ε} {all : List ε} (h : b.Holds all) (event : ε) :
    (b.push event).Holds (all ++ [event]) := by
  unfold Holds at h ⊢
  unfold DecisionEventBuffer.push
  by_cases hcap : b.capacity = 0
  · rw [if_pos hcap, h, hcap, List.rtake_zero, List.rtake_zero]
  · rw [if_neg hcap]
    dsimp only
    rw [h]
    by_cases hfull : b.capacity ≤ all.length
    · have hlen : (all.rtake b.capacity).length = b.capacity := by
        unfold List.rtake
        rw [List.length_drop]
        omega
      rw [hlen, if_pos le_rfl, Rotation.rtake_concat_of_le (Nat.pos_of_ne_zero hcap) hfull]
    · have hall : all.rtake b.capacity = all := Rotation.rtake_of_length_le (by omega)
      have hnext : (all ++ [event]).rtake b.capacity = all ++ [event] := by
        refine Rotation.rtake_of_length_le ?_
        rw [List.length_append, List.length_singleton]
        omega
      rw [hall, hnext, if_neg hfull]

theorem capacity_push (b : DecisionEventBuffer ε) (event : ε) :
    (b.push event).capacity = b.capacity := by
  unfold push
  split
  · rfl
  · rfl

/-- A snapshot is of the newest of all events, within the limit and the capacity. -/
theorem Holds.snapshot {b : DecisionEventBuffer ε} {all : List ε} (h : b.Holds all) (limit : Nat) :
    b.snapshot limit = all.rtake (if limit = 0 then b.capacity else min limit b.capacity) := by
  unfold Holds at h
  unfold DecisionEventBuffer.snapshot
  dsimp only
  rw [h]
  unfold List.rtake
  rw [List.length_drop, List.drop_drop]
  congr 1
  split
  · omega
  · omega

end DecisionEventBuffer

/-! ## The sinks -/

/-- Where an event can go. -/
inductive SinkKind where
  | ringBuffer
  | tracing
  | ndjsonFile
deriving DecidableEq, Repr

/-- `TelemetryMode`. -/
inductive TelemetryMode where
  | none
  | tracing
  | file
deriving DecidableEq, Repr

/-- `TelemetryConfig`. -/
structure TelemetryConfig where
  mode : TelemetryMode
  filePath : String
  bufferSize : Nat
deriving DecidableEq, Repr

/-- `TelemetryConfig::default`. -/
def TelemetryConfig.default : TelemetryConfig := ⟨.none, "decision_events.ndjson", 256⟩

/-- `build_telemetry`: the sinks of every event, in order. A file that cannot be opened is none. -/
def buildTelemetry (cfg : TelemetryConfig) (opens : String → Bool) : List SinkKind :=
  (if 0 < cfg.bufferSize then [.ringBuffer] else []) ++
    match cfg.mode with
    | .none => []
    | .tracing => [.tracing]
    | .file => if opens cfg.filePath then [.ndjsonFile] else []

theorem nodup_buildTelemetry (cfg : TelemetryConfig) (opens : String → Bool) :
    (buildTelemetry cfg opens).Nodup := by
  unfold buildTelemetry
  rcases cfg.mode with _ | _ | _
  all_goals split_ifs
  all_goals decide

/-- The sinks, and how far the event of each request has got. -/
structure TelemetryState (ι ε : Type) where
  /-- How many sinks have the event. -/
  position : ι → Nat
  buffer : DecisionEventBuffer ε
  records : List ε
  /-- What the writer has not received. -/
  channel : List ε
  /-- The lines the writer has taken. -/
  file : List ε
  /-- The bytes in the file. -/
  contents : List UInt8
  /-- The bytes of the last line that are not in the file. -/
  unflushed : List UInt8
  disabled : Bool

namespace TelemetryState

variable {ι ε : Type}

/-- `emit` of a sink. -/
def deliver (event : ε) (s : TelemetryState ι ε) : SinkKind → TelemetryState ι ε
  | .ringBuffer => { s with buffer := s.buffer.push event }
  | .tracing => { s with records := s.records ++ [event] }
  | .ndjsonFile => { s with channel := s.channel ++ [event] }

/-- The writer receives a line; once it has failed, it drops them. -/
def receive (line : ε → List UInt8) (s : TelemetryState ι ε) : TelemetryState ι ε :=
  match s.channel with
  | [] => s
  | event :: channel =>
    if s.disabled then { s with channel := channel }
    else { s with channel := channel, file := s.file ++ [event], unflushed := line event }

/-- Some bytes of the line reach the file. -/
def write (n : Nat) (s : TelemetryState ι ε) : TelemetryState ι ε :=
  { s with contents := s.contents ++ s.unflushed.take n, unflushed := s.unflushed.drop n }

/-- `write_all` fails, and the rest of the line is gone; or `flush` fails, and the rest is kept. -/
def fail (kept : Bool) (s : TelemetryState ι ε) : TelemetryState ι ε :=
  { s with disabled := true, unflushed := if kept then s.unflushed else [] }

/-- A step of a request that emits its event, or of the writer. -/
inductive Label (ι : Type) where
  | emit (i : ι)
  | receive
  | write (n : Nat)
  | fail (kept : Bool)

variable [DecidableEq ι] (sinks : List SinkKind) (event : ι → ε) (capacity : Nat)

/-- The event of a request goes to its next sink. -/
def emit (i : ι) (s : TelemetryState ι ε) : TelemetryState ι ε :=
  match sinks[s.position i]? with
  | some kind =>
    { s.deliver (event i) kind with position := Function.update s.position i (s.position i + 1) }
  | none => s

/-- Nothing has been emitted, and the file has what was written to it before. -/
def start (capacity : Nat) (before : List UInt8) : TelemetryState ι ε :=
  ⟨fun _ => 0, .new capacity, [], [], [], before, [], false⟩

/-- All interleavings of the requests and the writer. The writer receives no line before it is done
with the last one; what a failed `flush` has kept can still be written by the one at the end. -/
def system (line : ε → List UInt8) (before : List UInt8) :
    Lts (TelemetryState ι ε) (Label ι) where
  init s := s = start capacity before
  guard
    | .receive, s => s.disabled = true ∨ s.unflushed = []
    | .fail _, s => s.disabled = false ∧ s.file ≠ []
    | _, _ => True
  update
    | .emit i, s => s.emit sinks event i
    | .receive, s => s.receive line
    | .write n, s => s.write n
    | .fail kept, s => s.fail kept

/-- The event of a request has been emitted to a sink. -/
def Passed (s : TelemetryState ι ε) (i : ι) (kind : SinkKind) : Prop :=
  ∃ k, k < s.position i ∧ sinks[k]? = some kind

/-- What has arrived, as the requests whose events have, in order; and the lines lost. -/
structure Arrived (s : TelemetryState ι ε) (log : SinkKind → List ι) (lost : List ε) : Prop where
  nodup : ∀ kind, (log kind).Nodup
  mem : ∀ kind i, i ∈ log kind ↔ Passed sinks s i kind
  capacity : s.buffer.capacity = capacity
  buffer : s.buffer.Holds ((log .ringBuffer).map event)
  records : s.records = (log .tracing).map event
  file : (log .ndjsonFile).map event = s.file ++ lost ++ s.channel
  lost : s.disabled = false → lost = []

/-- The file has what it had before, all lines that the writer has taken but the last, and as much
of the last one as has been written. -/
structure Appended (line : ε → List UInt8) (before : List UInt8) (s : TelemetryState ι ε) :
    Prop where
  finished : before ++ s.file.dropLast.flatMap line <+: s.contents
  written : s.contents ++ s.unflushed <+: before ++ s.file.flatMap line
  all : s.disabled = false → s.contents ++ s.unflushed = before ++ s.file.flatMap line

variable {sinks event capacity} {line : ε → List UInt8} {before : List UInt8}
  {s : TelemetryState ι ε} {log : SinkKind → List ι} {lost : List ε}

/-- The sink that an event goes to next is the only one that it passes. -/
theorem passed_emit {i : ι} {kind : SinkKind}
    (hkind : sinks[s.position i]? = some kind) {s' : TelemetryState ι ε}
    (hposition : s'.position = Function.update s.position i (s.position i + 1)) (j : ι)
    (kind' : SinkKind) :
    Passed sinks s' j kind' ↔ Passed sinks s j kind' ∨ j = i ∧ kind' = kind := by
  unfold Passed
  rw [hposition]
  by_cases hj : j = i
  · subst hj
    rw [Function.update_self]
    constructor
    · rintro ⟨k, hk, hget⟩
      rcases Nat.lt_succ_iff_lt_or_eq.1 hk with hk | rfl
      · exact Or.inl ⟨k, hk, hget⟩
      · exact Or.inr ⟨rfl, Option.some.inj (hget.symm.trans hkind)⟩
    · rintro (⟨k, hk, hget⟩ | ⟨-, rfl⟩)
      · exact ⟨k, by omega, hget⟩
      · exact ⟨s.position j, by omega, hkind⟩
  · rw [Function.update_of_ne hj]
    constructor
    · exact Or.inl
    · rintro (h | ⟨heq, -⟩)
      · exact h
      · exact absurd heq hj

omit [DecidableEq ι] in
/-- An event has not passed the sink it goes to next. -/
theorem not_passed (hnodup : sinks.Nodup) {i : ι} {kind : SinkKind}
    (hkind : sinks[s.position i]? = some kind) : ¬Passed sinks s i kind := by
  rintro ⟨k, hk, hget⟩
  rcases List.getElem?_eq_some_iff.1 hget with ⟨hlt, hk'⟩
  rcases List.getElem?_eq_some_iff.1 hkind with ⟨hlt', hpos'⟩
  have hsame : k = s.position i := hnodup.getElem_inj_iff.1 (hk'.trans hpos'.symm)
  omega

/-- The event of a request arrives at its next sink. -/
theorem Arrived.emit (h : Arrived sinks event capacity s log lost) (hnodup : sinks.Nodup) (i : ι) :
    ∃ log', Arrived sinks event capacity (s.emit sinks event i) log' lost := by
  unfold TelemetryState.emit
  split
  case h_2 => exact ⟨log, h⟩
  case h_1 kind hkind =>
    have hnot : i ∉ log kind := fun hmem => not_passed hnodup hkind ((h.mem kind i).1 hmem)
    -- one more request in the log of the sink
    refine ⟨Function.update log kind (log kind ++ [i]), ?_, ?_, ?_, ?_, ?_, ?_, ?_⟩
    · intro kind'
      by_cases hk : kind' = kind
      · subst hk
        rw [Function.update_self, List.nodup_append]
        refine ⟨h.nodup kind', List.nodup_singleton i, ?_⟩
        intro j hj j' hj' heq
        rw [heq, List.mem_singleton.1 hj'] at hj
        exact hnot hj
      · rw [Function.update_of_ne hk]
        exact h.nodup kind'
    · intro kind' j
      rw [passed_emit hkind rfl, ← h.mem]
      by_cases hk : kind' = kind
      · subst hk
        simp
      · rw [Function.update_of_ne hk]
        simp [hk]
    · cases kind with
      | ringBuffer =>
        show (s.buffer.push (event i)).capacity = capacity
        rw [DecisionEventBuffer.capacity_push, h.capacity]
      | tracing => exact h.capacity
      | ndjsonFile => exact h.capacity
    · cases kind with
      | ringBuffer =>
        rw [Function.update_self, List.map_append]
        exact h.buffer.push (event i)
      | tracing => exact h.buffer
      | ndjsonFile => exact h.buffer
    · cases kind with
      | tracing =>
        rw [Function.update_self, List.map_append, ← h.records]
        rfl
      | ringBuffer => exact h.records
      | ndjsonFile => exact h.records
    · cases kind with
      | ndjsonFile =>
        rw [Function.update_self, List.map_append, h.file]
        show s.file ++ lost ++ s.channel ++ [event i] = s.file ++ lost ++ (s.channel ++ [event i])
        rw [List.append_assoc (s.file ++ lost)]
      | ringBuffer => exact h.file
      | tracing => exact h.file
    · cases kind with
      | ringBuffer => exact h.lost
      | tracing => exact h.lost
      | ndjsonFile => exact h.lost

omit [DecidableEq ι] in
/-- The writer takes a line, or loses it. -/
theorem Arrived.receive (h : Arrived sinks event capacity s log lost) (line : ε → List UInt8) :
    ∃ lost', Arrived sinks event capacity (s.receive line) log lost' := by
  have hfile := h.file
  unfold TelemetryState.receive
  split
  case h_1 => exact ⟨lost, h⟩
  case h_2 e channel hchannel =>
    rw [hchannel] at hfile
    split
    case isTrue hdisabled =>
      refine ⟨lost ++ [e], h.nodup, h.mem, h.capacity, h.buffer, h.records, ?_, ?_⟩
      · rw [hfile]
        simp
      · intro hopen
        exact absurd (hopen.symm.trans hdisabled) Bool.false_ne_true
    case isFalse hopen =>
      have hnone := h.lost (Bool.eq_false_iff.2 hopen)
      rw [hnone, List.append_nil] at hfile
      refine ⟨[], h.nodup, h.mem, h.capacity, h.buffer, h.records, ?_, fun _ => rfl⟩
      rw [hfile]
      simp

omit [DecidableEq ι] in
theorem Arrived.fail (h : Arrived sinks event capacity s log lost) (kept : Bool) :
    Arrived sinks event capacity (s.fail kept) log lost :=
  ⟨h.nodup, h.mem, h.capacity, h.buffer, h.records, h.file, nofun⟩

/-! ### The file -/

omit [DecidableEq ι] in
theorem appended_start (capacity : Nat) :
    Appended line before (start capacity before : TelemetryState ι ε) where
  finished := by
    show before ++ [] <+: before
    rw [List.append_nil]
  written := List.prefix_rfl
  all _ := rfl

theorem Appended.emit (h : Appended line before s) (sinks : List SinkKind) (event : ι → ε) (i : ι) :
    Appended line before (s.emit sinks event i) := by
  unfold TelemetryState.emit
  split
  case h_2 => exact h
  case h_1 kind hkind =>
    cases kind with
    | ringBuffer => exact ⟨h.finished, h.written, h.all⟩
    | tracing => exact ⟨h.finished, h.written, h.all⟩
    | ndjsonFile => exact ⟨h.finished, h.written, h.all⟩

omit [DecidableEq ι] in
/-- A line is received when those before it are in the file. -/
theorem Appended.receive (h : Appended line before s)
    (hdone : s.disabled = true ∨ s.unflushed = []) : Appended line before (s.receive line) := by
  unfold TelemetryState.receive
  split
  case h_1 => exact h
  case h_2 e channel hchannel =>
    split
    case isTrue => exact ⟨h.finished, h.written, h.all⟩
    case isFalse hopen =>
      have hempty : s.unflushed = [] := hdone.resolve_left hopen
      have hcontents : s.contents = before ++ s.file.flatMap line := by
        rw [← h.all (Bool.eq_false_iff.2 hopen), hempty, List.append_nil]
      have hall : s.contents ++ line e = before ++ (s.file ++ [e]).flatMap line := by
        rw [hcontents, List.flatMap_append, List.flatMap_singleton, List.append_assoc]
      refine ⟨?_, hall ▸ List.prefix_rfl, fun _ => hall⟩
      show before ++ (s.file ++ [e]).dropLast.flatMap line <+: s.contents
      rw [List.dropLast_concat, hcontents]

omit [DecidableEq ι] in
theorem Appended.write (h : Appended line before s) (n : Nat) :
    Appended line before (s.write n) := by
  have hsame : s.contents ++ s.unflushed.take n ++ s.unflushed.drop n =
      s.contents ++ s.unflushed := by
    rw [List.append_assoc, List.take_append_drop]
  refine ⟨h.finished.trans (List.prefix_append _ _), ?_, fun hopen => hsame.trans (h.all hopen)⟩
  show s.contents ++ s.unflushed.take n ++ s.unflushed.drop n <+: _
  rw [hsame]
  exact h.written

omit [DecidableEq ι] in
theorem Appended.fail (h : Appended line before s) (kept : Bool) :
    Appended line before (s.fail kept) := by
  refine ⟨h.finished, ?_, nofun⟩
  cases kept with
  | true => exact h.written
  | false =>
    show s.contents ++ [] <+: _
    rw [List.append_nil]
    exact (List.prefix_append _ _).trans h.written

omit [DecidableEq ι] in
/-- What is in the file comes from the lines that the writer has taken. -/
theorem Appended.contents_prefix (h : Appended line before s) :
    s.contents <+: before ++ s.file.flatMap line :=
  (List.prefix_append _ _).trans h.written

omit [DecidableEq ι] in
theorem Appended.contents_eq (h : Appended line before s) (hopen : s.disabled = false)
    (hdone : s.unflushed = []) : s.contents = before ++ s.file.flatMap line := by
  rw [← h.all hopen, hdone, List.append_nil]

theorem arrived_of_reachable (hnodup : sinks.Nodup)
    (hs : (system sinks event capacity line before).Reachable s) :
    (∃ log lost, Arrived sinks event capacity s log lost) ∧ Appended line before s := by
  refine Lts.invariant (S := system sinks event capacity line before)
    (P := fun s => (∃ log lost, Arrived sinks event capacity s log lost) ∧ Appended line before s)
    ?_ ?_ s hs
  · rintro s rfl
    refine ⟨⟨fun _ => [], [], fun _ => List.nodup_nil, ?_, rfl, DecisionEventBuffer.holds_new _,
      rfl, rfl, fun _ => rfl⟩, appended_start capacity⟩
    intro kind i
    exact ⟨fun hmem => absurd hmem List.not_mem_nil,
      fun ⟨k, hk, _⟩ => absurd hk (Nat.not_lt_zero k)⟩
  · rintro s l ⟨⟨log, lost, h⟩, happended⟩ hguard
    cases l with
    | emit i =>
      rcases h.emit hnodup i with ⟨log', h'⟩
      exact ⟨⟨log', lost, h'⟩, happended.emit sinks event i⟩
    | receive =>
      rcases h.receive line with ⟨lost', h'⟩
      exact ⟨⟨log, lost', h'⟩, happended.receive hguard⟩
    | write n =>
      exact ⟨⟨log, lost, h.nodup, h.mem, h.capacity, h.buffer, h.records, h.file, h.lost⟩,
        happended.write n⟩
    | fail kept => exact ⟨⟨log, lost, h.fail kept⟩, happended.fail kept⟩

/-- No request is between two sinks. -/
def Quiet (sinks : List SinkKind) (s : TelemetryState ι ε) : Prop :=
  ∀ i, s.position i = 0 ∨ sinks.length ≤ s.position i

/-- In every interleaving, every sink has the events that have passed it, once each. -/
theorem delivers (cfg : TelemetryConfig) (opens : String → Bool) (event : ι → ε)
    (line : ε → List UInt8) (before : List UInt8) {s : TelemetryState ι ε}
    (hs : (system (buildTelemetry cfg opens) event cfg.bufferSize line before).Reachable s) :
    ∃ log : SinkKind → List ι,
      (∀ kind, (log kind).Nodup) ∧
      (∀ kind i, i ∈ log kind ↔ Passed (buildTelemetry cfg opens) s i kind) ∧
      (∀ limit, s.buffer.snapshot limit = ((log .ringBuffer).map event).rtake
        (if limit = 0 then cfg.bufferSize else min limit cfg.bufferSize)) ∧
      s.records = (log .tracing).map event ∧
      s.file <+: (log .ndjsonFile).map event ∧
      (s.disabled = false → s.file ++ s.channel = (log .ndjsonFile).map event) ∧
      before ++ s.file.dropLast.flatMap line <+: s.contents ∧
      s.contents <+: before ++ s.file.flatMap line ∧
      (s.disabled = false → s.unflushed = [] → s.contents = before ++ s.file.flatMap line) ∧
      (Quiet (buildTelemetry cfg opens) s →
        ∀ kind ∈ buildTelemetry cfg opens, ∀ kind' ∈ buildTelemetry cfg opens,
          (log kind).Perm (log kind')) := by
  rcases arrived_of_reachable (nodup_buildTelemetry cfg opens) hs with ⟨⟨log, lost, h⟩, happended⟩
  refine ⟨log, h.nodup, h.mem, ?_, h.records, ?_, ?_, happended.finished,
    happended.contents_prefix, happended.contents_eq, ?_⟩
  · intro limit
    rw [h.buffer.snapshot, h.capacity]
  · rw [h.file, List.append_assoc]
    exact List.prefix_append _ _
  · intro hopen
    rw [h.file, h.lost hopen, List.append_nil]
  · intro hquiet kind hkind kind' hkind'
    -- who has emitted to one sink has emitted to all
    have hall : ∀ i, ∀ kind ∈ buildTelemetry cfg opens,
        Passed (buildTelemetry cfg opens) s i kind ↔ s.position i ≠ 0 := by
      intro i kind hkind
      constructor
      · rintro ⟨k, hk, -⟩
        omega
      · intro hpos
        rcases List.getElem_of_mem hkind with ⟨k, hk, hget⟩
        have hlen := (hquiet i).resolve_left hpos
        exact ⟨k, by omega, List.getElem?_eq_some_iff.2 ⟨hk, hget⟩⟩
    rw [List.perm_ext_iff_of_nodup (h.nodup kind) (h.nodup kind')]
    intro i
    rw [h.mem, h.mem, hall i kind hkind, hall i kind' hkind']

/-- A buffer of one event, and a file. -/
def fileConfig : TelemetryConfig := { TelemetryConfig.default with mode := .file, bufferSize := 1 }

/-- The second request overtakes the first between the buffer and the file; when its line of `n`
bytes is written, the writer fails in the middle of the other. -/
def overtaking (n : Nat) : List (Label Bool) :=
  [.emit false, .emit true, .emit true, .emit false, .receive, .write 1, .write n, .receive,
    .write 1, .fail false]

omit [DecidableEq ι] in
theorem enabled_overtaking (event : Bool → ε) (line : ε → List UInt8) (before : List UInt8) :
    (system (buildTelemetry fileConfig fun _ => true) event 1 line before).Enabled
      (start 1 before) (overtaking (line (event true)).length) := by
  have hdone : ((line (event true)).drop 1).drop (line (event true)).length = [] := by
    refine List.drop_eq_nil_of_le ?_
    rw [List.length_drop]
    omega
  exact ⟨trivial, trivial, trivial, trivial, Or.inr rfl, trivial, trivial, Or.inr hdone, trivial,
    ⟨rfl, nofun⟩, trivial⟩

/-- The line of a request is its letter and a newline. -/
def letter (i : Bool) : List UInt8 := if i then [98, 10] else [97, 10]

/-- The sinks have both events, in different orders; the buffer has the newer one. The file began
with a line, and the last line is cut. -/
theorem delivers_overtaking :
    let s := (system (buildTelemetry fileConfig fun _ => true) (fun i : Bool => i) 1 letter
      [99, 10]).run (start 1 [99, 10]) (overtaking 2)
    (∃ log : SinkKind → List Bool, (log .ringBuffer).Perm (log .ndjsonFile)) ∧
      s.buffer.snapshot 0 = [true] ∧ s.file = [true, false] ∧
        s.contents = [99, 10, 98, 10, 97] := by
  have hreach : (system (buildTelemetry fileConfig fun _ => true) (fun i : Bool => i) 1 letter
      [99, 10]).Reachable ((system (buildTelemetry fileConfig fun _ => true) (fun i : Bool => i) 1
        letter [99, 10]).run (start 1 [99, 10]) (overtaking 2)) :=
    Lts.Reachable.run (Lts.Reachable.init rfl) (enabled_overtaking (fun i : Bool => i) letter _)
  rcases delivers fileConfig (fun _ => true) (fun i : Bool => i) letter [99, 10] hreach with
    ⟨log, -, -, -, -, -, -, -, -, -, hperm⟩
  refine ⟨⟨log, hperm ?_ .ringBuffer (by decide) .ndjsonFile (by decide)⟩, by decide, by decide,
    by decide⟩
  intro i
  cases i with
  | false => exact Or.inr (by decide)
  | true => exact Or.inr (by decide)

end TelemetryState

end HierKvGateway
