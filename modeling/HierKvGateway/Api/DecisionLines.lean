import HierKvGateway.Api.DecisionEvent
import HierKvGateway.Api.RequestKey
import HierKvGateway.Api.Telemetry
import HierKvGateway.Core.Utf8
import HierKvGateway.Lib.Records

/-!
# Api.DecisionLines — the file of decision events

The file sink appends the JSON of an event and a newline (`NdjsonFileSink`). JSON text has no
newline in it, so the complete lines of a file are the texts of events (`ended_lines`), and the text
of an event tells the event.

`TelemetryState.file_tells`: at any time, however the requests and the writer are interleaved and
wherever the writer has failed, what has been added to the file, read line by line, gives an initial
part of the events in the order they were sent. A line that was cut by an earlier failure is
continued by the first of them.
-/

namespace HierKvGateway

/-! ## Lines -/

namespace Json

theorem newline_digitChar {n : Nat} (h : n < 16) : Nat.digitChar n ≠ '\n' := by
  revert n
  decide

theorem newline_escapeChar (c : Char) : '\n' ∉ escapeChar c := by
  unfold escapeChar
  split_ifs with hquote hslash hb ht hn hf hr hcontrol
  all_goals try decide
  · have hhigh := newline_digitChar (n := c.toNat / 16) (by omega)
    have hlow := newline_digitChar (n := c.toNat % 16) (by omega)
    simp [hhigh.symm, hlow.symm]
  · simpa using Ne.symm hn

theorem newline_quoted (s : String) : '\n' ∉ quoted s := by
  rw [quoted_eq]
  simp only [List.mem_cons, List.mem_append, List.mem_flatMap, List.not_mem_nil, or_false]
  rintro (h | ⟨c, -, hc⟩ | h)
  · exact absurd h (by decide)
  · exact newline_escapeChar c hc
  · exact absurd h (by decide)

mutual

/-- There is no newline in the text of a value. -/
theorem newline_compact : ∀ v : Json, v.WellFormed → '\n' ∉ compact v
  | .null, _ => by decide
  | .bool b, _ => by cases b <;> decide
  | .number text, h => by
    rw [WellFormed] at h
    intro hmem
    exact absurd (h.2 '\n' hmem) (by decide)
  | .string s, _ => newline_quoted s
  | .array items, h => by
    rw [WellFormed] at h
    have hitems := newline_items items h
    rw [compact]
    simp [hitems]
  | .object fields, h => by
    rw [WellFormed] at h
    have hfields := newline_fields fields h
    rw [compact]
    simp [hfields]

theorem newline_items : ∀ items : List Json, WellFormedItems items → '\n' ∉ compactItems items
  | [], _ => List.not_mem_nil
  | item :: items, h => by
    rw [WellFormedItems] at h
    have hitem := newline_compact item h.1
    have hitems := newline_items items h.2
    rw [compactItems]
    split <;> simp [hitem, hitems]

theorem newline_fields : ∀ fields : List (String × Json), WellFormedFields fields →
    '\n' ∉ compactFields fields
  | [], _ => List.not_mem_nil
  | (key, value) :: fields, h => by
    rw [WellFormedFields] at h
    have hkey := newline_quoted key
    have hvalue := newline_compact value h.1
    have hfields := newline_fields fields h.2
    rw [compactFields]
    split <;> simp [hkey, hvalue, hfields]

end

end Json

/-! ## The JSON of an event -/

/-- The JSON of a floating-point number; infinities and NaN are null. -/
def FloatText.toJson {F : Type} [Floating F] (f64 : FloatText F) (x : F) : Json :=
  if Floating.isFinite x then .number (f64.text x) else .null

/-- The JSON of an attempt. -/
def ForwardAttempt.toJson (a : ForwardAttempt) : Json :=
  .object ([("backend", .string a.backend), ("success", .bool a.success),
    ("skipped_open_circuit", .bool a.skippedOpenCircuit)] ++ Json.field "error" .string a.error)

/-- The JSON of an outcome. -/
def DecisionOutcome.toJson : DecisionOutcome → Json
  | .success => .string "success"
  | .routingFailed => .string "routing_failed"
  | .allCandidatesFailed => .string "all_candidates_failed"

section

variable {F : Type} [Floating F] (f64 : FloatText F)

/-- The JSON of a candidate. -/
def CandidateScore.toJson (c : CandidateScore F) : Json :=
  .object [("backend", .string c.backend), ("score", f64.toJson c.score),
    ("kv_overlap", .ofNat c.kvOverlap.toNat)]

/-- The JSON of the weights. -/
def StrategyWeights.toJson (w : StrategyWeights F) : Json :=
  .object [("kv", f64.toJson w.kv), ("load", f64.toJson w.load),
    ("topology", f64.toJson w.topology)]

namespace DecisionEvent

/-- The JSON of an event. -/
def toJson (e : DecisionEvent F) : Json :=
  .object <|
    [("event_id", .string e.eventId), ("timestamp_unix_ms", .ofInt e.timestampUnixMs),
      ("gateway_instance", .string e.gatewayInstance), ("gateway_region", .string e.gatewayRegion),
      ("request_id", .string e.requestId), ("model", .string e.model)] ++
    Json.field "session_id" .string e.sessionId ++ [("strategy", .string e.strategy)] ++
    Json.field "weights" (StrategyWeights.toJson f64) e.weights ++
    [("candidates", .array (e.candidates.map (CandidateScore.toJson f64))),
      ("attempts", .array (e.attempts.map ForwardAttempt.toJson))] ++
    Json.field "selected_backend" .string e.selectedBackend ++
    [("kv_overlap", .ofNat e.kvOverlap.toNat), ("prompt_blocks", .ofNat e.promptBlocks.toNat),
      ("routing_latency_us", .ofNat e.routingLatencyUs.toNat),
      ("total_latency_us", .ofNat e.totalLatencyUs.toNat), ("outcome", e.outcome.toJson)]

/-- The text of an event (`serde_json::to_string`). -/
def text (e : DecisionEvent F) : List Char := (e.toJson f64).compact

/-- The bytes of its line. -/
def line (e : DecisionEvent F) : List UInt8 := Utf8.encode (e.text f64 ++ ['\n'])

end DecisionEvent

end

/-! ## The text tells the event -/

namespace DecisionEvent

variable {F : Type} [Floating F] (f64 : FloatText F)

/-- All numbers of the event are finite. -/
def Finite (e : DecisionEvent F) : Prop :=
  (∀ c ∈ e.candidates, Floating.isFinite c.score = true) ∧
    ∀ w, e.weights = some w → Floating.isFinite w.kv = true ∧ Floating.isFinite w.load = true ∧
      Floating.isFinite w.topology = true

theorem wellFormed_f64 (x : F) : (f64.toJson x).WellFormed := by
  unfold FloatText.toJson
  split
  · rw [Json.WellFormed]
    exact f64.number x (by assumption)
  · rw [Json.WellFormed]
    trivial

theorem wellFormed_ofNat (n : Nat) : (Json.ofNat n).WellFormed := by
  rw [Json.ofNat, Json.WellFormed]
  exact Json.numberText_ofNat n

theorem wellFormed_ofInt (n : Int) : (Json.ofInt n).WellFormed := by
  rw [Json.ofInt, Json.WellFormed]
  exact Json.numberText_ofInt n

theorem wellFormed_string (s : String) : (Json.string s).WellFormed := by
  rw [Json.WellFormed]
  trivial

theorem wellFormed_array {α : Type} {toJson : α → Json} (h : ∀ a, (toJson a).WellFormed)
    (l : List α) : (Json.array (l.map toJson)).WellFormed := by
  rw [Json.WellFormed, Json.wellFormedItems_iff]
  intro v hv
  rcases List.mem_map.1 hv with ⟨a, -, rfl⟩
  exact h a

theorem wellFormed_attempt (a : ForwardAttempt) : a.toJson.WellFormed := by
  rw [ForwardAttempt.toJson, Json.WellFormed, Json.wellFormedFields_iff]
  intro field hfield
  rcases List.mem_append.1 hfield with hfield | hfield
  · simp only [List.mem_cons, List.not_mem_nil, or_false] at hfield
    rcases hfield with rfl | rfl | rfl
    all_goals simp [Json.WellFormed]
  · exact Json.wellFormed_field wellFormed_string hfield

theorem wellFormed_candidate (c : CandidateScore F) : (c.toJson f64).WellFormed := by
  have hscore := wellFormed_f64 f64 c.score
  have hoverlap := wellFormed_ofNat c.kvOverlap.toNat
  simp [CandidateScore.toJson, Json.WellFormed, Json.WellFormedFields, hscore, hoverlap]

theorem wellFormed_weights (w : StrategyWeights F) : (w.toJson f64).WellFormed := by
  have hkv := wellFormed_f64 f64 w.kv
  have hload := wellFormed_f64 f64 w.load
  have htopology := wellFormed_f64 f64 w.topology
  simp [StrategyWeights.toJson, Json.WellFormed, Json.WellFormedFields, hkv, hload, htopology]

theorem wellFormed_outcome (o : DecisionOutcome) : o.toJson.WellFormed := by
  cases o <;> exact wellFormed_string _

theorem wellFormed_toJson (e : DecisionEvent F) : (e.toJson f64).WellFormed := by
  rw [toJson, Json.WellFormed, Json.wellFormedFields_iff]
  intro field hfield
  simp only [List.mem_append, List.mem_cons, List.not_mem_nil, or_false] at hfield
  rcases hfield with ((((((rfl | rfl | rfl | rfl | rfl | rfl) | hsession) | rfl) | hweights) |
    (rfl | rfl)) | hselected) | (rfl | rfl | rfl | rfl | rfl)
  · exact wellFormed_string _
  · exact wellFormed_ofInt _
  · exact wellFormed_string _
  · exact wellFormed_string _
  · exact wellFormed_string _
  · exact wellFormed_string _
  · exact Json.wellFormed_field wellFormed_string hsession
  · exact wellFormed_string _
  · exact Json.wellFormed_field (wellFormed_weights f64) hweights
  · exact wellFormed_array (wellFormed_candidate f64) _
  · exact wellFormed_array wellFormed_attempt _
  · exact Json.wellFormed_field wellFormed_string hselected
  · exact wellFormed_ofNat _
  · exact wellFormed_ofNat _
  · exact wellFormed_ofNat _
  · exact wellFormed_ofNat _
  · exact wellFormed_outcome _

/-- There is no newline in the bytes of the text of an event. -/
theorem newline_text (e : DecisionEvent F) : 10 ∉ Utf8.encode (e.text f64) :=
  Utf8.notMem_encode (n := 10) (by decide) (Json.newline_compact _ (wellFormed_toJson f64 e))

theorem flatMap_line (events : List (DecisionEvent F)) :
    events.flatMap (line f64) =
      Lines.unlines 10 (events.map fun e => Utf8.encode (e.text f64)) := by
  unfold Lines.unlines
  rw [List.flatMap_map]
  refine List.flatMap_congr ?_
  intro e _
  exact List.flatMap_append

/-- The complete lines of a file of events are the texts of the events. -/
theorem ended_lines (events : List (DecisionEvent F)) :
    Records.ended 10 (events.flatMap (line f64)) =
      events.map fun e => Utf8.encode (e.text f64) := by
  rw [flatMap_line]
  refine Records.ended_unlines ?_
  intro l hl
  rcases List.mem_map.1 hl with ⟨e, -, rfl⟩
  exact newline_text f64 e

variable {f64}

theorem f64_inj {x y : F} (hx : Floating.isFinite x = true) (hy : Floating.isFinite y = true)
    (h : f64.toJson x = f64.toJson y) : x = y := by
  unfold FloatText.toJson at h
  rw [if_pos hx, if_pos hy] at h
  exact f64.injective x y hx hy (Json.number.inj h)

theorem toJson_attempt_inj : Function.Injective ForwardAttempt.toJson := by
  intro a b h
  have hget (key : String) : a.toJson.get key = b.toJson.get key := by
    rw [h]
  have hbackend : a.backend = b.backend := by
    simpa [ForwardAttempt.toJson, Json.get, List.lookup_cons] using hget "backend"
  have hsuccess : a.success = b.success := by
    simpa [ForwardAttempt.toJson, Json.get, List.lookup_cons] using hget "success"
  have hskipped : a.skippedOpenCircuit = b.skippedOpenCircuit := by
    simpa [ForwardAttempt.toJson, Json.get, List.lookup_cons] using hget "skipped_open_circuit"
  have herror : a.error.map Json.string = b.error.map Json.string := by
    simpa [ForwardAttempt.toJson, Json.get, List.lookup_cons, Json.lookup_field] using hget "error"
  cases a
  cases b
  simp only [ForwardAttempt.mk.injEq]
  exact ⟨hbackend, hsuccess, hskipped,
    Option.map_injective (fun _ _ hs => Json.string.inj hs) herror⟩

theorem toJson_candidate_inj {c c' : CandidateScore F} (hc : Floating.isFinite c.score = true)
    (hc' : Floating.isFinite c'.score = true) (h : c.toJson f64 = c'.toJson f64) : c = c' := by
  rcases c with ⟨backend, score, kvOverlap⟩
  rcases c' with ⟨backend', score', kvOverlap'⟩
  simp only [CandidateScore.toJson, Json.object.injEq, List.cons.injEq, Prod.mk.injEq,
    Json.string.injEq, true_and, and_true] at h
  rcases h with ⟨rfl, hscore, hoverlap⟩
  rcases f64_inj hc hc' hscore with rfl
  rw [BitVec.eq_of_toNat_eq (Json.ofNat_inj hoverlap)]

theorem toJson_weights_inj {w w' : StrategyWeights F}
    (hw : Floating.isFinite w.kv = true ∧ Floating.isFinite w.load = true ∧
      Floating.isFinite w.topology = true)
    (hw' : Floating.isFinite w'.kv = true ∧ Floating.isFinite w'.load = true ∧
      Floating.isFinite w'.topology = true)
    (h : w.toJson f64 = w'.toJson f64) : w = w' := by
  rcases w with ⟨kv, load, topology⟩
  rcases w' with ⟨kv', load', topology'⟩
  simp only [StrategyWeights.toJson, Json.object.injEq, List.cons.injEq, Prod.mk.injEq,
    true_and, and_true] at h
  rcases h with ⟨hkv, hload, htopology⟩
  rcases f64_inj hw.1 hw'.1 hkv with rfl
  rcases f64_inj hw.2.1 hw'.2.1 hload with rfl
  rcases f64_inj hw.2.2 hw'.2.2 htopology with rfl
  rfl

theorem toJson_outcome_inj : Function.Injective DecisionOutcome.toJson := by
  intro o o' h
  cases o <;> cases o' <;> first | rfl | exact absurd (Json.string.inj h) (by decide)

/-- Lists of values are equal if their texts are, where the values tell themselves apart. -/
theorem map_inj_of_mem {α β : Type} {f : α → β} {P : α → Prop}
    (hf : ∀ a b, P a → P b → f a = f b → a = b) {l m : List α} (hl : ∀ a ∈ l, P a)
    (hm : ∀ a ∈ m, P a) (h : l.map f = m.map f) : l = m := by
  induction l generalizing m with
  | nil => exact (List.map_eq_nil_iff.1 h.symm).symm
  | cons a l ih =>
    cases m with
    | nil => exact nomatch h
    | cons b m =>
      rw [List.map_cons, List.map_cons] at h
      rcases List.cons.inj h with ⟨hab, hlm⟩
      rw [hf a b (hl a List.mem_cons_self) (hm b List.mem_cons_self) hab,
        ih (fun c hc => hl c (List.mem_cons_of_mem _ hc))
          (fun c hc => hm c (List.mem_cons_of_mem _ hc)) hlm]

/-- Weights are equal if both are left out, or both are written alike. -/
theorem weights_inj {e e' : DecisionEvent F} (he : e.Finite) (he' : e'.Finite)
    (h : e.weights.map (StrategyWeights.toJson f64) = e'.weights.map (StrategyWeights.toJson f64)) :
    e.weights = e'.weights := by
  rcases hw : e.weights with _ | w
  · rw [hw, Option.map_none] at h
    exact (Option.map_eq_none_iff.1 h.symm).symm
  · rcases hw' : e'.weights with _ | w'
    · rw [hw, hw'] at h
      exact nomatch h
    · rw [hw, hw', Option.map_some, Option.map_some] at h
      rw [toJson_weights_inj (he.2 w hw) (he'.2 w' hw') (Option.some.inj h)]

/-- The JSON of an event tells the event, if its numbers are finite. -/
theorem toJson_inj {e e' : DecisionEvent F} (he : e.Finite) (he' : e'.Finite)
    (h : e.toJson f64 = e'.toJson f64) : e = e' := by
  have hget (key : String) : (e.toJson f64).get key = (e'.toJson f64).get key := by
    rw [h]
  have hstring : Function.Injective Json.string := fun _ _ hs => Json.string.inj hs
  have hu64 {x y : BitVec 64} (hxy : Json.ofNat x.toNat = Json.ofNat y.toNat) : x = y :=
    BitVec.eq_of_toNat_eq (Json.ofNat_inj hxy)
  have hu32 {x y : BitVec 32} (hxy : Json.ofNat x.toNat = Json.ofNat y.toNat) : x = y :=
    BitVec.eq_of_toNat_eq (Json.ofNat_inj hxy)
  -- one field after the other, by its key
  have hid := hget "event_id"
  have htime := hget "timestamp_unix_ms"
  have hinstance := hget "gateway_instance"
  have hregion := hget "gateway_region"
  have hrequest := hget "request_id"
  have hmodel := hget "model"
  have hsession := hget "session_id"
  have hstrategy := hget "strategy"
  have hweights := hget "weights"
  have hcandidates := hget "candidates"
  have hattempts := hget "attempts"
  have hselected := hget "selected_backend"
  have hoverlap := hget "kv_overlap"
  have hblocks := hget "prompt_blocks"
  have hrouting := hget "routing_latency_us"
  have htotal := hget "total_latency_us"
  have houtcome := hget "outcome"
  simp [toJson, Json.get, List.lookup_cons] at hid htime hinstance hregion hrequest hmodel
  simp [toJson, Json.get, List.lookup_append, List.lookup_cons, Json.lookup_field]
    at hsession hstrategy
  simp [toJson, Json.get, List.lookup_append, List.lookup_cons, Json.lookup_field]
    at hweights hselected
  simp [toJson, Json.get, List.lookup_append, List.lookup_cons, Json.lookup_field] at hcandidates
  simp [toJson, Json.get, List.lookup_append, List.lookup_cons, Json.lookup_field]
    at hattempts hoverlap
  simp [toJson, Json.get, List.lookup_append, List.lookup_cons, Json.lookup_field]
    at hblocks hrouting
  simp [toJson, Json.get, List.lookup_append, List.lookup_cons, Json.lookup_field]
    at htotal houtcome
  have hcandidates' : e.candidates = e'.candidates :=
    map_inj_of_mem (fun _ _ => toJson_candidate_inj) he.1 he'.1 hcandidates
  have hweights' : e.weights = e'.weights := weights_inj he he' hweights
  cases e
  cases e'
  simp only [mk.injEq]
  exact ⟨hid, Json.ofInt_inj htime, hinstance, hregion, hrequest, hmodel,
    Option.map_injective hstring hsession, hstrategy, hweights', hcandidates',
    List.map_injective_iff.2 toJson_attempt_inj hattempts, Option.map_injective hstring hselected,
    hu32 hoverlap, hu32 hblocks, hu64 hrouting, hu64 htotal, toJson_outcome_inj houtcome⟩

/-- So does its text. -/
theorem text_inj {e e' : DecisionEvent F} (he : e.Finite) (he' : e'.Finite)
    (h : e.text f64 = e'.text f64) : e = e' :=
  toJson_inj he he' (Json.compact_inj (wellFormed_toJson f64 e) (wellFormed_toJson f64 e') h)

/-- The first lines of a file of events tell the first events. -/
theorem prefix_of_texts {read events : List (DecisionEvent F)} (h : ∀ e ∈ read, e.Finite)
    (h' : ∀ e ∈ events, e.Finite)
    (hlines : (read.map fun e => Utf8.encode (e.text f64)) <+:
      events.map fun e => Utf8.encode (e.text f64)) : read <+: events := by
  have hlength : read.length ≤ events.length := by simpa using hlines.length_le
  have htake := List.prefix_iff_eq_take.1 hlines
  rw [List.length_map, ← List.map_take] at htake
  have hread : read = events.take read.length := by
    refine map_inj_of_mem (fun a b ha hb hab => text_inj ha hb (Utf8.encode_injective hab)) h ?_
      htake
    intro e he
    exact h' e (List.mem_of_mem_take he)
  exact List.prefix_iff_eq_take.2 hread

end DecisionEvent

/-! ## The file -/

namespace TelemetryState

open DecisionEvent

variable {F : Type} [Floating F] (f64 : FloatText F) {ι : Type} [DecidableEq ι]

/-- What has been added to the file is an initial part of the lines of the events sent to it, and
its complete lines tell the first of them. -/
theorem file_tells (cfg : TelemetryConfig) (opens : String → Bool) (event : ι → DecisionEvent F)
    (before : List UInt8) {s : TelemetryState ι (DecisionEvent F)}
    (hs : (system (buildTelemetry cfg opens) event cfg.bufferSize (line f64) before).Reachable s) :
    ∃ sent : List ι, sent.Nodup ∧
      (∀ i, i ∈ sent ↔ Passed (buildTelemetry cfg opens) s i .ndjsonFile) ∧
      ∃ added, s.contents = before ++ added ∧
        added <+: (sent.map event).flatMap (line f64) ∧
        Records.ended 10 added <+: sent.map (fun i => Utf8.encode ((event i).text f64)) ∧
        Records.ended 10 s.contents = Records.ended 10 before ++
          Records.ended 10 (Records.torn 10 before ++ added) ∧
        (s.disabled = false → s.channel = [] → s.unflushed = [] →
          added = (sent.map event).flatMap (line f64)) ∧
        ((∀ i, (event i).Finite) → ∀ read : List (DecisionEvent F), (∀ e ∈ read, e.Finite) →
          Records.ended 10 added = read.map (fun e => Utf8.encode (e.text f64)) →
          read <+: sent.map event) := by
  rcases arrived_of_reachable (nodup_buildTelemetry cfg opens) hs with ⟨⟨log, lost, h⟩, happended⟩
  rcases (List.prefix_append _ _).trans happended.finished with ⟨added, hcontents⟩
  have hfile : s.file <+: (log .ndjsonFile).map event := by
    rw [h.file, List.append_assoc]
    exact List.prefix_append _ _
  have hadded : added <+: ((log .ndjsonFile).map event).flatMap (line f64) := by
    have hwritten : added <+: s.file.flatMap (line f64) := by
      have hprefix := happended.contents_prefix
      rw [← hcontents] at hprefix
      exact (List.prefix_append_right_inj before).1 hprefix
    exact hwritten.trans (hfile.flatMap _)
  have hended : Records.ended 10 added <+:
      ((log .ndjsonFile).map event).map fun e => Utf8.encode (e.text f64) := by
    rw [← ended_lines]
    exact Records.ended_prefix hadded
  refine ⟨log .ndjsonFile, h.nodup _, h.mem _, added, hcontents.symm, hadded, ?_, ?_, ?_, ?_⟩
  · rw [List.map_map] at hended
    exact hended
  · rw [← hcontents]
    exact Records.ended_append before added
  · intro hopen hempty hdone
    have hall := happended.contents_eq hopen hdone
    rw [← hcontents] at hall
    rw [h.file, h.lost hopen, hempty, List.append_nil, List.append_nil]
    exact List.append_cancel_left hall
  · intro hfinite read hread heq
    refine prefix_of_texts hread ?_ (heq ▸ hended)
    intro e he
    rcases List.mem_map.1 he with ⟨i, -, rfl⟩
    exact hfinite i

/-- Two requests without a candidate. -/
def failedEvent (i : Bool) : DecisionEvent ExtRat where
  eventId := if i then "b" else "a"
  timestampUnixMs := -1
  gatewayInstance := "gw"
  gatewayRegion := "r1"
  requestId := "request\n"
  model := "m"
  sessionId := none
  strategy := "none"
  weights := none
  candidates := []
  attempts := []
  selectedBackend := none
  kvOverlap := 0
  promptBlocks := 0
  routingLatencyUs := 1
  totalLatencyUs := 2
  outcome := .routingFailed

/-- The second request overtakes the first; the file has an older line that was cut. One byte of the
second line is written when the writer fails. -/
theorem file_tells_overtaking :
    let s := (system (buildTelemetry fileConfig fun _ => true) failedEvent 1
      (line FloatText.exact) [123]).run (start 1 [123])
        (overtaking ((failedEvent true).line FloatText.exact).length)
    s.file = [failedEvent true, failedEvent false] ∧
      ∃ sent : List Bool, sent.Nodup ∧ ∃ added, s.contents = [123] ++ added ∧
        Records.ended 10 added <+:
          sent.map fun i => Utf8.encode ((failedEvent i).text FloatText.exact) := by
  have hreach : (system (buildTelemetry fileConfig fun _ => true) failedEvent 1
      (line FloatText.exact) [123]).Reachable
        ((system (buildTelemetry fileConfig fun _ => true) failedEvent 1
          (line FloatText.exact) [123]).run (start 1 [123])
        (overtaking ((failedEvent true).line FloatText.exact).length)) :=
    Lts.Reachable.run (Lts.Reachable.init rfl) (enabled_overtaking failedEvent _ _)
  rcases file_tells FloatText.exact fileConfig (fun _ => true) failedEvent [123] hreach with
    ⟨sent, hnodup, -, added, hcontents, -, hlines, -⟩
  exact ⟨rfl, sent, hnodup, added, hcontents, hlines⟩

end TelemetryState

end HierKvGateway
