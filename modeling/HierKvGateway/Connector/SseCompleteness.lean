import HierKvGateway.Connector.Fragments
import Mathlib.Data.List.Flatten

/-!
# Connector.SseCompleteness — what of an answer arrives

An event of the stream may have several choices, and each of them text, tool calls and a finish
reason. `SseParser` sends one chunk for an event, and reads lines that are ended only.

`delivers_iff`: everything arrives as long as each event has one thing to send, and the last line is
ended or has none.
-/

namespace List

variable {α β : Type*} {f g : α → List β} {l : List α}

/-- Parts of lists, put together, are the whole only if each of them is. -/
theorem flatMap_eq_append_iff_of_sublist (rest : List β) (h : ∀ a ∈ l, (f a).Sublist (g a)) :
    l.flatMap f = l.flatMap g ++ rest ↔ (∀ a ∈ l, f a = g a) ∧ rest = [] := by
  induction l with
  | nil => simp [eq_comm]
  | cons a l ih =>
    obtain ⟨ha, hl⟩ := forall_mem_cons.1 h
    rw [flatMap_cons, flatMap_cons, forall_mem_cons, and_assoc, ← ih hl, append_assoc]
    constructor
    · intro heq
      have hlen := congrArg length heq
      rw [length_append, length_append, length_append] at hlen
      have hrest := (Sublist.flatMap_right l hl).length_le
      have hfirst : f a = g a := ha.eq_of_length_le (by omega)
      rw [hfirst] at heq
      exact ⟨hfirst, append_cancel_left heq⟩
    · rintro ⟨hfirst, hrest⟩
      rw [hfirst, hrest]

end List

namespace HierKvGateway

/-! ## What is to be sent -/

/-- Something that is to be sent. -/
inductive Payload where
  | content (text : String)
  | toolCall (id function args : String)
  | finishReason (reason : String)
deriving DecidableEq, Repr

/-- A tool call that has an id and a function. -/
def ToolCallDelta.payload (tc : ToolCallDelta) : Option Payload :=
  match tc.id, tc.function with
  | some id, some func => some (.toolCall id (func.name.getD "") (func.arguments.getD ""))
  | _, _ => none

/-- A text that is not empty. -/
def contentPayloads (text : String) : List Payload := if text = "" then [] else [.content text]

namespace Choice

/-- The text of a choice. -/
def contents (c : Choice) : List Payload := c.delta.content.elim [] contentPayloads

/-- The tool calls of a choice. -/
def calls (c : Choice) : List Payload := c.delta.toolCalls.filterMap ToolCallDelta.payload

/-- The finish reason of a choice. -/
def finishes (c : Choice) : List Payload := c.finishReason.toList.map .finishReason

/-- What is to be sent of a choice. -/
def payloads (c : Choice) : List Payload := c.contents ++ c.calls ++ c.finishes

/-- A choice with one tool call and nothing else, or without any. A finish reason does not come
with an empty text. -/
def Single (c : Choice) : Prop :=
  c.calls = [] ∧ (c.finishReason ≠ none → c.delta.content ≠ some "") ∨
    c.calls.length = 1 ∧ c.contents = [] ∧ c.finishReason = none

end Choice

namespace ChatCompletionChunk

/-- What is to be sent of an event. -/
def payloads (e : ChatCompletionChunk) : List Payload := e.choices.flatMap Choice.payloads

/-- One choice at most has anything to send, and that is one thing. -/
def Single (e : ChatCompletionChunk) : Prop :=
  (e.choices.filter fun c => c.payloads ≠ []).length ≤ 1 ∧ ∀ c ∈ e.choices, c.Single

end ChatCompletionChunk

/-- What is sent with a chunk. -/
def InferenceChunk.payloads : InferenceChunk → List Payload
  | .delta text finishReason => contentPayloads text ++ finishReason.toList.map .finishReason
  | .toolCall id function args => [.toolCall id function args]
  | .done _ _ => []
  | .error _ _ => []

/-- What is sent with a chunk, if there is one. -/
def sent (chunk : Option InferenceChunk) : List Payload := chunk.elim [] InferenceChunk.payloads

/-! ## One event -/

theorem sent_findSome (calls : List ToolCallDelta) :
    sent (calls.findSome? ToolCallDelta.chunk) =
      (calls.filterMap ToolCallDelta.payload).take 1 := by
  induction calls with
  | nil => rfl
  | cons tc calls ih =>
    rw [List.findSome?_cons, List.filterMap_cons]
    unfold ToolCallDelta.chunk ToolCallDelta.payload at ih ⊢
    cases tc.id with
    | none => exact ih
    | some id =>
      cases tc.function with
      | none => exact ih
      | some func => rfl

theorem findSome_eq_none_iff (calls : List ToolCallDelta) :
    calls.findSome? ToolCallDelta.chunk = none ↔
      calls.filterMap ToolCallDelta.payload = [] := by
  rw [List.findSome?_eq_none_iff, List.filterMap_eq_nil_iff]
  refine forall₂_congr fun tc _ => ?_
  unfold ToolCallDelta.chunk ToolCallDelta.payload
  cases tc.id with
  | none => exact iff_of_true rfl rfl
  | some id =>
    cases tc.function with
    | none => exact iff_of_true rfl rfl
    | some func => simp

namespace Choice

variable {c : Choice}

/-- A choice with tool calls sends the first. -/
theorem sent_of_calls (h : c.calls ≠ []) : sent c.chunk = c.calls.take 1 := by
  have hsome : c.delta.toolCalls.findSome? ToolCallDelta.chunk ≠ none :=
    fun hnone => h ((findSome_eq_none_iff _).1 hnone)
  obtain ⟨call, hcall⟩ := Option.ne_none_iff_exists'.1 hsome
  have hsent := sent_findSome c.delta.toolCalls
  unfold chunk
  rw [hcall] at hsent ⊢
  exact hsent

/-- A choice without tool calls sends its text and its finish reason, but this not with an empty
text. -/
theorem sent_of_no_calls (h : c.calls = []) :
    sent c.chunk =
      if c.delta.content = some "" then [] else c.contents ++ c.finishes := by
  have hnone := (findSome_eq_none_iff _).2 h
  unfold chunk contents finishes
  rw [hnone]
  cases c.delta.content with
  | none =>
    cases c.finishReason with
    | none => rfl
    | some reason => rfl
  | some text =>
    dsimp only
    by_cases htext : text = ""
    · rw [if_pos htext, if_pos (congrArg some htext)]
      rfl
    · rw [if_neg htext, if_neg (fun heq => htext (Option.some.inj heq))]
      rfl

theorem finishes_eq_nil_iff : c.finishes = [] ↔ c.finishReason = none := by
  unfold finishes
  cases c.finishReason with
  | none => exact iff_of_true rfl rfl
  | some reason => simp

theorem contents_of_empty (h : c.delta.content = some "") : c.contents = [] := by
  unfold contents
  rw [h]
  rfl

/-- What is sent of a choice is part of what is to be sent. -/
theorem sent_sublist (c : Choice) : (sent c.chunk).Sublist c.payloads := by
  unfold payloads
  by_cases hcalls : c.calls = []
  · rw [sent_of_no_calls hcalls, hcalls, List.append_nil]
    split
    · exact List.nil_sublist _
    · exact List.Sublist.refl _
  · rw [sent_of_calls hcalls]
    refine List.Sublist.trans ?_ (List.sublist_append_left _ _)
    exact (List.take_sublist 1 c.calls).trans (List.sublist_append_right _ _)

/-- All of a choice is sent exactly if it is one thing. -/
theorem sent_eq_payloads_iff (c : Choice) : sent c.chunk = c.payloads ↔ c.Single := by
  unfold payloads Single
  by_cases hcalls : c.calls = []
  · have hlen : ¬c.calls.length = 1 := by simp [hcalls]
    rw [sent_of_no_calls hcalls, hcalls, List.append_nil]
    by_cases hempty : c.delta.content = some ""
    · rw [if_pos hempty, contents_of_empty hempty, List.nil_append, eq_comm, finishes_eq_nil_iff]
      simp [hempty]
    · simp [hempty]
  · rw [sent_of_calls hcalls]
    obtain ⟨p, ps, hps⟩ := List.exists_cons_of_ne_nil hcalls
    constructor
    · intro heq
      have hlength := congrArg List.length heq
      rw [hps] at hlength ⊢
      simp only [List.take_succ_cons, List.take_zero, List.length_append, List.length_cons,
        List.length_nil] at hlength
      refine Or.inr ⟨?_, List.eq_nil_of_length_eq_zero (by omega), ?_⟩
      · rw [List.length_cons]
        omega
      · exact finishes_eq_nil_iff.1 (List.eq_nil_of_length_eq_zero (by omega))
    · rintro (⟨hnil, -⟩ | ⟨hone, hcontents, hfinish⟩)
      · exact absurd hnil hcalls
      · rw [hcontents, finishes_eq_nil_iff.2 hfinish, List.nil_append, List.append_nil]
        exact List.take_of_length_le hone.le

/-- A chunk has something in it. -/
theorem sent_eq_nil_iff (c : Choice) : sent c.chunk = [] ↔ c.chunk = none := by
  constructor
  · intro hnil
    by_cases hcalls : c.calls = []
    · have hnone := (findSome_eq_none_iff _).2 hcalls
      rw [sent_of_no_calls hcalls] at hnil
      unfold chunk
      unfold contents at hnil
      rw [hnone]
      cases hcontent : c.delta.content with
      | none =>
        rw [hcontent, if_neg (by simp), List.append_eq_nil_iff, finishes_eq_nil_iff] at hnil
        rw [hnil.2]
        rfl
      | some text =>
        dsimp only
        by_cases htext : text = ""
        · rw [if_pos htext]
        · rw [hcontent, if_neg (by simpa using htext), List.append_eq_nil_iff] at hnil
          exact absurd hnil.1 (by simp [contentPayloads, htext])
    · obtain ⟨p, ps, hps⟩ := List.exists_cons_of_ne_nil hcalls
      rw [sent_of_calls hcalls, hps] at hnil
      exact absurd hnil (List.cons_ne_nil p _)
  · intro hnone
    rw [hnone]
    rfl

/-- A choice that has nothing to send is no trouble. -/
theorem single_of_payloads_eq_nil (h : c.payloads = []) : c.Single := by
  rw [← sent_eq_payloads_iff, h]
  have hsub := c.sent_sublist
  rw [h] at hsub
  exact List.sublist_nil.1 hsub

end Choice

namespace ChatCompletionChunk

/-- The first choice has nothing to send. -/
theorem filter_cons_of_nil {c : Choice} (h : c.payloads = []) (choices : List Choice) :
    (c :: choices).filter (fun c => c.payloads ≠ []) =
      choices.filter fun c => c.payloads ≠ [] :=
  List.filter_cons_of_neg (by simp [h])

/-- The first choice has something to send, and no other one has. -/
theorem length_filter_cons_le_one {c : Choice} (h : c.payloads ≠ []) (choices : List Choice) :
    ((c :: choices).filter fun c => c.payloads ≠ []).length ≤ 1 ↔
      choices.flatMap Choice.payloads = [] := by
  rw [List.filter_cons_of_pos (by simpa using h), List.length_cons]
  show _ + 1 ≤ 0 + 1 ↔ _
  rw [Nat.add_le_add_iff_right, Nat.le_zero, List.length_eq_zero_iff, List.filter_eq_nil_iff,
    List.flatMap_eq_nil_iff]
  simp

/-- What is sent of an event is part of what is to be sent, and all of it exactly if it is one
thing. -/
theorem sent_choices (choices : List Choice) :
    (sent (choices.findSome? Choice.chunk)).Sublist (choices.flatMap Choice.payloads) ∧
      (sent (choices.findSome? Choice.chunk) = choices.flatMap Choice.payloads ↔
        (choices.filter fun c => c.payloads ≠ []).length ≤ 1 ∧ ∀ c ∈ choices, c.Single) := by
  induction choices with
  | nil => exact ⟨List.Sublist.slnil, iff_of_true rfl ⟨Nat.zero_le 1, nofun⟩⟩
  | cons c choices ih =>
    obtain ⟨hsub, hiff⟩ := ih
    have hc := c.sent_sublist
    have hnil := c.sent_eq_nil_iff
    rw [List.findSome?_cons, List.flatMap_cons, List.forall_mem_cons, ← c.sent_eq_payloads_iff]
    cases hchunk : c.chunk with
    | none =>
      -- nothing is sent of the first choice
      refine ⟨hsub.trans (List.sublist_append_right _ _), ?_⟩
      by_cases hpayloads : c.payloads = []
      · rw [hpayloads, List.nil_append, filter_cons_of_nil hpayloads]
        exact hiff.trans (and_congr_right fun _ => (and_iff_right rfl).symm)
      · refine iff_of_false (fun heq => ?_) fun hsingle => hpayloads hsingle.2.1.symm
        have hlength := congrArg List.length heq
        have hpos := List.length_pos_of_ne_nil hpayloads
        have hle := hsub.length_le
        rw [List.length_append] at hlength
        dsimp only at hlength
        omega
    | some chunk =>
      rw [hchunk] at hc hnil
      have hpayloads : c.payloads ≠ [] := by
        intro hempty
        rw [hempty] at hc
        exact absurd (hnil.1 (List.sublist_nil.1 hc)) (Option.some_ne_none chunk)
      refine ⟨hc.trans (List.sublist_append_left _ _), ?_⟩
      rw [length_filter_cons_le_one hpayloads]
      dsimp only
      constructor
      · intro heq
        have hlength := congrArg List.length heq
        have hle := hc.length_le
        rw [List.length_append] at hlength
        have hrest : choices.flatMap Choice.payloads = [] :=
          List.eq_nil_of_length_eq_zero (by omega)
        refine ⟨hrest, hc.eq_of_length_le (by omega), fun c' hc' => ?_⟩
        exact Choice.single_of_payloads_eq_nil (List.flatMap_eq_nil_iff.1 hrest c' hc')
      · rintro ⟨hrest, hfirst, -⟩
        rw [hrest, List.append_nil]
        exact hfirst

end ChatCompletionChunk

/-! ## The lines of a stream -/

/-- A line that is sent: an event as the data of a line, or anything else, such as an empty line. -/
inductive StreamLine where
  | event (text : List Char) (e : ChatCompletionChunk)
  | other (line : List Char)

namespace StreamLine

/-- The line, without its end. -/
def line : StreamLine → List Char
  | event text _ => "data: ".toList ++ text
  | other line => line

/-- The data is the JSON of the event, as `serde_json` reads it. The line may end in carriage
returns. -/
def WellFormed (fromStr : String → Option ChatCompletionChunk) : StreamLine → Prop
  | event text e =>
    '\n' ∉ text ∧ Text.trim (Text.trimEndMatches '\r' text) ≠ "[DONE]".toList ∧
      fromStr (String.ofList (Text.trimEndMatches '\r' text)) = some e
  | other line => '\n' ∉ line ∧ ¬"data: ".toList <+: line

/-- What is to be sent of a line. -/
def payloads : StreamLine → List Payload
  | event _ e => e.payloads
  | other _ => []

/-- The chunk of a line. -/
def chunk : StreamLine → Option InferenceChunk
  | event _ e => e.chunk
  | other _ => none

/-- What is to be sent of a line is one thing. -/
def Single : StreamLine → Prop
  | event _ e => e.Single
  | other _ => True

theorem sent_sublist (l : StreamLine) : (sent l.chunk).Sublist l.payloads := by
  cases l with
  | event text e => exact (ChatCompletionChunk.sent_choices e.choices).1
  | other line => exact List.Sublist.slnil

theorem sent_eq_payloads_iff (l : StreamLine) : sent l.chunk = l.payloads ↔ l.Single := by
  cases l with
  | event text e => exact (ChatCompletionChunk.sent_choices e.choices).2
  | other line => exact iff_of_true rfl trivial

variable {fromStr : String → Option ChatCompletionChunk} {l : StreamLine}

theorem notMem_line (h : l.WellFormed fromStr) : '\n' ∉ l.line := by
  cases l with
  | event text e =>
    intro hmem
    rcases List.mem_append.1 hmem with hmem | hmem
    · exact absurd hmem (by decide)
    · exact h.1 hmem
  | other line => exact h.1

theorem sseLine_data {text : List Char}
    (h : Text.trim (Text.trimEndMatches '\r' text) ≠ "[DONE]".toList) :
    sseLine ("data: ".toList ++ text) = .data (Text.trimEndMatches '\r' text) := by
  unfold sseLine
  rw [Text.trimEndMatches_append (by decide), Text.stripPrefix_append]
  exact if_neg h

theorem sseLine_other {line : List Char} (h : ¬"data: ".toList <+: line) :
    sseLine line = .ignored := by
  have hnone : Text.stripPrefix "data: ".toList (Text.trimEndMatches '\r' line) = none := by
    by_contra hsome
    obtain ⟨rest, hrest⟩ := Option.ne_none_iff_exists'.1 hsome
    have heq := Text.eq_append_of_stripPrefix hrest
    have htrimmed : Text.trimEndMatches '\r' line <+: line := List.rdropWhile_prefix _ _
    exact h (List.IsPrefix.trans ⟨rest, heq.symm⟩ htrimmed)
  unfold sseLine
  rw [hnone]

/-- A line yields the chunk of its event, and the parser stays as it is. -/
theorem handleLine_line (h : l.WellFormed fromStr) (elapsed : Duration) (backendId : BackendId) :
    SseParser.handleLine fromStr elapsed backendId l.line = (l.chunk, backendId) := by
  unfold SseParser.handleLine line
  cases l with
  | event text e =>
    obtain ⟨-, hmark, hparse⟩ := h
    dsimp only
    rw [sseLine_data hmark]
    dsimp only
    rw [hparse]
    rfl
  | other line =>
    dsimp only
    rw [sseLine_other h.2]
    rfl

end StreamLine

/-- The data of an end line, which may end in carriage returns. -/
def EndMark (mark : List Char) : Prop :=
  '\n' ∉ mark ∧ Text.trim (Text.trimEndMatches '\r' mark) = "[DONE]".toList

instance (mark : List Char) : Decidable (EndMark mark) :=
  inferInstanceAs (Decidable ('\n' ∉ mark ∧ _))

/-- How a stream ends: after a line, with `[DONE]`, or in a line that is not ended. -/
inductive StreamEnd where
  | newline
  | done (mark more : List Char)
  | cut (last : StreamLine)
  | cutDone (mark : List Char)

namespace StreamEnd

/-- The text after the whole lines. -/
def text : StreamEnd → List Char
  | newline => []
  | done mark more => "data: ".toList ++ mark ++ '\n' :: more
  | cut last => last.line
  | cutDone mark => "data: ".toList ++ mark

def WellFormed (fromStr : String → Option ChatCompletionChunk) : StreamEnd → Prop
  | newline => True
  | cut last => last.WellFormed fromStr
  | done mark _ | cutDone mark => EndMark mark

/-- What is to be sent of a line that is not ended. -/
def payloads : StreamEnd → List Payload
  | cut last => last.payloads
  | newline | done _ _ | cutDone _ => []

end StreamEnd

/-- The text of a stream. -/
def streamText (lines : List StreamLine) (ending : StreamEnd) : List Char :=
  Lines.unlines '\n' (lines.map StreamLine.line) ++ ending.text

/-- What arrives before the first end chunk are these payloads. -/
def Delivers (items : Nat → Option InferenceChunk) (payloads : List Payload) : Prop :=
  ∃ n, (items n).any InferenceChunk.isDone = true ∧
    (beforeDone InferenceChunk.isDone items n).flatMap sent = payloads

/-! ## What arrives -/

/-- The items before the first end chunk, if that comes after these chunks. -/
theorem beforeDone_eq {items : Nat → Option InferenceChunk} {chunks : List InferenceChunk}
    (hitems : ∀ k (hk : k < chunks.length), items k = some chunks[k])
    (hnot : ∀ chunk ∈ chunks, chunk.isDone = false)
    (hdone : (items chunks.length).any InferenceChunk.isDone = true) {n : Nat}
    (hn : chunks.length ≤ n) :
    beforeDone InferenceChunk.isDone items n = chunks.map some := by
  have hfirst : (List.range chunks.length).map items = chunks.map some := by
    apply List.ext_getElem
    · simp
    · intro k hk _
      simp only [List.length_map, List.length_range] at hk
      simp [hitems k hk]
  have hpos : ∀ item ∈ chunks.map some, (!item.any InferenceChunk.isDone) = true := by
    intro item hitem
    obtain ⟨chunk, hchunk, rfl⟩ := List.mem_map.1 hitem
    simp [hnot chunk hchunk]
  obtain ⟨d, rfl⟩ := Nat.exists_eq_add_of_le hn
  unfold beforeDone
  rw [List.range_add, List.map_append, hfirst, List.takeWhile_append_of_pos hpos]
  cases d with
  | zero => exact List.append_nil _
  | succ d =>
    rw [List.range_succ_eq_map, List.map_cons, List.map_cons, Nat.add_zero,
      List.takeWhile_cons_of_neg (by simp [hdone]), List.append_nil]

/-- What arrives is what is sent with the chunks before the first end chunk. -/
theorem delivers_iff_of_items {items : Nat → Option InferenceChunk} {chunks : List InferenceChunk}
    (hitems : ∀ k (hk : k < chunks.length), items k = some chunks[k])
    (hnot : ∀ chunk ∈ chunks, chunk.isDone = false)
    (hdone : (items chunks.length).any InferenceChunk.isDone = true) (payloads : List Payload) :
    Delivers items payloads ↔ chunks.flatMap InferenceChunk.payloads = payloads := by
  have hsent : (chunks.map some).flatMap sent = chunks.flatMap InferenceChunk.payloads := by
    rw [List.flatMap_map]
    rfl
  constructor
  · rintro ⟨n, hn, heq⟩
    have hle : chunks.length ≤ n := by
      by_contra hlt
      rw [hitems n (Nat.not_le.1 hlt), Option.any_some,
        hnot _ (List.getElem_mem (Nat.not_le.1 hlt))] at hn
      exact absurd hn Bool.false_ne_true
    rw [beforeDone_eq hitems hnot hdone hle, hsent] at heq
    exact heq
  · intro heq
    refine ⟨chunks.length, hdone, ?_⟩
    rw [beforeDone_eq hitems hnot hdone le_rfl, hsent, heq]

section Stream

variable {fromStr : String → Option ChatCompletionChunk} {lines : List StreamLine}
variable {ending : StreamEnd}

theorem isDone_chunk {l : StreamLine} {chunk : InferenceChunk} (h : l.chunk = some chunk) :
    chunk.isDone = false := by
  cases l with
  | other line => exact absurd h.symm (Option.some_ne_none chunk)
  | event text e =>
    obtain ⟨c, -, hc⟩ := List.exists_of_findSome?_eq_some h
    have hne : sent c.chunk ≠ [] := by
      rw [Ne, c.sent_eq_nil_iff, hc]
      exact Option.some_ne_none chunk
    rw [hc] at hne
    cases chunk with
    | done backendId latencyMs => exact absurd rfl hne
    | delta text finishReason => rfl
    | toolCall id function args => rfl
    | error code message => rfl

/-- Text without an ended line ends the stream. -/
theorem finish_of_notMem {text : List Char} (h : '\n' ∉ text) (elapsed : Duration)
    (backendId : BackendId) :
    (SseParser.finish fromStr elapsed backendId text).1 = some (doneChunk elapsed backendId) := by
  unfold SseParser.finish SseParser.tryParse
  rw [Lines.next_of_notMem h]
  split
  · rfl
  · rfl

theorem notMem_endLine {mark : List Char} (h : EndMark mark) :
    '\n' ∉ "data: ".toList ++ mark := by
  intro hmem
  rcases List.mem_append.1 hmem with hmem | hmem
  · exact absurd hmem (by decide)
  · exact h.1 hmem

theorem sseLine_endLine {mark : List Char} (h : EndMark mark) :
    sseLine ("data: ".toList ++ mark) = .done := by
  unfold sseLine
  rw [Text.trimEndMatches_append (by decide), Text.stripPrefix_append]
  exact if_pos h.2

theorem notMem_text (h : ending.WellFormed fromStr)
    (hdone : ∀ mark more, ending ≠ .done mark more) : '\n' ∉ ending.text := by
  cases ending with
  | newline => exact List.not_mem_nil
  | done mark more => exact absurd rfl (hdone mark more)
  | cut last => exact StreamLine.notMem_line h
  | cutDone mark => exact notMem_endLine h

/-- After the whole lines comes an end chunk. -/
theorem whole_ending (h : ending.WellFormed fromStr) (elapsed : Duration)
    (backendId : BackendId) :
    (Lines.whole (SseParser.format fromStr) elapsed (backendId, ending.text)).1 =
      some (doneChunk elapsed backendId) := by
  by_cases hdone : ∃ mark more, ending = .done mark more
  · obtain ⟨mark, more, rfl⟩ := hdone
    have hhandle : SseParser.handleLine fromStr elapsed backendId ("data: ".toList ++ mark) =
        (some (doneChunk elapsed backendId), backendId) := by
      unfold SseParser.handleLine
      rw [sseLine_endLine h]
    have hline := Lines.whole_line (F := SseParser.format fromStr) (i := elapsed) rfl
      (notMem_endLine h) hhandle more
    exact congrArg Prod.fst hline
  · have hnotMem := notMem_text h fun mark more heq => hdone ⟨mark, more, heq⟩
    rw [Lines.whole_of_notMem (F := SseParser.format fromStr) rfl hnotMem]
    exact finish_of_notMem hnotMem elapsed backendId

theorem payloads_filterMap_chunk (lines : List StreamLine) :
    (lines.filterMap StreamLine.chunk).flatMap InferenceChunk.payloads =
      lines.flatMap fun l => sent l.chunk := by
  induction lines with
  | nil => rfl
  | cons l lines ih =>
    rw [List.flatMap_cons, ← ih]
    cases hl : l.chunk with
    | none =>
      rw [List.filterMap_cons_none hl]
      rfl
    | some chunk =>
      rw [List.filterMap_cons_some hl, List.flatMap_cons]
      rfl

/-- What arrives of a stream is what is sent of its whole lines. -/
theorem delivers_iff_sent (hlines : ∀ l ∈ lines, l.WellFormed fromStr)
    (hending : ending.WellFormed fromStr) {fragments : List (List UInt8)}
    (htext : fragments.flatMap Utf8.lossy = streamText lines ending) (backendId : BackendId)
    (elapsed : Nat → Duration) (payloads : List Payload) :
    Delivers (SseParser.items fromStr backendId elapsed fragments) payloads ↔
      (lines.flatMap fun l => sent l.chunk) = payloads := by
  let f : List Char → Option InferenceChunk := fun line =>
    (SseParser.handleLine fromStr (elapsed 0) backendId line).1
  have hsteady : Lines.Steady (SseParser.format fromStr) backendId f
      (lines.map StreamLine.line) := by
    constructor
    · intro line hline
      obtain ⟨l, hl, rfl⟩ := List.mem_map.1 hline
      exact StreamLine.notMem_line (hlines l hl)
    · intro i line hline
      obtain ⟨l, hl, rfl⟩ := List.mem_map.1 hline
      have hchunk := fun i => StreamLine.handleLine_line (hlines l hl) i backendId
      show SseParser.handleLine fromStr i backendId l.line = (f l.line, backendId)
      rw [hchunk, show f l.line = l.chunk from congrArg Prod.fst (hchunk _)]
  have hchunks : (lines.map StreamLine.line).filterMap f = lines.filterMap StreamLine.chunk := by
    rw [List.filterMap_map]
    refine List.filterMap_congr fun l hl => ?_
    exact congrArg Prod.fst (StreamLine.handleLine_line (hlines l hl) _ backendId)
  -- the parser yields what the reader of the whole text does
  have hwhole : ∀ n, SseParser.items fromStr backendId elapsed fragments n =
      Polling.item (Lines.whole (SseParser.format fromStr)) elapsed
        (backendId, streamText lines ending) n := by
    intro n
    have habs := abs_okStream (SseParser.format fromStr) fragments backendId
    rw [show fragments.flatMap (SseParser.format fromStr).decode = _ from htext] at habs
    rw [← habs]
    exact Polling.item_abs (I := fun r => Lines.ErrorFree r.inner)
      (fun i r hr => (Lines.poll_whole hr i).1) (fun i r hr => (Lines.poll_whole hr i).2)
      (errorFree_okStream fragments) n
  obtain ⟨hitems, hend⟩ := Lines.item_unlines (fun _ => rfl) hsteady elapsed ending.text
  rw [hchunks] at hend
  rw [← payloads_filterMap_chunk]
  refine delivers_iff_of_items ?_ ?_ ?_ payloads
  · intro k hk
    rw [hwhole]
    simp only [← hchunks] at hk ⊢
    exact hitems k hk
  · intro chunk hchunk
    obtain ⟨l, -, hl⟩ := List.mem_filterMap.1 hchunk
    exact isDone_chunk hl
  · rw [hwhole]
    refine (congrArg (fun o => o.any InferenceChunk.isDone) hend).trans ?_
    rw [whole_ending hending]
    rfl

end Stream

/-- Everything arrives exactly if each event has one thing to send at most, and a last line that is
not ended has nothing. -/
theorem delivers_iff (fromStr : String → Option ChatCompletionChunk) (lines : List StreamLine)
    (ending : StreamEnd) (fragments : List (List UInt8)) (backendId : BackendId)
    (elapsed : Nat → Duration) (hlines : ∀ l ∈ lines, l.WellFormed fromStr)
    (hending : ending.WellFormed fromStr)
    (htext : fragments.flatMap Utf8.lossy = streamText lines ending) :
    Delivers (SseParser.items fromStr backendId elapsed fragments)
        (lines.flatMap StreamLine.payloads ++ ending.payloads) ↔
      (∀ l ∈ lines, l.Single) ∧ ending.payloads = [] := by
  rw [delivers_iff_sent hlines hending htext,
    List.flatMap_eq_append_iff_of_sublist _ fun l _ => l.sent_sublist]
  exact and_congr_left fun _ => forall₂_congr fun l _ => l.sent_eq_payloads_iff

/-- A whole text in one fragment. -/
theorem lossy_singleton (text : List Char) : [Utf8.encode text].flatMap Utf8.lossy = text := by
  rw [List.flatMap_singleton, Utf8.lossy_encode]

/-- An event with a text, as it is sent. -/
def cafeLine : StreamLine :=
  .event "\x7b\"choices\":[\x7b\"delta\":\x7b\"content\":\"café\"\x7d\x7d]\x7d".toList
    ⟨[⟨⟨some "café", []⟩, none⟩]⟩

theorem wellFormed_cafeLine : cafeLine.WellFormed contentOf := by
  refine ⟨by decide, by decide, by decide +kernel⟩

/-- The text arrives before the end of the stream. -/
theorem delivers_cafe :
    Delivers (SseParser.items contentOf ⟨⟨"eu"⟩, ⟨"a"⟩⟩ (fun _ => .fromSecs 1)
      [Utf8.encode (streamText [cafeLine, .other []] (.done "[DONE]\r".toList []))])
      [.content "café"] := by
  refine (delivers_iff contentOf [cafeLine, .other []] (.done "[DONE]\r".toList []) _
    ⟨⟨"eu"⟩, ⟨"a"⟩⟩ (fun _ => .fromSecs 1) ?_ ?_ (lossy_singleton _)).2 ⟨?_, rfl⟩
  · intro l hl
    rcases List.mem_cons.1 hl with rfl | hl
    · exact wellFormed_cafeLine
    · rw [List.mem_singleton.1 hl]
      exact ⟨List.not_mem_nil, by decide⟩
  · exact (by decide : EndMark "[DONE]\r".toList)
  · intro l hl
    rcases List.mem_cons.1 hl with rfl | hl
    · refine ⟨by decide, fun c hc => ?_⟩
      rw [List.mem_singleton.1 hc]
      exact Or.inl ⟨rfl, fun h => absurd rfl h⟩
    · rw [List.mem_singleton.1 hl]
      trivial

/-- An event with two choices, as it is sent. -/
def twoChoices : String :=
  "\x7b\"choices\":[\x7b\"delta\":\x7b\"content\":\"a\"\x7d\x7d," ++
    "\x7b\"delta\":\x7b\"content\":\"b\"\x7d\x7d]\x7d"

def twoChoicesEvent : ChatCompletionChunk := ⟨[⟨⟨some "a", []⟩, none⟩, ⟨⟨some "b", []⟩, none⟩]⟩

/-- Reads this event. -/
def twoChoicesOf (text : String) : Option ChatCompletionChunk :=
  if text = twoChoices then some twoChoicesEvent else none

/-- The second choice is dropped, and so is a last line that is not ended. -/
theorem payloads_lost :
    ¬Delivers (SseParser.items twoChoicesOf ⟨⟨"eu"⟩, ⟨"a"⟩⟩ (fun _ => .fromSecs 1)
        [Utf8.encode (streamText [.event twoChoices.toList twoChoicesEvent] .newline)])
        [.content "a", .content "b"] ∧
      ¬Delivers (SseParser.items contentOf ⟨⟨"eu"⟩, ⟨"a"⟩⟩ (fun _ => .fromSecs 1)
        [Utf8.encode (streamText [] (.cut cafeLine))]) [.content "café"] := by
  have hlines : ∀ l ∈ [StreamLine.event twoChoices.toList twoChoicesEvent],
      l.WellFormed twoChoicesOf := by
    intro l hl
    rw [List.mem_singleton.1 hl]
    exact ⟨by decide, by decide, by decide +kernel⟩
  have hnewline : StreamEnd.newline.WellFormed twoChoicesOf := trivial
  have hcut : (StreamEnd.cut cafeLine).WellFormed contentOf := wellFormed_cafeLine
  constructor
  · rw [delivers_iff_sent hlines hnewline (lossy_singleton _)]
    decide
  · rw [delivers_iff_sent (by simp) hcut (lossy_singleton _)]
    decide

end HierKvGateway
