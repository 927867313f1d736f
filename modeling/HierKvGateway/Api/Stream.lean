import HierKvGateway.Api.OpenaiTypes
import Mathlib.Algebra.GroupWithZero.Nat

/-!
# Api.Stream — an answer as a stream and as a whole

The chunks of a connector are sent one by one as server-sent events (`build_sse_response`), or put
together into one answer (`aggregate_chunk_stream`).

The two never agree (`SseEvent.not_agrees`): the stream closes with a finish reason of its own, in
addition to those of the chunks. Its text is that of the answer unless a delta carries both text
and a finish reason (`SseEvent.content_agrees_iff`).
-/

namespace HierKvGateway

/-! ## The stream -/

/-- The data of a server-sent event: a chunk in JSON, or `[DONE]`. -/
inductive SseEvent where
  | chunk (c : OpenAIChatChunk)
  | done
deriving DecidableEq, Repr

/-- `chunk_to_openai`. -/
def chunkToOpenai (created : Int) (rid model : String) : InferenceChunk → OpenAIChatChunk
  -- a finish reason is sent instead of the text
  | .delta _ (some reason) => .finishChunk created rid model reason
  | .delta text none => .deltaChunk created rid model text
  | .toolCall _ _ _ => .deltaChunk created rid model ""
  | .done _ _ => .finishChunk created rid model "stop"
  | .error _ _ => .finishChunk created rid model "error"

/-- The events of `build_sse_response`; `clock i` is the time the `i`th of them is made. -/
def sseEvents (clock : Nat → Int) (rid model : String) (chunks : List InferenceChunk) :
    List SseEvent :=
  let first := OpenAIChatChunk.roleChunk (clock 0) rid model
  let mapped := chunks.mapIdx fun i chunk => chunkToOpenai (clock (i + 1)) rid model chunk
  let finish := OpenAIChatChunk.finishChunk (clock (chunks.length + 1)) rid model "stop"
  (first :: mapped ++ [finish]).map SseEvent.chunk ++ [SseEvent.done]

/-! ## The whole -/

/-- `approx_token_count`: a CJK character counts one, four others count one. -/
def approxTokenCount (text : String) : Nat :=
  let cjk := text.toList.countP fun ch => 0x4E00 ≤ ch.val ∧ ch.val ≤ 0x9FFF
  let other := text.toList.length - cjk
  cjk + (other + 3) / 4

/-- What has been put together so far. -/
structure Aggregate where
  content : String
  finishReason : Option String
  completionTokens : Nat
deriving DecidableEq, Repr

/-- A delta is put at the end. -/
def Aggregate.push (text : String) (fr : Option String) (a : Aggregate) : Aggregate :=
  let a :=
    if text ≠ "" then
      { a with
        content := a.content ++ text, completionTokens := a.completionTokens + approxTokenCount text }
    else a
  { a with finishReason := fr.or a.finishReason }

/-- The loop of `aggregate_chunk_stream`; it stops at the end chunk and at an error. -/
def aggregateLoop : List InferenceChunk → Aggregate → Except (BitVec 16 × String) Aggregate
  | [], a => .ok a
  | .delta text fr :: chunks, a => aggregateLoop chunks (a.push text fr)
  | .toolCall _ _ _ :: chunks, a => aggregateLoop chunks a
  | .done _ _ :: _, a => .ok { a with finishReason := a.finishReason.or (some "stop") }
  | .error code message :: _, _ => .error (code, message)

/-- `aggregate_chunk_stream`. -/
def aggregateChunkStream {F : Type} (created : Int) (chunks : List InferenceChunk)
    (requestId model : String) (inference : InferenceRequest F) :
    Except (BitVec 16 × String) OpenAIChatResponse :=
  match aggregateLoop chunks ⟨"", none, 0⟩ with
  | .error e => .error e
  | .ok a =>
    let promptChars := (inference.messages.map (·.content.length)).sum
    .ok (.fromText created requestId model a.content a.finishReason ((promptChars + 3) / 4)
      a.completionTokens)

/-! ## Agreement -/

/-- What a connector may yield without an error: text and tool calls, and at most one end chunk,
which is the last. -/
inductive Yielded : List InferenceChunk → Prop
  | nil : Yielded []
  | done (backendId : BackendId) (latencyMs : BitVec 64) : Yielded [.done backendId latencyMs]
  | delta (text : String) (finishReason : Option String) {chunks : List InferenceChunk} :
    Yielded chunks → Yielded (.delta text finishReason :: chunks)
  | toolCall (id function args : String) {chunks : List InferenceChunk} :
    Yielded chunks → Yielded (.toolCall id function args :: chunks)

namespace InferenceChunk

/-- The text of a chunk. -/
def text : InferenceChunk → String
  | .delta text _ => text
  | _ => ""

/-- The part of the text that is sent. -/
def sentText : InferenceChunk → String
  | .delta text none => text
  | _ => ""

/-- The finish reason that is sent for a chunk. -/
def sentReason : InferenceChunk → Option String
  | .delta _ fr => fr
  | .toolCall _ _ _ => none
  | .done _ _ => some "stop"
  | .error _ _ => some "error"

theorem length_sentText_le (c : InferenceChunk) : c.sentText.length ≤ c.text.length := by
  cases c with
  | delta text fr =>
    cases fr with
    | none => exact Nat.le_refl _
    | some reason => exact Nat.zero_le _
  | toolCall id function args => exact Nat.le_refl _
  | done backendId latencyMs => exact Nat.le_refl _
  | error code message => exact Nat.le_refl _

theorem sentText_eq_text (c : InferenceChunk) (h : c.sentText.length = c.text.length) :
    c.sentText = c.text := by
  cases c with
  | delta text fr =>
    cases fr with
    | none => rfl
    | some reason => exact (String.length_eq_zero_iff.1 h.symm).symm
  | toolCall id function args => rfl
  | done backendId latencyMs => rfl
  | error code message => rfl

end InferenceChunk

namespace SseEvent

/-- The text of an event. -/
def content : SseEvent → String
  | .chunk c => c.content
  | .done => ""

/-- The finish reason that an event carries. -/
def finishReason : SseEvent → Option String
  | .chunk c => c.finishReason
  | .done => none

/-- The events tell the same as the answer: the same text, and one finish reason, that of the
answer, right before `[DONE]`. -/
def Agrees (events : List SseEvent) (resp : OpenAIChatResponse) : Prop :=
  String.join (events.map content) = resp.content ∧
    ∃ front last reason, events = front ++ [last, .done] ∧
      (∀ ev ∈ front, ev.finishReason = none) ∧ last.finishReason = some reason ∧
      resp.finishReason = some reason

theorem content_chunkToOpenai (created : Int) (rid model : String) (c : InferenceChunk) :
    (chunkToOpenai created rid model c).content = c.sentText := by
  cases c with
  | delta text fr =>
    cases fr with
    | none => exact OpenAIChatChunk.content_single created rid model _ _
    | some reason => exact OpenAIChatChunk.content_single created rid model _ _
  | toolCall id function args => exact OpenAIChatChunk.content_single created rid model _ _
  | done backendId latencyMs => exact OpenAIChatChunk.content_single created rid model _ _
  | error code message => exact OpenAIChatChunk.content_single created rid model _ _

theorem finishReason_chunkToOpenai (created : Int) (rid model : String) (c : InferenceChunk) :
    (chunkToOpenai created rid model c).finishReason = c.sentReason := by
  cases c with
  | delta text fr =>
    cases fr with
    | none => rfl
    | some reason => rfl
  | toolCall id function args => rfl
  | done backendId latencyMs => rfl
  | error code message => rfl

theorem map_mapIdx_eq_map {α β γ : Type} {f : Nat → α → β} {g : β → γ} {k : α → γ}
    (h : ∀ i a, g (f i a) = k a) (l : List α) : (l.mapIdx f).map g = l.map k := by
  induction l generalizing f with
  | nil => rfl
  | cons a l ih => rw [List.mapIdx_cons, List.map_cons, List.map_cons, h, ih fun i a => h (i + 1) a]

variable (clock : Nat → Int) (rid model : String)

/-- What is read of the events, if the time of a chunk is not. -/
theorem map_sseEvents {γ : Type} {g : SseEvent → γ} {k : InferenceChunk → γ}
    (h : ∀ created c, g (.chunk (chunkToOpenai created rid model c)) = k c)
    (chunks : List InferenceChunk) :
    (sseEvents clock rid model chunks).map g =
      g (.chunk (.roleChunk (clock 0) rid model)) :: chunks.map k ++
        [g (.chunk (.finishChunk (clock (chunks.length + 1)) rid model "stop")), g .done] := by
  have hmapped : (chunks.mapIdx fun i c => chunkToOpenai (clock (i + 1)) rid model c).map
      (g ∘ chunk) = chunks.map k := by
    apply map_mapIdx_eq_map
    intro i c
    exact h (clock (i + 1)) c
  unfold sseEvents
  simp only [List.map_append, List.map_cons, List.map_map, List.map_nil, List.cons_append,
    List.append_assoc, List.nil_append, hmapped]

theorem contents_sseEvents (chunks : List InferenceChunk) :
    String.join ((sseEvents clock rid model chunks).map content) =
      String.join (chunks.map (·.sentText)) := by
  have hlast (created : Int) : content (.chunk (.finishChunk created rid model "stop")) = "" :=
    OpenAIChatChunk.content_single created rid model _ _
  have hfirst : content (.chunk (.roleChunk (clock 0) rid model)) = "" :=
    OpenAIChatChunk.content_single (clock 0) rid model _ _
  rw [map_sseEvents clock rid model fun created c => content_chunkToOpenai created rid model c,
    hfirst, hlast, List.cons_append, String.join_cons, String.join_append]
  simp [content]

/-- The finish reasons that are sent: those of the chunks, and one more. -/
theorem finishReasons_sseEvents (chunks : List InferenceChunk) :
    (sseEvents clock rid model chunks).map finishReason =
      none :: chunks.map (·.sentReason) ++ [some "stop", none] :=
  map_sseEvents clock rid model
    (fun created c => finishReason_chunkToOpenai created rid model c) chunks

/-! ## The text -/

theorem length_join_sentText_le (chunks : List InferenceChunk) :
    (String.join (chunks.map (·.sentText))).length ≤
      (String.join (chunks.map (·.text))).length := by
  induction chunks with
  | nil => exact Nat.le_refl _
  | cons c chunks ih =>
    have hc := c.length_sentText_le
    simp only [List.map_cons, String.join_cons, String.length_append]
    omega

/-- The text that is sent is all the text if each chunk sends its own. -/
theorem join_sentText_eq_iff (chunks : List InferenceChunk) :
    String.join (chunks.map (·.sentText)) = String.join (chunks.map (·.text)) ↔
      ∀ c ∈ chunks, c.sentText = c.text := by
  constructor
  · intro heq
    -- no chunk sends more than its text, so none sends less
    have hlen := congrArg String.length heq
    clear heq
    induction chunks with
    | nil => exact fun c hc => absurd hc List.not_mem_nil
    | cons c chunks ih =>
      have hc := c.length_sentText_le
      have hrest := length_join_sentText_le chunks
      simp only [List.map_cons, String.join_cons, String.length_append] at hlen
      rw [List.forall_mem_cons]
      exact ⟨c.sentText_eq_text (by omega), ih (by omega)⟩
  · intro h
    rw [List.map_congr_left h]

end SseEvent

theorem Aggregate.content_push (text : String) (fr : Option String) (a : Aggregate) :
    (a.push text fr).content = a.content ++ text := by
  unfold push
  by_cases htext : text = ""
  · simp [htext]
  · simp [htext]

theorem Aggregate.finishReason_push (text : String) (fr : Option String) (a : Aggregate) :
    (a.push text fr).finishReason = fr.or a.finishReason := by
  unfold push
  by_cases htext : text = ""
  · simp [htext]
  · simp [htext]

/-- What is put together of a sequence without an error. -/
theorem aggregateLoop_yielded {chunks : List InferenceChunk} (h : Yielded chunks) (a : Aggregate) :
    ∃ a', aggregateLoop chunks a = .ok a' ∧
      a'.content = a.content ++ String.join (chunks.map (·.text)) ∧
      ((∀ c ∈ chunks, c.sentReason = none) → a'.finishReason = a.finishReason) := by
  induction h generalizing a with
  | nil => exact ⟨a, rfl, by simp, fun _ => rfl⟩
  | done backendId latencyMs =>
    refine ⟨_, rfl, by simp [InferenceChunk.text], ?_⟩
    intro hnone
    exact absurd (hnone _ List.mem_cons_self) (Option.some_ne_none "stop")
  | toolCall id function args _ ih =>
    obtain ⟨a', hok, hcontent, hreason⟩ := ih a
    refine ⟨a', hok, by simpa [InferenceChunk.text] using hcontent, ?_⟩
    intro hnone
    exact hreason fun c hc => hnone c (List.mem_cons_of_mem _ hc)
  | delta text fr _ ih =>
    obtain ⟨a', hok, hcontent, hreason⟩ := ih (a.push text fr)
    refine ⟨a', hok, ?_, ?_⟩
    · rw [hcontent, Aggregate.content_push, List.map_cons, String.join_cons, String.append_assoc]
      rfl
    · intro hnone
      have hfr : fr = none := hnone _ List.mem_cons_self
      rw [hreason fun c hc => hnone c (List.mem_cons_of_mem _ hc), Aggregate.finishReason_push, hfr]
      rfl

/-- A sequence without an error is put together. -/
theorem aggregateChunkStream_yielded {F : Type} (created : Int) {chunks : List InferenceChunk}
    (h : Yielded chunks) (requestId model : String) (inference : InferenceRequest F) :
    ∃ resp, aggregateChunkStream created chunks requestId model inference = .ok resp ∧
      resp.content = String.join (chunks.map (·.text)) ∧
      ((∀ c ∈ chunks, c.sentReason = none) → resp.finishReason = none) := by
  obtain ⟨a, hok, hcontent, hreason⟩ := aggregateLoop_yielded h ⟨"", none, 0⟩
  unfold aggregateChunkStream
  rw [hok]
  refine ⟨_, rfl, ?_, ?_⟩
  · rw [OpenAIChatResponse.content_fromText, hcontent, String.empty_append]
  · intro hnone
    rw [OpenAIChatResponse.finishReason_fromText]
    exact hreason hnone

namespace SseEvent

variable {F : Type} (clock : Nat → Int) (rid model : String) {created : Int}
  {chunks : List InferenceChunk} {inference : InferenceRequest F} {resp : OpenAIChatResponse}

/-- The stream has the text of the answer unless a chunk with text carries a finish reason. -/
theorem content_agrees_iff (h : Yielded chunks)
    (hresp : aggregateChunkStream created chunks rid model inference = .ok resp) :
    String.join ((sseEvents clock rid model chunks).map content) = resp.content ↔
      ∀ c ∈ chunks, c.sentText = c.text := by
  obtain ⟨resp', hresp', hcontent, -⟩ := aggregateChunkStream_yielded created h rid model inference
  rcases Except.ok.inj (hresp.symm.trans hresp') with rfl
  rw [contents_sseEvents, hcontent]
  exact join_sentText_eq_iff chunks

variable (created inference) in
/-- The stream and the answer never agree: if no chunk carries a finish reason then the answer has
none, but the stream has the one that it closes with; otherwise the stream has more than one. -/
theorem not_agrees (h : Yielded chunks) :
    ∃ resp, aggregateChunkStream created chunks rid model inference = .ok resp ∧
      ¬Agrees (sseEvents clock rid model chunks) resp := by
  obtain ⟨resp, hresp, -, hnone⟩ := aggregateChunkStream_yielded created h rid model inference
  refine ⟨resp, hresp, ?_⟩
  rintro ⟨-, front, last, reason, hevents, hfront, hlast, hreason⟩
  have hreasons := finishReasons_sseEvents clock rid model chunks
  rw [hevents, List.map_append] at hreasons
  have hsent := (List.append_inj' hreasons rfl).1
  have hquiet : ∀ c ∈ chunks, c.sentReason = none := by
    intro c hc
    have hmem : c.sentReason ∈ front.map finishReason := by
      rw [hsent]
      exact List.mem_cons_of_mem _ (List.mem_map_of_mem hc)
    obtain ⟨ev, hev, heq⟩ := List.mem_map.1 hmem
    rw [← heq]
    exact hfront ev hev
  rw [hnone hquiet] at hreason
  exact absurd hreason.symm (Option.some_ne_none reason)

/-- A request with one message. -/
def hello : InferenceRequest Nat where
  requestId := ⟨"r"⟩
  model := "m"
  messages := [⟨"user", "hello"⟩]
  tokenIds := []
  maxTokens := 1024
  temperature := 1
  stream := false
  tools := []
  loraName := none

/-- Also for the simplest stream: the reason `stop` is sent twice. -/
theorem not_agrees_simple :
    ∃ resp, aggregateChunkStream 0 [.delta "Hi" none, .done ⟨⟨"r1"⟩, ⟨"a"⟩⟩ 5] "r" "m" hello =
        .ok resp ∧
      ¬Agrees (sseEvents (fun _ => 0) "r" "m" [.delta "Hi" none, .done ⟨⟨"r1"⟩, ⟨"a"⟩⟩ 5]) resp :=
  not_agrees _ "r" "m" 0 hello (.delta _ _ (.done _ _))

/-- A delta with text and a finish reason: its text is lost, and three events carry a finish
reason. -/
theorem text_lost :
    let chunks := [.delta "Hi" (some "length"), .done ⟨⟨"r1"⟩, ⟨"a"⟩⟩ 5]
    let resp := OpenAIChatResponse.fromText 0 "r" "m" "Hi" (some "length") 2 1
    aggregateChunkStream 0 chunks "r" "m" hello = .ok resp ∧
      String.join ((sseEvents (fun _ => 0) "r" "m" chunks).map content) = "" ∧
      (sseEvents (fun _ => 0) "r" "m" chunks).map finishReason =
        [none, some "length", some "stop", some "stop", none] ∧
      ¬Agrees (sseEvents (fun _ => 0) "r" "m" chunks) resp := by
  refine ⟨by decide +kernel, by decide +kernel, by decide +kernel, ?_⟩
  rintro ⟨hcontent, -⟩
  exact absurd hcontent (by decide +kernel)

end SseEvent

end HierKvGateway
