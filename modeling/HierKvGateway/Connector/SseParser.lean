import HierKvGateway.Core.Request
import HierKvGateway.Core.Text
import HierKvGateway.Core.Utf8
import HierKvGateway.Lib.Lines

/-!
# Connector.SseParser — the stream of an OpenAI-compatible backend

`SseParser` (`openai_compat.rs`) turns the bytes of a response into chunks: a line `data: ` with a
chunk in JSON yields the first thing in it that is worth sending, and `data: [DONE]` an end chunk.
Nothing is remembered of the end, and `SseParser.pollNext_ne_none` says that no poll finds it.
-/

namespace HierKvGateway

/-! ## Data -/

structure ToolCallFunction where
  name : Option String
  arguments : Option String
deriving DecidableEq, Repr

structure ToolCallDelta where
  id : Option String
  function : Option ToolCallFunction
deriving DecidableEq, Repr

structure Delta where
  content : Option String
  toolCalls : List ToolCallDelta
deriving DecidableEq, Repr

structure Choice where
  delta : Delta
  finishReason : Option String
deriving DecidableEq, Repr

/-- The data of a line. -/
structure ChatCompletionChunk where
  choices : List Choice
deriving DecidableEq, Repr

/-- A tool call that says what is called. -/
def ToolCallDelta.chunk (tc : ToolCallDelta) : Option InferenceChunk :=
  match tc.id, tc.function with
  | some id, some func => some (.toolCall id (func.name.getD "") (func.arguments.getD ""))
  | _, _ => none

/-- What is sent of a choice: its first tool call, else its text, else its finish reason if it has
no text at all. -/
def Choice.chunk (choice : Choice) : Option InferenceChunk :=
  match choice.delta.toolCalls.findSome? ToolCallDelta.chunk with
  | some chunk => some chunk
  | none =>
    match choice.delta.content with
    | some content => if content = "" then none else some (.delta content choice.finishReason)
    | none => choice.finishReason.map fun reason => .delta "" (some reason)

/-- What is sent of the data of a line. -/
def ChatCompletionChunk.chunk (c : ChatCompletionChunk) : Option InferenceChunk :=
  c.choices.findSome? Choice.chunk

/-! ## Lines -/

/-- A line of a stream of server-sent events. -/
inductive SseLine where
  | ignored
  | done
  | data (text : List Char)
deriving DecidableEq, Repr

/-- What a line is, without its end. -/
def sseLine (line : List Char) : SseLine :=
  match Text.stripPrefix "data: ".toList (Text.trimEndMatches '\r' line) with
  | some data => if Text.trim data = "[DONE]".toList then .done else .data data
  -- so is an empty line
  | none => .ignored

/-- The end chunk of a stream that was opened some time ago. -/
def doneChunk (elapsed : Duration) (backendId : BackendId) : InferenceChunk :=
  .done backendId (BitVec.ofNat 64 elapsed.asMillis)

/-- The items come to an end, with one end chunk, which is the last. -/
def EndsOnce {ε : Type} (isDone : ε → Bool) (items : Nat → Option ε) : Prop :=
  ∃ n, (∀ i < n, ∃ e, items i = some e ∧ isDone e = false) ∧
    (∃ e, items n = some e ∧ isDone e = true) ∧ ∀ i, n < i → items i = none

/-! ## The parser -/

/-- `SseParser`; its state is the id of the backend. An error of the stream below is its text. -/
abbrev SseParser := Lines.Reader BackendId String (List UInt8) Char

namespace SseParser

/-- `SseParser::new`. -/
def new (inner : List (Except String (List UInt8))) (backendId : BackendId) : SseParser :=
  ⟨inner, [], backendId⟩

/-- `from_str` is `serde_json::from_str`. -/
def handleLine (fromStr : String → Option ChatCompletionChunk) (elapsed : Duration)
    (backendId : BackendId) (line : List Char) : Option InferenceChunk × BackendId :=
  match sseLine line with
  | .ignored => (none, backendId)
  | .done => (some (doneChunk elapsed backendId), backendId)
  | .data data => ((fromStr (String.ofList data)).bind ChatCompletionChunk.chunk, backendId)

/-- `SseParser::try_parse`: the chunk, and the buffer that is left. -/
def tryParse (fromStr : String → Option ChatCompletionChunk) (elapsed : Duration)
    (backendId : BackendId) (buffer : List Char) :
    Option InferenceChunk × BackendId × List Char :=
  Lines.next '\n' (handleLine fromStr elapsed) backendId buffer

/-- The end of the stream below. -/
def finish (fromStr : String → Option ChatCompletionChunk) (elapsed : Duration)
    (backendId : BackendId) (buffer : List Char) :
    Option InferenceChunk × BackendId × List Char :=
  if buffer = [] then (some (doneChunk elapsed backendId), backendId, buffer)
  else
    match tryParse fromStr elapsed backendId buffer with
    | (some chunk, backendId, buffer) => (some chunk, backendId, buffer)
    | (none, backendId, buffer) => (some (doneChunk elapsed backendId), backendId, buffer)

/-- How the stream is read. -/
def format (fromStr : String → Option ChatCompletionChunk) :
    Lines.Format Duration BackendId String (List UInt8) Char InferenceChunk where
  sep := '\n'
  decode := Utf8.lossy
  -- the parser always reads
  closed _ _ := none
  handle := handleLine fromStr
  fail e := .error 502 ("stream read error: " ++ e)
  finish := finish fromStr

/-- `SseParser::poll_next`, some time after the stream was opened. A poll is of a stream that has
something to say: one that is pending keeps what it has read, and goes on when it is polled
again. -/
def pollNext (fromStr : String → Option ChatCompletionChunk) :
    Poll Duration SseParser InferenceChunk :=
  Lines.poll (format fromStr)

variable {fromStr : String → Option ChatCompletionChunk}

theorem finish_ne_none (elapsed : Duration) (backendId : BackendId) (buffer : List Char) :
    (finish fromStr elapsed backendId buffer).1 ≠ none := by
  unfold finish
  split
  · exact Option.some_ne_none _
  · split
    · exact Option.some_ne_none _
    · exact Option.some_ne_none _

/-- Every poll yields a chunk. -/
theorem pollNext_ne_none (elapsed : Duration) (this : SseParser) :
    (pollNext fromStr elapsed this).1 ≠ none :=
  Lines.poll_ne_none (fun _ _ => rfl) finish_ne_none elapsed this

/-- The stream has no end, whatever is known of the time when it is polled. -/
theorem endless {ι : Type} (elapsed : ι → Duration) (this : SseParser) :
    Polling.Endless (fun t => pollNext fromStr (elapsed t)) this := by
  refine .of_inv (I := fun _ => True) ?_ ?_ trivial
  · intro t this _
    trivial
  · intro t this _
    exact pollNext_ne_none (elapsed t) this

end SseParser

end HierKvGateway
