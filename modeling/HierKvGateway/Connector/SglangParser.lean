import HierKvGateway.Connector.SseParser

/-!
# Connector.SglangParser — the stream of an SGLang backend

`SglangGenerateParser` (`sglang.rs`) reads the lines that `SseParser` reads. The data of a line has
all the text so far, of which the parser sends what it has not sent yet.
-/

namespace HierKvGateway

/-! ## Data -/

structure GenerateFinishReason where
  kind : String
deriving DecidableEq, Repr

structure GenerateMetaInfo where
  finishReason : Option GenerateFinishReason
deriving DecidableEq, Repr

/-- The data of a line. -/
structure GenerateStreamChunk where
  /-- All the text so far. -/
  text : String
  metaInfo : Option GenerateMetaInfo
deriving DecidableEq, Repr

/-- The finish reason in the data of a line. -/
def GenerateStreamChunk.finishReason (c : GenerateStreamChunk) : Option String :=
  (c.metaInfo.bind (·.finishReason)).map (·.kind)

/-! ## The parser -/

/-- What a poll comes to, other than the end of the stream. -/
inductive SglangItem where
  | chunk (c : InferenceChunk)
  /-- A text is sliced inside a character. -/
  | panicked
deriving DecidableEq, Repr

/-- The state of a `SglangGenerateParser` beyond what it has read. -/
structure SglangState where
  backendId : BackendId
  /-- Bytes of the text that have been sent. -/
  emittedLen : Nat
  /-- The last chunk before the end chunk has been seen. -/
  finished : Bool
  /-- The end chunk has been sent. -/
  doneEmitted : Bool

/-- `SglangGenerateParser`. An error of the stream below is its text. -/
abbrev SglangGenerateParser := Lines.Reader SglangState String (List UInt8) Char

namespace SglangState

/-- What has not been sent of a text, or all of it if it is shorter than what has been; `none` if
the slice is not of whole characters. -/
def deltaText (s : SglangState) (text : List Char) : Option (List Char) :=
  if s.emittedLen ≤ Text.byteLen text then Text.dropBytes s.emittedLen text else some text

/-- How much has been sent after that. -/
def nextEmittedLen (s : SglangState) (text : List Char) : Nat :=
  if s.emittedLen ≤ Text.byteLen text then Text.byteLen text
  else s.emittedLen + Text.byteLen text

/-- What the data of a line yields. -/
def emit (s : SglangState) (chunk : GenerateStreamChunk) : Option SglangItem × SglangState :=
  match s.deltaText chunk.text.toList with
  | none => (some .panicked, s)
  | some delta =>
    let s := { s with
      emittedLen := s.nextEmittedLen chunk.text.toList
      finished := s.finished || chunk.finishReason.isSome }
    if delta = [] ∧ chunk.finishReason = none then (none, s)
    else (some (.chunk (.delta (String.ofList delta) chunk.finishReason)), s)

/-- The end chunk has been sent. -/
def close (s : SglangState) : SglangState := { s with finished := true, doneEmitted := true }

end SglangState

namespace SglangGenerateParser

/-- `SglangGenerateParser::new`. -/
def new (inner : List (Except String (List UInt8))) (backendId : BackendId) :
    SglangGenerateParser :=
  ⟨inner, [], ⟨backendId, 0, false, false⟩⟩

/-- `from_str` is `serde_json::from_str`. -/
def handleLine (fromStr : String → Option GenerateStreamChunk) (elapsed : Duration)
    (s : SglangState) (line : List Char) : Option SglangItem × SglangState :=
  match sseLine line with
  | .ignored => (none, s)
  | .done => (some (.chunk (doneChunk elapsed s.backendId)), s.close)
  | .data data =>
    match fromStr (String.ofList data) with
    | some chunk => s.emit chunk
    | none => (none, s)

/-- `SglangGenerateParser::try_parse`. -/
def tryParse (fromStr : String → Option GenerateStreamChunk) (elapsed : Duration)
    (s : SglangState) (buffer : List Char) : Option SglangItem × SglangState × List Char :=
  Lines.next '\n' (handleLine fromStr elapsed) s buffer

/-- A poll after the last chunk: the end chunk is sent once. -/
def closed (elapsed : Duration) (s : SglangState) : Option (Option SglangItem × SglangState) :=
  if s.finished then
    if s.doneEmitted then some (none, s)
    else some (some (.chunk (doneChunk elapsed s.backendId)), { s with doneEmitted := true })
  else none

/-- The end of the stream below: the rest is read as a line. -/
def finish (fromStr : String → Option GenerateStreamChunk) (elapsed : Duration)
    (s : SglangState) (buffer : List Char) : Option SglangItem × SglangState × List Char :=
  let drained :=
    if buffer = [] then (none, s, buffer) else tryParse fromStr elapsed s (buffer ++ ['\n'])
  match drained with
  | (some item, s, buffer) => (some item, s, buffer)
  | (none, s, buffer) => (some (.chunk (doneChunk elapsed s.backendId)), s.close, buffer)

/-- How the stream is read. -/
def format (fromStr : String → Option GenerateStreamChunk) :
    Lines.Format Duration SglangState String (List UInt8) Char SglangItem where
  sep := '\n'
  decode := Utf8.lossy
  closed := closed
  handle := handleLine fromStr
  fail e := .chunk (.error 502 ("sglang stream read error: " ++ e))
  finish := finish fromStr

/-- `SglangGenerateParser::poll_next`, some time after the stream was opened. -/
def pollNext (fromStr : String → Option GenerateStreamChunk) :
    Poll Duration SglangGenerateParser SglangItem :=
  Lines.poll (format fromStr)

end SglangGenerateParser

end HierKvGateway
