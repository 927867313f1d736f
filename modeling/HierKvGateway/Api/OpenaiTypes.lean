import HierKvGateway.Core.Request

/-!
# Api.OpenaiTypes — the answers of the HTTP API

The body of a non-streaming answer and the chunks of a streaming one (`openai_types.rs`). The time
of creation is an argument.
-/

namespace HierKvGateway

/-- The message of a choice. -/
structure OpenAIChoiceMessage where
  role : String
  content : String
deriving DecidableEq, Repr

/-- A choice of a non-streaming answer. -/
structure OpenAIChoice where
  index : BitVec 32
  message : OpenAIChoiceMessage
  finishReason : Option String
deriving DecidableEq, Repr

/-- Token counts. -/
structure OpenAIUsage where
  promptTokens : Nat
  completionTokens : Nat
  totalTokens : Nat
deriving DecidableEq, Repr

/-- A non-streaming answer. -/
structure OpenAIChatResponse where
  id : String
  object : String
  created : Int
  model : String
  choices : List OpenAIChoice
  usage : OpenAIUsage
deriving DecidableEq, Repr

namespace OpenAIChatResponse

/-- `OpenAIChatResponse::from_text`. -/
def fromText (created : Int) (requestId model content : String) (finishReason : Option String)
    (promptTokens completionTokens : Nat) : OpenAIChatResponse where
  id := requestId
  object := "chat.completion"
  created := created
  model := model
  choices := [⟨0, ⟨"assistant", content⟩, finishReason⟩]
  usage := ⟨promptTokens, completionTokens, promptTokens + completionTokens⟩

/-- The text of an answer. -/
def content (r : OpenAIChatResponse) : String := String.join (r.choices.map (·.message.content))

/-- The reason it finished. -/
def finishReason (r : OpenAIChatResponse) : Option String := r.choices.findSome? (·.finishReason)

@[simp] theorem content_fromText (created : Int) (requestId model content : String)
    (finishReason : Option String) (promptTokens completionTokens : Nat) :
    (fromText created requestId model content finishReason promptTokens completionTokens).content =
      content := by
  simp [OpenAIChatResponse.content, fromText]

@[simp] theorem finishReason_fromText (created : Int) (requestId model content : String)
    (finishReason : Option String) (promptTokens completionTokens : Nat) :
    (fromText created requestId model content finishReason promptTokens
      completionTokens).finishReason = finishReason := by
  cases finishReason with
  | none => rfl
  | some reason => rfl

end OpenAIChatResponse

/-- The increment of a chunk. -/
structure OpenAIDelta where
  role : Option String
  content : Option String
deriving DecidableEq, Repr

/-- A choice of a chunk. -/
structure OpenAIChunkChoice where
  index : BitVec 32
  delta : OpenAIDelta
  finishReason : Option String
deriving DecidableEq, Repr

/-- A chunk of a streaming answer. -/
structure OpenAIChatChunk where
  id : String
  object : String
  created : Int
  model : String
  choices : List OpenAIChunkChoice
deriving DecidableEq, Repr

namespace OpenAIChatChunk

/-- A chunk with one choice. -/
def single (created : Int) (requestId model : String) (delta : OpenAIDelta)
    (finishReason : Option String) : OpenAIChatChunk where
  id := requestId
  object := "chat.completion.chunk"
  created := created
  model := model
  choices := [⟨0, delta, finishReason⟩]

/-- `OpenAIChatChunk::role_chunk`. -/
def roleChunk (created : Int) (requestId model : String) : OpenAIChatChunk :=
  single created requestId model ⟨some "assistant", none⟩ none

/-- `OpenAIChatChunk::delta_chunk`. -/
def deltaChunk (created : Int) (requestId model content : String) : OpenAIChatChunk :=
  single created requestId model ⟨none, some content⟩ none

/-- `OpenAIChatChunk::finish_chunk`. -/
def finishChunk (created : Int) (requestId model finishReason : String) : OpenAIChatChunk :=
  single created requestId model ⟨none, none⟩ (some finishReason)

/-- The text of a chunk. -/
def content (c : OpenAIChatChunk) : String :=
  String.join (c.choices.map fun choice => choice.delta.content.getD "")

/-- The finish reason that a chunk carries. -/
def finishReason (c : OpenAIChatChunk) : Option String := c.choices.findSome? (·.finishReason)

variable (created : Int) (requestId model : String)

@[simp] theorem content_single (delta : OpenAIDelta) (finishReason : Option String) :
    (single created requestId model delta finishReason).content = delta.content.getD "" := by
  simp [content, single]

end OpenAIChatChunk

end HierKvGateway
