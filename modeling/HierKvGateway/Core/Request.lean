import HierKvGateway.Core.Error
import HierKvGateway.Core.Ids

/-!
# Core.Request — inference requests and routing contexts

An inference request, the chunks of its answer, the context of a routing decision and the scores
of a strategy (`request.rs`), and what is known of a backend (`backend.rs`).
-/

namespace HierKvGateway

/-- Request identifier. -/
structure RequestId where
  str : String
deriving DecidableEq, Repr

/-- Tenant identifier. -/
structure TenantId where
  str : String
deriving DecidableEq, Repr

/-- A chat message. -/
structure ChatMessage where
  role : String
  content : String
deriving DecidableEq, Repr

/-- A tool that the model may call. -/
structure ToolDefinition where
  name : String
  description : String
  /-- A JSON Schema. -/
  parametersSchema : String
deriving DecidableEq, Repr

/-- An inference request. -/
structure InferenceRequest (F : Type) where
  requestId : RequestId
  model : String
  messages : List ChatMessage
  tokenIds : List (BitVec 32)
  maxTokens : BitVec 32
  temperature : F
  stream : Bool
  tools : List ToolDefinition
  loraName : Option String

/-- A chunk of the answer. -/
inductive InferenceChunk where
  | delta (text : String) (finishReason : Option String)
  | toolCall (id function args : String)
  /-- The stream ends. -/
  | done (backendId : BackendId) (latencyMs : BitVec 64)
  /-- The code is an HTTP status. -/
  | error (code : BitVec 16) (message : String)
deriving DecidableEq, Repr

/-- An end chunk. -/
def InferenceChunk.isDone : InferenceChunk → Bool
  | .done _ _ => true
  | _ => false

/-- The context of a routing decision. -/
structure RoutingContext where
  requestId : Option RequestId
  /-- Used for session affinity. -/
  sessionId : Option SessionId
  tenantId : Option TenantId
  modelName : Option String
  tokenIds : List (BitVec 32)
  blockHashes : List (BitVec 64)
  blockSize : BitVec 32
  loraName : Option String
  cacheNamespace : Option String
  estimatedOutputTokens : BitVec 32
  requiresToolCalling : Bool
deriving Repr

/-- `RoutingContext::default`. -/
def RoutingContext.default : RoutingContext :=
  ⟨none, none, none, none, [], [], 0, none, none, 0, false⟩

/-- The score of a backend. -/
structure ScoredBackend (F : Type) where
  backendId : BackendId
  /-- Higher is better. -/
  score : F
  /-- Lower is better. -/
  rawCost : F
  metaVersion : Nat

/-- A model that a backend hosts. -/
structure ModelInstance where
  modelName : String
  modelArchitecture : String
  maxContextLen : BitVec 32
  supportsToolCalling : Bool
deriving DecidableEq, Repr

/-- What is known of a backend. -/
structure BackendInfo where
  id : BackendId
  models : List ModelInstance
  region : RegionId
  indexerDomain : IndexerDomainId
deriving DecidableEq, Repr

end HierKvGateway
