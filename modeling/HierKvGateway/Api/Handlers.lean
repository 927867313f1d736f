import HierKvGateway.Api.Stream
import HierKvGateway.Routing.Engine

/-!
# Api.Handlers — chat completions

The handler of `POST /v1/chat/completions` (`handlers.rs`): route, forward, and answer as a stream
or as a whole. What routing and forwarding come to is a parameter; telemetry is left out.
-/

namespace HierKvGateway

/-! ## Requests -/

/-- A tool of a request. -/
structure OpenAITool where
  toolType : String
  name : String
  description : String
  /-- JSON text. -/
  parameters : String
deriving DecidableEq, Repr

/-- A request for a chat completion. -/
structure OpenAIChatRequest (F : Type) where
  model : String
  messages : List ChatMessage
  maxTokens : BitVec 32
  temperature : F
  stream : Bool
  tools : List OpenAITool
  loraName : Option String
  session : Option String
  tokenIds : List (BitVec 32)

/-- `to_inference_request`, with a fresh identifier. -/
def OpenAIChatRequest.toInferenceRequest {F : Type} (requestId : RequestId)
    (req : OpenAIChatRequest F) : InferenceRequest F where
  requestId := requestId
  model := req.model
  messages := req.messages
  tokenIds := req.tokenIds
  maxTokens := req.maxTokens
  temperature := req.temperature
  stream := req.stream
  tools := req.tools.map fun t => ⟨t.name, t.description, t.parameters⟩
  loraName := req.loraName

/-! ## Responses -/

/-- The body of a response; answers and errors are JSON. -/
inductive ResponseBody where
  | chat (resp : OpenAIChatResponse)
  | error (message errorType : String)
  | events (events : List SseEvent)
deriving DecidableEq, Repr

/-- An HTTP response. -/
structure Response where
  status : Nat
  headers : List (String × String)
  body : ResponseBody
deriving DecidableEq, Repr

/-- The header `Content-Type`. -/
def Response.contentType (r : Response) : Option String := r.headers.lookup "content-type"

/-- The type and the message of an error. -/
def Response.error (r : Response) : Option (String × String) :=
  match r.body with
  | .error message errorType => some (errorType, message)
  | _ => none

/-- The routing decision, as the response headers tell it. -/
structure RoutingMeta where
  backend : String
  strategy : String
  kvOverlap : BitVec 32
deriving DecidableEq, Repr

/-- `RoutingMeta::from_decision`. -/
def RoutingMeta.fromDecision {F : Type} (d : RouteDecision F) : RoutingMeta :=
  ⟨d.backend.display, d.strategy, d.kvOverlap⟩

/-- `HeaderValue::from_str`: visible ASCII characters, spaces and tabs. -/
def headerValue (s : String) : Option String :=
  if s.toList.all fun c => (32 ≤ c.val && c.val < 127) || c == '\t' then some s else none

/-- `apply_to_headers`, on empty headers. -/
def RoutingMeta.headers (m : RoutingMeta) : List (String × String) :=
  ((headerValue m.backend).map ("x-hier-kv-gateway-backend", ·)).toList ++
    ((headerValue m.strategy).map ("x-hier-kv-gateway-strategy", ·)).toList ++
    ((headerValue (toString m.kvOverlap.toNat)).map ("x-hier-kv-gateway-kv-overlap", ·)).toList

/-- `error_type_name`. -/
def errorTypeName : HierKvGatewayError → String
  | .backendUnavailable => "backend_unavailable"
  | .routingFailed _ => "routing_failed"
  | .connectorError _ => "connector_error"
  | .metricsError _ => "metrics_error"
  | .configError _ => "config_error"
  | .clusterError _ => "cluster_error"
  | .notFound _ => "not_found"
  | .rateLimited => "rate_limited"
  | .internal _ => "internal_error"

/-- `error_response`. -/
def errorResponse (status : Nat) (err : HierKvGatewayError) : Response :=
  ⟨status, [("content-type", "application/json")], .error err.display (errorTypeName err)⟩

/-- `StatusCode::from_u16`. -/
def statusCode (code : BitVec 16) : Option Nat :=
  if 100 ≤ code.toNat ∧ code.toNat < 1000 then some code.toNat else none

/-! ## The handler -/

/-- What a request meets: the state of the gateway, as far as it decides the answer. -/
structure Encounter (F : Type) where
  requestId : RequestId
  kvBlockSize : BitVec 32
  maxRetries : BitVec 32
  computeBlockHashes : List (BitVec 32) → BitVec 32 → Option String → List BlockHash
  routeCandidates : RoutingContext → Nat → Except HierKvGatewayError (List (RouteDecision F))
  /-- `forward_with_retries`: the chunks of the first backend that answers, with its decision. -/
  forwardWithRetries : List (RouteDecision F) → InferenceRequest F → Nat →
    Except HierKvGatewayError (List InferenceChunk × RoutingMeta)
  clock : Nat → Int

namespace Encounter

variable {F : Type} (w : Encounter F)

/-- The block hashes of the prompt, if it comes as tokens. -/
def blockHashes (inference : InferenceRequest F) : List BlockHash :=
  if inference.tokenIds ≠ [] then
    w.computeBlockHashes inference.tokenIds w.kvBlockSize inference.loraName
  else []

/-- The routing context of a request. -/
def routingContext (req : OpenAIChatRequest F) (inference : InferenceRequest F) : RoutingContext where
  requestId := some inference.requestId
  sessionId := req.session.map SessionId.mk
  tenantId := none
  modelName := some req.model
  tokenIds := inference.tokenIds
  blockHashes := w.blockHashes inference
  blockSize := w.kvBlockSize
  loraName := inference.loraName
  cacheNamespace := none
  estimatedOutputTokens := inference.maxTokens
  requiresToolCalling := !inference.tools.isEmpty

/-- One attempt and the retries. -/
def maxAttempts : Nat := min (w.maxRetries.toNat + 1) (2 ^ 32 - 1)

/-- `build_sse_response`. -/
def buildSseResponse (chunks : List InferenceChunk) (requestId : RequestId) (model : String)
    (routingMeta : RoutingMeta) : Response where
  status := 200
  headers := routingMeta.headers ++
    [("content-type", "text/event-stream"), ("cache-control", "no-cache")]
  body := .events (sseEvents w.clock requestId.str model chunks)

/-- `build_non_stream_response`. -/
def buildNonStreamResponse (chunks : List InferenceChunk) (requestId : RequestId) (model : String)
    (routingMeta : RoutingMeta) (inference : InferenceRequest F) : Response :=
  match aggregateChunkStream (w.clock 0) chunks requestId.str model inference with
  | .ok resp => ⟨200, routingMeta.headers ++ [("content-type", "application/json")], .chat resp⟩
  | .error (code, message) =>
    errorResponse ((statusCode code).getD 502) (.connectorError ("backend error: " ++ message))

/-- `chat_completions` for a request that is not coalesced. -/
def directChatCompletions (req : OpenAIChatRequest F) : Response :=
  let inference := req.toInferenceRequest w.requestId
  let ctx := w.routingContext req inference
  let promptBlocks := ctx.blockHashes.length
  match w.routeCandidates ctx w.maxAttempts with
  | .error e => errorResponse 503 e
  | .ok decisions =>
    if decisions = [] then errorResponse 503 .backendUnavailable
    else
      match w.forwardWithRetries decisions inference promptBlocks with
      | .error e => errorResponse 502 e
      | .ok (chunks, routingMeta) =>
        if req.stream then w.buildSseResponse chunks inference.requestId req.model routingMeta
        else w.buildNonStreamResponse chunks inference.requestId req.model routingMeta inference

end Encounter

end HierKvGateway
