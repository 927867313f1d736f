import HierKvGateway.Cluster.Messages
import HierKvGateway.Core.Error
import HierKvGateway.Core.Metrics
import HierKvGateway.Core.Text

/-!
# Connector.Metrics — collecting the metrics of a backend

The two ways to read the load of a backend: the text that Prometheus reads (`openai_compat.rs`), and
the server information of SGLang (`sglang.rs`), which falls back to the first.
-/

namespace HierKvGateway

/-- What the connectors do with doubles. -/
structure F64Ops where
  /-- `str::parse`. -/
  parse : String → Option F64
  max : F64 → F64 → F64
  mul : F64 → F64 → F64
  /-- `as u64`. -/
  toU64 : F64 → BitVec 64

/-- `1000.0`. -/
def F64.thousand : F64 := 0x408F400000000000#64

/-- `BackendMetrics::default`. -/
def BackendMetrics.default : BackendMetrics where
  activeRequests := 0
  queueDepth := 0
  activeDecodeBlocks := 0
  activePrefillTokens := 0
  kvUsedBlocks := 0
  kvTotalBlocks := 0
  gpuUtilization := F64.zero
  gpuMemoryUsedMb := 0
  gpuMemoryTotalMb := 0
  latency := ⟨F64.zero, F64.zero, F64.zero, 0⟩
  timestamp := 0

/-- `DateTime::timestamp_millis` of the time since 1970. -/
def timestampMillis (now : Duration) : Int := now.secs * 1000 + now.subsecNanos / 10 ^ 6

/-- An answer to a request of a connector. -/
structure MetricsReply (body : Type) where
  status : Nat
  /-- `none` if it could not be read. -/
  body : Option body

/-- `StatusCode::is_success`. -/
def MetricsReply.isSuccess {body : Type} (reply : MetricsReply body) : Bool :=
  200 ≤ reply.status && reply.status < 300

/-! ## Prometheus text -/

/-- `parse_prom_line`: the name of a metric and its value. -/
def parsePromLine (ops : F64Ops) (line : List Char) : Option (String × F64) :=
  let valueStr := line.rtakeWhile (· ≠ ' ')
  if valueStr.length = line.length then none
  else
    let namePart := line.take (line.length - valueStr.length - 1)
    (ops.parse (String.ofList valueStr)).map fun value =>
      (String.ofList (namePart.takeWhile (· ≠ '{')), value)

/-- What a metric says of a backend. -/
def applyPromMetric (ops : F64Ops) (name : String) (value : F64) (m : BackendMetrics) :
    BackendMetrics :=
  if name = "vllm:num_requests_running" ∨ name = "hier_kv_gateway:active_requests" then
    { m with activeRequests := ops.toU64 value }
  else if name = "vllm:num_requests_waiting" ∨ name = "hier_kv_gateway:queue_depth" then
    { m with queueDepth := ops.toU64 value }
  else if name = "vllm:gpu_cache_usage_perc" ∨ name = "hier_kv_gateway:kv_cache_usage" then
    { m with
      kvUsedBlocks := ops.toU64 (ops.mul value F64.thousand)
      kvTotalBlocks := if m.kvTotalBlocks = 0 then 1000 else m.kvTotalBlocks }
  else if name = "vllm:gpu_utilization" ∨ name = "hier_kv_gateway:gpu_utilization" then
    { m with gpuUtilization := value }
  else m

/-- One line of the text. -/
def applyPromLine (ops : F64Ops) (m : BackendMetrics) (line : List Char) : BackendMetrics :=
  let line := Text.trim line
  if line.head? = some '#' ∨ line = [] then m
  else
    match parsePromLine ops line with
    | some (name, value) => applyPromMetric ops name value m
    | none => m

/-- `parse_prometheus_metrics`. -/
def parsePrometheusMetrics (ops : F64Ops) (text : String) (m : BackendMetrics) : BackendMetrics :=
  (Text.lines text.toList).foldl (applyPromLine ops) m

/-- `OpenAICompatConnector::collect_metrics` at a time, for what `/metrics` answers. -/
def OpenAICompatConnector.collectMetrics (ops : F64Ops) (now : Duration)
    (reply : Option (MetricsReply String)) : BackendMetrics :=
  let metrics := { BackendMetrics.default with timestamp := timestampMillis now }
  match reply with
  | some reply =>
    if reply.isSuccess then parsePrometheusMetrics ops (reply.body.getD "") metrics else metrics
  | none => metrics

/-! ## Server information -/

/-- `Value::as_f64`. -/
def Json.asF64 (ops : F64Ops) : Json → Option F64
  | .number text => ops.parse text
  | _ => none

/-- The scheduler state in the server information. -/
def schedulerState (value : Json) : Json :=
  let state := (value.get "internal_states").bind fun s =>
    match s.asArray with
    | some items => items.head?
    | none => some s
  state.getD value

/-- A field as a count; negative numbers are none. -/
def Json.getU64 (ops : F64Ops) (value : Json) (key : String) : Option (BitVec 64) :=
  ((value.get key).bind (Json.asF64 ops)).map fun v => ops.toU64 (ops.max v F64.zero)

/-- `map_server_info_metrics`. -/
def mapServerInfoMetrics (ops : F64Ops) (value : Json) (kvBlockSize : BitVec 32) (nowMs : Int) :
    BackendMetrics :=
  let state := schedulerState value
  let getU64 (keys : List String) : Option (BitVec 64) := keys.findSome? (state.getU64 ops)
  let block : BitVec 64 := if kvBlockSize = 0 then 1 else kvBlockSize.setWidth 64
  let totalTokens := (getU64 ["max_total_num_tokens"]).or (value.getU64 ops "max_total_num_tokens")
  { BackendMetrics.default with
    timestamp := nowMs
    activeRequests := (getU64 ["num_running_reqs", "running_reqs"]).getD 0
    queueDepth := (getU64 ["num_queue_reqs", "num_waiting_reqs"]).getD 0
    kvUsedBlocks := ((getU64 ["num_used_tokens"]).map (· / block)).getD 0
    kvTotalBlocks := (totalTokens.map (· / block)).getD 0 }

/-- `fetch_server_info_metrics`, for what `/get_server_info` answers. -/
def SglangConnector.fetchServerInfoMetrics (ops : F64Ops) (kvBlockSize : BitVec 32)
    (now : Duration) (reply : Option (MetricsReply Json)) : Option BackendMetrics :=
  match reply with
  | some reply =>
    if reply.isSuccess then
      reply.body.map fun value => mapServerInfoMetrics ops value kvBlockSize (timestampMillis now)
    else none
  | none => none

/-- `SglangConnector::collect_metrics`. The clock is read once: for the server information if it can
be used, and for the metrics that are asked for instead if not. -/
def SglangConnector.collectMetrics (ops : F64Ops) (kvBlockSize : BitVec 32) (now : Duration)
    (info : Option (MetricsReply Json)) (reply : Option (MetricsReply String)) : BackendMetrics :=
  (fetchServerInfoMetrics ops kvBlockSize now info).getD
    (OpenAICompatConnector.collectMetrics ops now reply)

/-- A connector that collects metrics, and what its backend answers. -/
inductive MetricsSource where
  | openAiCompat (reply : Option (MetricsReply String))
  | sglang (kvBlockSize : BitVec 32) (info : Option (MetricsReply Json))
      (reply : Option (MetricsReply String))

/-- The metrics that a connector collects at a time. -/
def MetricsSource.collect (ops : F64Ops) (now : Duration) : MetricsSource → BackendMetrics
  | .openAiCompat reply => OpenAICompatConnector.collectMetrics ops now reply
  | .sglang kvBlockSize info reply =>
    SglangConnector.collectMetrics ops kvBlockSize now info reply

/-! ## The time stamp -/

variable {ops : F64Ops} {m : BackendMetrics}

theorem timestamp_applyPromLine (line : List Char) :
    (applyPromLine ops m line).timestamp = m.timestamp := by
  unfold applyPromLine
  dsimp only
  split
  · rfl
  · split
    · rename_i name value _
      unfold applyPromMetric
      split
      · rfl
      split
      · rfl
      split
      · rfl
      split
      · rfl
      · rfl
    · rfl

theorem timestamp_parsePrometheusMetrics (text : String) :
    (parsePrometheusMetrics ops text m).timestamp = m.timestamp := by
  unfold parsePrometheusMetrics
  induction Text.lines text.toList generalizing m with
  | nil => rfl
  | cons line lines ih => rw [List.foldl_cons, ih, timestamp_applyPromLine]

theorem timestamp_openAiCompat (now : Duration) (reply : Option (MetricsReply String)) :
    (OpenAICompatConnector.collectMetrics ops now reply).timestamp = timestampMillis now := by
  unfold OpenAICompatConnector.collectMetrics
  dsimp only
  split
  · split
    · exact timestamp_parsePrometheusMetrics _
    · rfl
  · rfl

/-- Every connector stamps its metrics with milliseconds. -/
theorem timestamp_collect (now : Duration) (source : MetricsSource) :
    (source.collect ops now).timestamp = timestampMillis now := by
  cases source with
  | openAiCompat reply => exact timestamp_openAiCompat now reply
  | sglang kvBlockSize info reply =>
    show (SglangConnector.collectMetrics ops kvBlockSize now info reply).timestamp = _
    unfold SglangConnector.collectMetrics SglangConnector.fetchServerInfoMetrics
    cases info with
    | none => exact timestamp_openAiCompat now reply
    | some info =>
      dsimp only
      split
      · cases info.body with
        | none => exact timestamp_openAiCompat now reply
        | some value => rfl
      · exact timestamp_openAiCompat now reply

end HierKvGateway
