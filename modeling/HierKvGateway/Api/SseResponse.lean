import HierKvGateway.Api.Stream
import HierKvGateway.Connector.SseParser

/-!
# Api.SseResponse — the answer that is sent event by event

`build_sse_response` chains the chunks of the backend between an event of its own and the last two:
a finish reason and `[DONE]`. If the chunks come to an end, the events are those of `sseEvents`
(`yields_buildSseResponse`), and the last is `[DONE]` (`reachesDone_of_yields`); if they do not,
`[DONE]` is never sent (`not_reachesDone`).

The chunks of an OpenAI-compatible backend do not come to an end: `SseParser.never_ends`.
-/

namespace HierKvGateway

/-- When a response is polled. -/
structure PollTime where
  /-- Since the stream of the backend was opened. -/
  elapsed : Duration
  /-- `Utc::now().timestamp()`. -/
  now : Int

/-- Where a response is: in the chunks of the backend, for which `σ` is the state, and in the events
before and after them. -/
abbrev SseResponse (σ : Type) := Option (Option (Option Bool × σ) × Bool) × Bool

/-- A response of which nothing has been polled. -/
def SseResponse.new {σ : Type} (chunks : σ) : SseResponse σ :=
  (some (some (some true, chunks), true), true)

variable {σ : Type} (created : Int) (rid model : String) (chunks : Poll PollTime σ InferenceChunk)

/-- The chunks in the stream of a response that was built at a time. -/
def responseChunks : Poll PollTime (Option (Option Bool × σ) × Bool) OpenAIChatChunk :=
  let first := OpenAIChatChunk.roleChunk created rid model
  let mapped := Polling.map (fun t chunk => chunkToOpenai t.now rid model chunk) chunks
  let finish := Polling.once fun t => OpenAIChatChunk.finishChunk t.now rid model "stop"
  Polling.chain (Polling.chain (Polling.once fun _ => first) mapped) finish

/-- The stream of `build_sse_response`. -/
def buildSseResponse : Poll PollTime (SseResponse σ) SseEvent :=
  Polling.chain
    (Polling.map (fun _ c => SseEvent.chunk c) (responseChunks created rid model chunks))
    (Polling.once fun _ => SseEvent.done)

variable {created rid model chunks} {s : σ} {time : Nat → PollTime}

/-- The end of the response is sent. -/
def ReachesDone (events : Nat → Option SseEvent) : Prop := ∃ n, events n = some .done

/-! ## Chunks that come to an end -/

/-- The events of chunks that come to an end. -/
theorem yields_buildSseResponse {l : List InferenceChunk}
    (h : Polling.Yields chunks (fun n => time (n + 1)) s l) :
    Polling.Yields (buildSseResponse (time 0).now rid model chunks) time (.new s)
      (sseEvents (fun n => (time n).now) rid model l) := by
  have hfirst : Polling.Yields _ time true [OpenAIChatChunk.roleChunk (time 0).now rid model] :=
    Polling.yields_once fun _ => OpenAIChatChunk.roleChunk (time 0).now rid model
  have hmapped := h.map (f := fun t chunk => chunkToOpenai t.now rid model chunk)
  have hfinish : Polling.Yields _ (fun n => time (n + (l.length + 1))) true _ :=
    Polling.yields_once fun t => OpenAIChatChunk.finishChunk t.now rid model "stop"
  have hlen (n : Nat) (cs : List OpenAIChatChunk) :
      n + (cs ++ l.mapIdx fun n c => chunkToOpenai (time (n + 1)).now rid model c).length =
        n + (cs.length + l.length) := by
    rw [List.length_append, List.length_mapIdx]
  have hchunks := (hfirst.chain hmapped).chain (by simpa [hlen] using hfinish)
  have hevents := hchunks.map (f := fun _ c => SseEvent.chunk c)
  have hevent (cs : List OpenAIChatChunk) :
      cs.mapIdx (fun _ c => SseEvent.chunk c) = cs.map SseEvent.chunk := by
    rw [← List.map_id (cs.mapIdx _)]
    exact SseEvent.map_mapIdx_eq_map (g := id) (k := SseEvent.chunk) (fun _ _ => rfl) cs
  rw [hevent] at hevents
  exact hevents.chain (Polling.yields_once fun _ => SseEvent.done)

/-- A response to chunks that come to an end comes to its own. -/
theorem reachesDone_of_yields {l : List InferenceChunk}
    (h : Polling.Yields chunks (fun n => time (n + 1)) s l) :
    ReachesDone
      (Polling.item (buildSseResponse (time 0).now rid model chunks) time (.new s)) := by
  have hmem : SseEvent.done ∈ sseEvents (fun n => (time n).now) rid model l :=
    List.mem_append_right _ (List.mem_singleton_self _)
  obtain ⟨n, hn, hdone⟩ := List.getElem_of_mem hmem
  refine ⟨n, ?_⟩
  rw [(yields_buildSseResponse h).item_lt hn, hdone]

/-! ## Chunks that do not -/

/-- A response to chunks without an end has no end. -/
theorem not_reachesDone (h : Polling.Endless chunks s) :
    ¬ ReachesDone (Polling.item (buildSseResponse created rid model chunks) time (.new s)) := by
  have hmapped : Polling.Endless (Polling.map _ chunks) s :=
    h.map (f := fun t chunk => chunkToOpenai t.now rid model chunk)
  have hchunks : Polling.Endless (responseChunks created rid model chunks)
      (some (some true, s), true) := (hmapped.chain_right (some true)).chain_left true
  rintro ⟨n, hn⟩
  unfold buildSseResponse SseResponse.new at hn
  rw [hchunks.map.item_chain, Polling.item_map] at hn
  obtain ⟨c, -, hc⟩ := Option.map_eq_some_iff.1 hn
  cases hc

/-- No poll finds the end of the stream of an OpenAI-compatible backend, and a response to it never
comes to `[DONE]`. -/
theorem SseParser.never_ends (fromStr : String → Option ChatCompletionChunk)
    (backendId : BackendId) (inner : List (Except String (List UInt8))) (elapsed : Nat → Duration)
    (time : Nat → PollTime) (created : Int) (rid model : String) :
    ¬ EndsOnce InferenceChunk.isDone
        (Polling.item (pollNext fromStr) elapsed (new inner backendId)) ∧
      ¬ ReachesDone (Polling.item
        (buildSseResponse created rid model fun t => pollNext fromStr t.elapsed) time
        (.new (new inner backendId))) := by
  constructor
  · rintro ⟨n, -, -, hnone⟩
    exact endless id _ elapsed (n + 1) (hnone (n + 1) (Nat.lt_succ_self n))
  · exact not_reachesDone (endless PollTime.elapsed _)

/-- The first two polls after `data: [DONE]` both yield an end chunk. -/
theorem done_repeated :
    ¬ ∀ (fromStr : String → Option ChatCompletionChunk) (backendId : BackendId)
      (fragments : List (List UInt8)) (elapsed : Nat → Duration),
      EndsOnce InferenceChunk.isDone
        (Polling.item (SseParser.pollNext fromStr) elapsed
          (.new (fragments.map .ok) backendId)) := by
  intro h
  obtain ⟨n, hbefore, -, hafter⟩ := h (fun _ => none) ⟨⟨"eu"⟩, ⟨"a"⟩⟩
    [Utf8.encode "data: [DONE]\n".toList] fun _ => .fromSecs 1
  cases n with
  | zero => exact absurd (hafter 1 Nat.one_pos) (by decide +kernel)
  | succ n =>
    obtain ⟨e, he, hnot⟩ := hbefore 0 n.succ_pos
    have hdone : Option.any InferenceChunk.isDone
        (Polling.item (SseParser.pollNext fun _ => none) (fun _ => .fromSecs 1)
          (.new ([Utf8.encode "data: [DONE]\n".toList].map .ok) ⟨⟨"eu"⟩, ⟨"a"⟩⟩) 0) = true := by
      decide +kernel
    rw [he, Option.any_some, hnot] at hdone
    exact absurd hdone Bool.false_ne_true

end HierKvGateway
