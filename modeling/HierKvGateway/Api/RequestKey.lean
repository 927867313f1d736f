import HierKvGateway.Api.SingleFlight
import HierKvGateway.Cluster.JsonText
import HierKvGateway.Core.ExtRat

/-!
# Api.RequestKey — a coalesced answer answers the request

Requests are coalesced by `request_key`, a hash of the JSON text of the whole body
(`coalescer.rs`). The text tells the body (`serialized_inj`): nothing of a request is left out of
it, and nothing in it can be read in two ways.

`answers_own_request`: so in every state of every interleaving, callers that give up included, a
call that waits does so for the leader of an equal request, and it is answered with what was
produced for that one, unless the hash collides on two different texts. And while calls wait for a
producer, no calls wait for another one for an equal request.
-/

namespace HierKvGateway

/-- A JSON value as it is received. -/
def JsonValue := {v : Json // v.WellFormed}

/-- A tool as it is received; its parameters are any JSON value. -/
structure ReceivedTool where
  toolType : String
  name : String
  description : String
  parameters : JsonValue

/-- The body of a request as it is received: JSON has no infinities and no NaN. -/
structure ReceivedRequest (F : Type) [Floating F] where
  model : String
  messages : List ChatMessage
  maxTokens : BitVec 32
  temperature : F
  finite : Floating.isFinite temperature = true
  stream : Bool
  tools : List ReceivedTool
  loraName : Option String
  session : Option String
  tokenIds : List (BitVec 32)

/-- How finite numbers are written: two of them never in the same way. -/
structure FloatText (F : Type) [Floating F] where
  text : F → String
  number : ∀ x, Floating.isFinite x = true → Json.NumberText (text x)
  injective : ∀ x y, Floating.isFinite x = true → Floating.isFinite y = true →
    text x = text y → x = y

/-- The request that the handler works with. -/
def ReceivedRequest.toRequest {F : Type} [Floating F] (r : ReceivedRequest F) :
    OpenAIChatRequest F where
  model := r.model
  messages := r.messages
  maxTokens := r.maxTokens
  temperature := r.temperature
  stream := r.stream
  tools := r.tools.map fun t =>
    ⟨t.toolType, t.name, t.description, String.ofList t.parameters.val.compact⟩
  loraName := r.loraName
  session := r.session
  tokenIds := r.tokenIds

/-! ## Serialization -/

/-- The JSON of a message. -/
def ChatMessage.toJson (m : ChatMessage) : Json :=
  .object [("role", .string m.role), ("content", .string m.content)]

/-- The JSON of a tool. -/
def ReceivedTool.toJson (t : ReceivedTool) : Json :=
  .object [("type", .string t.toolType),
    ("function", .object [("name", .string t.name), ("description", .string t.description),
      ("parameters", t.parameters.val)])]

namespace ReceivedRequest

variable {F : Type} [Floating F] (f64 : FloatText F)

/-- The JSON of a token sequence; an empty one is left out. -/
def tokensField (tokens : List (BitVec 32)) : List (String × Json) :=
  if tokens.isEmpty then [] else [("token_ids", .array (tokens.map fun t => .ofNat t.toNat))]

/-- The JSON of a body (`Serialize`). -/
def toJson (r : ReceivedRequest F) : Json :=
  .object <|
    [("model", .string r.model), ("messages", .array (r.messages.map ChatMessage.toJson)),
      ("max_tokens", .ofNat r.maxTokens.toNat), ("temperature", .number (f64.text r.temperature)),
      ("stream", .bool r.stream), ("tools", .array (r.tools.map ReceivedTool.toJson))] ++
    Json.field "lora_name" .string r.loraName ++ Json.field "session" .string r.session ++ tokensField r.tokenIds

/-- `serde_json::to_vec`. -/
def serialized (r : ReceivedRequest F) : List UInt8 := Utf8.encode (r.toJson f64).compact

/-- `request_key`, with the hasher of the standard library. -/
def requestKey (hasher : List UInt8 → BitVec 64) (r : ReceivedRequest F) : BitVec 64 :=
  hasher (r.serialized f64)

/-! ## The text tells the body -/

theorem wellFormed_tool (t : ReceivedTool) : t.toJson.WellFormed := by
  have hparameters := t.parameters.property
  simp [ReceivedTool.toJson, Json.WellFormed, Json.WellFormedFields, hparameters]

theorem wellFormed_toJson (r : ReceivedRequest F) : (r.toJson f64).WellFormed := by
  have htemperature := f64.number r.temperature r.finite
  have htools : ∀ v ∈ r.tools.map ReceivedTool.toJson, v.WellFormed := by
    intro v hv
    rcases List.mem_map.1 hv with ⟨t, -, rfl⟩
    exact wellFormed_tool t
  have hmessages : ∀ v ∈ r.messages.map ChatMessage.toJson, v.WellFormed := by
    intro v hv
    rcases List.mem_map.1 hv with ⟨m, -, rfl⟩
    simp [ChatMessage.toJson, Json.WellFormed, Json.WellFormedFields]
  have htokens : ∀ v ∈ r.tokenIds.map fun t => Json.ofNat t.toNat, v.WellFormed := by
    intro v hv
    rcases List.mem_map.1 hv with ⟨t, -, rfl⟩
    rw [Json.ofNat, Json.WellFormed]
    exact Json.numberText_ofNat t.toNat
  rw [toJson, Json.WellFormed, Json.wellFormedFields_iff]
  intro field hfield
  simp only [Json.field, tokensField, List.mem_append, List.mem_cons, List.mem_map,
    Option.mem_toList, List.not_mem_nil, or_false] at hfield
  rcases hfield with (((rfl | rfl | rfl | rfl | rfl | rfl) | ⟨_, -, rfl⟩) | ⟨_, -, rfl⟩) | hfield
  · simp [Json.WellFormed]
  · rw [Json.WellFormed, Json.wellFormedItems_iff]
    exact hmessages
  · rw [Json.ofNat, Json.WellFormed]
    exact Json.numberText_ofNat _
  · rw [Json.WellFormed]
    exact htemperature
  · simp [Json.WellFormed]
  · rw [Json.WellFormed, Json.wellFormedItems_iff]
    exact htools
  · simp [Json.WellFormed]
  · simp [Json.WellFormed]
  · split at hfield
    · exact absurd hfield List.not_mem_nil
    · rw [List.mem_singleton.1 hfield, Json.WellFormed, Json.wellFormedItems_iff]
      exact htokens

theorem lookup_tokensField (key : String) (tokens : List (BitVec 32)) :
    (tokensField tokens).lookup key =
      if key = "token_ids" ∧ tokens ≠ [] then
        some (.array (tokens.map fun t => .ofNat t.toNat))
      else none := by
  unfold tokensField
  cases tokens with
  | nil => simp
  | cons t tokens =>
    rw [if_neg (by simp), List.lookup_cons]
    by_cases h : key = "token_ids"
    · rw [beq_iff_eq.2 h, if_pos ⟨h, List.cons_ne_nil t tokens⟩]
    · rw [beq_eq_false_iff_ne.2 h, if_neg fun hand => h hand.1]
      rfl

/-- A field is found among the first ones, or among those that may be left out. -/
theorem get_toJson (key : String) (r : ReceivedRequest F) :
    (r.toJson f64).get key =
      ((([("model", .string r.model), ("messages", .array (r.messages.map ChatMessage.toJson)),
        ("max_tokens", .ofNat r.maxTokens.toNat), ("temperature", .number (f64.text r.temperature)),
        ("stream", .bool r.stream),
        ("tools", .array (r.tools.map ReceivedTool.toJson))].lookup key).or
        (if key = "lora_name" then r.loraName.map .string else none)).or
        (if key = "session" then r.session.map .string else none)).or
        (if key = "token_ids" ∧ r.tokenIds ≠ [] then
          some (.array (r.tokenIds.map fun t => .ofNat t.toNat))
        else none) := by
  rw [toJson, Json.get, List.lookup_append, List.lookup_append, List.lookup_append,
    Json.lookup_field, Json.lookup_field, lookup_tokensField]

theorem toJson_message_inj : Function.Injective ChatMessage.toJson := by
  rintro ⟨role, content⟩ ⟨role', content'⟩ h
  simpa [ChatMessage.toJson] using h

theorem toJson_tool_inj : Function.Injective ReceivedTool.toJson := by
  rintro ⟨toolType, name, description, parameters⟩ ⟨toolType', name', description', parameters'⟩ h
  simp only [ReceivedTool.toJson, Json.object.injEq, List.cons.injEq, Prod.mk.injEq,
    Json.string.injEq, true_and, and_true] at h
  rcases h with ⟨rfl, rfl, rfl, hparameters⟩
  rw [Subtype.ext hparameters]

theorem toJson_token_inj : Function.Injective fun t : BitVec 32 => Json.ofNat t.toNat :=
  fun _ _ h => BitVec.eq_of_toNat_eq (Json.ofNat_inj h)

/-- Token sequences are equal if both are left out, or both are written alike. -/
theorem tokens_inj {tokens tokens' : List (BitVec 32)}
    (h : (if tokens = [] then none
        else some (Json.array (tokens.map fun t => .ofNat t.toNat))) =
      if tokens' = [] then none
        else some (Json.array (tokens'.map fun t => .ofNat t.toNat))) : tokens = tokens' := by
  by_cases hnil : tokens = []
  · by_cases hnil' : tokens' = []
    · rw [hnil, hnil']
    · rw [if_pos hnil, if_neg hnil'] at h
      exact nomatch h
  · by_cases hnil' : tokens' = []
    · rw [if_neg hnil, if_pos hnil'] at h
      exact nomatch h
    · rw [if_neg hnil, if_neg hnil'] at h
      exact List.map_injective_iff.2 toJson_token_inj (Json.array.inj (Option.some.inj h))

/-- The JSON of a body tells the body. -/
theorem toJson_inj {r r' : ReceivedRequest F} (h : r.toJson f64 = r'.toJson f64) : r = r' := by
  have hget (key : String) : (r.toJson f64).get key = (r'.toJson f64).get key := by
    rw [h]
  have hstring : Function.Injective Json.string := fun _ _ hs => Json.string.inj hs
  have hmodel : r.model = r'.model := by
    simpa [get_toJson, List.lookup_cons] using hget "model"
  have hmessages : r.messages.map ChatMessage.toJson = r'.messages.map ChatMessage.toJson := by
    simpa [get_toJson, List.lookup_cons] using hget "messages"
  have hmax : Json.ofNat r.maxTokens.toNat = Json.ofNat r'.maxTokens.toNat := by
    simpa [get_toJson, List.lookup_cons] using hget "max_tokens"
  have htemperature : f64.text r.temperature = f64.text r'.temperature := by
    simpa [get_toJson, List.lookup_cons] using hget "temperature"
  have hstream : r.stream = r'.stream := by
    simpa [get_toJson, List.lookup_cons] using hget "stream"
  have htools : r.tools.map ReceivedTool.toJson = r'.tools.map ReceivedTool.toJson := by
    simpa [get_toJson, List.lookup_cons] using hget "tools"
  have hlora : r.loraName.map Json.string = r'.loraName.map Json.string := by
    simpa [get_toJson, List.lookup_cons] using hget "lora_name"
  have hsession : r.session.map Json.string = r'.session.map Json.string := by
    simpa [get_toJson, List.lookup_cons] using hget "session"
  have htokens : r.tokenIds = r'.tokenIds := by
    refine tokens_inj ?_
    simpa [get_toJson, List.lookup_cons] using hget "token_ids"
  cases r
  cases r'
  simp only [mk.injEq]
  exact ⟨hmodel, List.map_injective_iff.2 toJson_message_inj hmessages, toJson_token_inj hmax,
    f64.injective _ _ (by assumption) (by assumption) htemperature, hstream,
    List.map_injective_iff.2 toJson_tool_inj htools, Option.map_injective hstring hlora,
    Option.map_injective hstring hsession, htokens⟩

/-- So does its text. -/
theorem serialized_inj {r r' : ReceivedRequest F} (h : r.serialized f64 = r'.serialized f64) :
    r = r' := by
  have htext : (r.toJson f64).compact = (r'.toJson f64).compact := by
    rw [← Utf8.lossy_encode (r.toJson f64).compact, ← Utf8.lossy_encode (r'.toJson f64).compact]
    exact congrArg Utf8.lossy h
  exact toJson_inj f64 (Json.compact_inj (wellFormed_toJson f64 r) (wellFormed_toJson f64 r') htext)

/-- The hash collides on the texts of two requests. -/
def Collide (hasher : List UInt8 → BitVec 64) (r r' : ReceivedRequest F) : Prop :=
  r.serialized f64 ≠ r'.serialized f64 ∧ hasher (r.serialized f64) = hasher (r'.serialized f64)

/-- Requests with one key are one request, or the hash collides on them. -/
theorem eq_or_collide {hasher : List UInt8 → BitVec 64} {r r' : ReceivedRequest F}
    (h : r.requestKey f64 hasher = r'.requestKey f64 hasher) : r = r' ∨ Collide f64 hasher r r' := by
  by_cases htext : r.serialized f64 = r'.serialized f64
  · exact Or.inl (serialized_inj f64 htext)
  · exact Or.inr ⟨htext, h⟩

end ReceivedRequest

/-! ### Exact numbers -/

namespace FloatText

/-- An exact number as the quotient of two integers, the second behind an `e`. -/
def quotient (q : Rat) : List Char :=
  (if q.num < 0 then ['-'] else []) ++ Nat.toDigits 10 q.num.natAbs ++ 'e' :: Nat.toDigits 10 q.den

theorem numberChar_quotient {q : Rat} {c : Char} (hc : c ∈ quotient q) :
    Json.numberChar c = true := by
  unfold quotient at hc
  rw [List.mem_append, List.mem_append, List.mem_cons] at hc
  rcases hc with (hc | hc) | rfl | hc
  · split at hc
    · rw [List.mem_singleton.1 hc]
      rfl
    · exact absurd hc List.not_mem_nil
  · exact Json.numberChar_of_digit hc
  · rfl
  · exact Json.numberChar_of_digit hc

theorem readable_digits : Readable (Nat.toDigits 10) (fun _ => True) (StartsWith 'e') := by
  have htake : ∀ (n : Nat) (s : List Char), StartsWith 'e' s →
      (Nat.toDigits 10 n ++ s).takeWhile (·.isDigit) = Nat.toDigits 10 n := by
    intro n s hs
    rcases List.head?_eq_some_iff.1 hs with ⟨s', rfl⟩
    rw [List.takeWhile_append_of_pos
      fun c hc => Nat.isDigit_of_mem_toDigits (by decide) (by decide) hc]
    exact List.append_nil _
  intro m n s t _ _ hs ht heq
  have hdigits : Nat.toDigits 10 m = Nat.toDigits 10 n := by
    rw [← htake m s hs, heq, htake n t ht]
  rw [hdigits] at heq
  exact ⟨Json.toDigits_inj hdigits, List.append_cancel_left heq⟩

theorem quotient_inj {p q : Rat} (h : quotient p = quotient q) : p = q := by
  unfold quotient at h
  have hparts : p.num.natAbs = q.num.natAbs ∧ p.den = q.den ∧ (p.num < 0 ↔ q.num < 0) := by
    by_cases hp : p.num < 0
    · by_cases hq : q.num < 0
      · rw [if_pos hp, if_pos hq, List.append_assoc, List.append_assoc] at h
        rcases readable_digits _ _ ('e' :: _) ('e' :: _) trivial trivial rfl rfl (List.cons.inj h).2
          with ⟨hnum, hden⟩
        exact ⟨hnum, Json.toDigits_inj (List.cons.inj hden).2, by simp [hp, hq]⟩
      · rw [if_pos hp, if_neg hq, List.nil_append, List.append_assoc] at h
        exact absurd h (Json.digits_ne_minus _ _ _)
    · by_cases hq : q.num < 0
      · rw [if_neg hp, if_pos hq, List.nil_append, List.append_assoc] at h
        exact absurd h.symm (Json.digits_ne_minus _ _ _)
      · rw [if_neg hp, if_neg hq] at h
        rcases readable_digits _ _ ('e' :: _) ('e' :: _) trivial trivial rfl rfl h with ⟨hnum, hden⟩
        exact ⟨hnum, Json.toDigits_inj (List.cons.inj hden).2, by simp [hp, hq]⟩
  rcases hparts with ⟨hnum, hden, hsign⟩
  exact Rat.ext (by omega) hden

/-- The text of an exact number. -/
def exact : FloatText ExtRat where
  text
    | .num q => String.ofList (quotient q)
    | _ => ""
  number x hx := by
    cases x with
    | num q =>
      unfold Json.NumberText
      rw [String.toList_ofList]
      refine ⟨?_, fun c hc => numberChar_quotient hc⟩
      unfold quotient
      simp
    | _ => exact nomatch hx
  injective x y hx hy h := by
    cases x with
    | num p =>
      cases y with
      | num q => rw [quotient_inj (String.ofList_injective h)]
      | _ => exact nomatch hy
    | _ => exact nomatch hx

end FloatText

/-! ## Coalesced calls -/

namespace CoalescerState

open ReceivedRequest

variable {F : Type} [Floating F] (f64 : FloatText F) (hasher : List UInt8 → BitVec 64)
  {ι : Type} (req : ι → ReceivedRequest F)

/-- The requests of two calls are equal, or the hash collides on them. -/
def SameRequest (c c' : ι) : Prop := req c = req c' ∨ Collide f64 hasher (req c) (req c')

/-- What holds of the requests of the calls. -/
structure AnswersOwn (s : CoalescerState ι) : Prop where
  /-- A call waits for the leader of its own request. -/
  waits : ∀ c leader since, s.phase c = .attached leader since →
    SameRequest f64 hasher req leader c
  /-- It is answered with what was produced for its own request. -/
  answer : ∀ c leader since result, s.phase c = .answered leader since result →
    SameRequest f64 hasher req leader c ∧ ∃ t, s.completed leader = some (t, result)
  /-- Of the producers that are waited for, one is for a request. -/
  once : ∀ c c', req c = req c' → s.Driven c → s.Driven c' → c = c'

variable [DecidableEq ι] {cfg : CoalescingConfig} {s : CoalescerState ι}

/-- The calls of the handler, each with the key of its request. -/
abbrev requests (cfg : CoalescingConfig) : Lts (CoalescerState ι) (Label ι) :=
  droppable cfg fun c => (req c).requestKey f64 hasher

/-- In every state of every interleaving, calls are answered for their own requests. -/
theorem answers_own_request (hs : (requests f64 hasher req cfg).Reachable s) :
    AnswersOwn f64 hasher req s := by
  have ho := owned_droppable hs
  constructor
  · intro c leader since hc
    exact eq_or_collide f64 (ho.attached c leader since hc).1
  · intro c leader since result hc
    rcases ho.answered c leader since result hc with ⟨hkey, hdone⟩
    exact ⟨eq_or_collide f64 hkey, hdone⟩
  · intro c c' hreq hc hc'
    have hkey : (req c).requestKey f64 hasher = (req c').requestKey f64 hasher := by
      rw [hreq]
    exact ho.oneDriven hkey hc hc'

/-! ### Three calls -/

/-- A request for the completion of one message. -/
def asking (content : String) : ReceivedRequest ExtRat where
  model := "m"
  messages := [⟨"user", content⟩]
  maxTokens := 16
  temperature := .num (1 / 2)
  finite := rfl
  stream := false
  tools := []
  loraName := none
  session := none
  tokenIds := []

/-- The third call asks something else. -/
def asked : Call → ReceivedRequest ExtRat
  | .first => asking "hi"
  | .second => asking "hi"
  | .third => asking "hello"

/-- A hash that tells texts apart by their length. -/
def lengthHasher (bytes : List UInt8) : BitVec 64 := BitVec.ofNat 64 bytes.length

/-- The second call waits for the first, which is dropped, and gets its answer; the third has a
producer of its own. -/
theorem answers_own_request_threeCalls :
    let s := (requests FloatText.exact lengthHasher asked CoalescerState.cfg).run start
      [.call .first, .attach .first, .call .second, .attach .second, .call .third, .attach .third,
        .drop .first, .complete .second (.error ⟨"e"⟩), .resume .second]
    AnswersOwn FloatText.exact lengthHasher asked s ∧
      s.phase .second = .answered .first 0 (.error ⟨"e"⟩) ∧ s.phase .third = .attached .third 0 := by
  have hstart : (requests FloatText.exact lengthHasher asked CoalescerState.cfg).Reachable start :=
    Lts.Reachable.init (S := requests FloatText.exact lengthHasher asked CoalescerState.cfg)
      initial_start
  refine ⟨answers_own_request FloatText.exact lengthHasher asked
    (hstart.run (by decide +kernel)), ?_, ?_⟩
  · decide +kernel
  · decide +kernel

end CoalescerState

end HierKvGateway
