import HierKvGateway.Cluster.Frames
import HierKvGateway.Core.Text
import HierKvGateway.Core.Utf8

/-!
# Cluster.FrameSize — every publication fits into a frame

The text `serde_json` writes of a value (`Json.compact`), the JSON of the two messages that carry
a lane, and how long it gets. A lane has 65536 buckets. A barrier writes each of them as up to 20
digits, a delta each dirty one with its index in a pair of brackets, so that beside the region the
longest delta has less than two of the four mebibytes of a frame.

`KvRelay.publications_fit`: whatever the producer holds, what it publishes is within the limit.
-/

namespace HierKvGateway

namespace Json

open Text (byteLen byteLen_append byteLen_cons)

/-! ## The text of a value -/

/-- A character in a string. -/
def escapeChar (c : Char) : List Char :=
  if c = '"' then ['\\', '"']
  else if c = '\\' then ['\\', '\\']
  else if c = '\x08' then ['\\', 'b']
  else if c = '\t' then ['\\', 't']
  else if c = '\n' then ['\\', 'n']
  else if c = '\x0c' then ['\\', 'f']
  else if c = '\r' then ['\\', 'r']
  else if c.toNat < 32 then
    ['\\', 'u', '0', '0', Nat.digitChar (c.toNat / 16), Nat.digitChar (c.toNat % 16)]
  else [c]

/-- The characters of a string. -/
def escape (s : String) : List Char := s.toList.flatMap escapeChar

/-- A string in quotes. -/
def quoted (s : String) : List Char := '"' :: (escape s ++ ['"'])

mutual

/-- The text of a value, without white space (`serde_json::to_string`). -/
def compact : Json → List Char
  | .null => "null".toList
  | .bool b => (if b then "true" else "false").toList
  | .number text => text.toList
  | .string s => quoted s
  | .array items => '[' :: (compactItems items ++ [']'])
  | .object fields => '{' :: (compactFields fields ++ ['}'])

/-- The items of an array, with commas between them. -/
def compactItems : List Json → List Char
  | [] => []
  | item :: items =>
    compact item ++ (if items.isEmpty then [] else [',']) ++ compactItems items

/-- The fields of an object, with commas between them. -/
def compactFields : List (String × Json) → List Char
  | [] => []
  | (key, value) :: fields =>
    quoted key ++ ':' :: compact value ++ (if fields.isEmpty then [] else [',']) ++
      compactFields fields

end

example : compact (.object [("a", .array [.null, .number "30"]), ("b", .string "\"\n")]) =
    "\x7b\"a\":[null,30],\"b\":\"\\\"\\n\"\x7d".toList := by
  decide

/-- An unsigned integer. -/
def ofNat (n : Nat) : Json := .number (toString n)

/-! ## Its length -/

theorem byteLen_comma (b : Bool) : byteLen (if b then [] else [',']) ≤ 1 := by
  cases b with
  | false => exact Nat.le_refl 1
  | true => exact Nat.zero_le 1

theorem byteLen_quoted (s : String) : byteLen (quoted s) = byteLen (escape s) + 2 := by
  show 1 + byteLen (escape s ++ ['"']) = byteLen (escape s) + 2
  rw [byteLen_append]
  show 1 + (byteLen (escape s) + 1) = byteLen (escape s) + 2
  omega

/-- A digit is one byte long. -/
theorem byteLen_toDigits (n : Nat) : byteLen (Nat.toDigits 10 n) = (Nat.toDigits 10 n).length := by
  have hsize : ∀ c ∈ Nat.toDigits 10 n, c.utf8Size = 1 := by
    intro c hc
    -- the digits are ASCII
    have hdigit := Nat.isDigit_of_mem_toDigits (by decide) (by decide) hc
    have hle : c.val ≤ 57 := by
      unfold Char.isDigit at hdigit
      simp only [Bool.and_eq_true, decide_eq_true_eq] at hdigit
      exact hdigit.2
    have hascii : (57 : UInt32) ≤ 127 := by decide
    exact Char.utf8Size_eq_one_iff.2 (UInt32.le_trans hle hascii)
  unfold byteLen
  rw [List.map_congr_left hsize, List.map_const', List.sum_replicate, smul_eq_mul, mul_one]

/-- A number below a power of ten has as many digits at most. -/
theorem byteLen_ofNat {n k : Nat} (hk : 0 < k) (hn : n < 10 ^ k) :
    byteLen (ofNat n).compact ≤ k := by
  have htext : (ofNat n).compact = Nat.toDigits 10 n := by
    show (toString n).toList = _
    exact Nat.toList_repr
  rw [htext, byteLen_toDigits, Nat.length_toDigits_le_iff (by decide) hk]
  exact hn

theorem byteLen_u64 (n : BitVec 64) : byteLen (ofNat n.toNat).compact ≤ 20 := by
  have hlt := n.isLt
  exact byteLen_ofNat (by decide) (by omega)

/-- Items of at most `b` bytes, each with a comma. -/
theorem byteLen_compactItems {items : List Json} {b : Nat}
    (h : ∀ item ∈ items, byteLen item.compact ≤ b) :
    byteLen (compactItems items) ≤ items.length * (b + 1) := by
  induction items with
  | nil => exact Nat.zero_le _
  | cons item items ih =>
    have hitem := h item (List.mem_cons_self ..)
    have hitems := ih fun j hj => h j (List.mem_cons_of_mem _ hj)
    have hcomma := byteLen_comma items.isEmpty
    unfold compactItems
    rw [byteLen_append, byteLen_append, List.length_cons, Nat.add_one_mul]
    omega

theorem byteLen_array {items : List Json} {b : Nat}
    (h : ∀ item ∈ items, byteLen item.compact ≤ b) :
    byteLen (compact (.array items)) ≤ items.length * (b + 1) + 2 := by
  have hitems := byteLen_compactItems h
  unfold compact
  rw [byteLen_cons, byteLen_append]
  show 1 + (byteLen (compactItems items) + 1) ≤ _
  omega

/-- An array of two. -/
theorem byteLen_pair (x y : Json) :
    byteLen (compact (.array [x, y])) = byteLen x.compact + byteLen y.compact + 3 := by
  show byteLen ('[' :: (x.compact ++ [','] ++ (y.compact ++ [] ++ []) ++ [']'])) = _
  have hopen : Char.utf8Size '[' = 1 := rfl
  have hcomma : byteLen [','] = 1 := rfl
  have hclose : byteLen [']'] = 1 := rfl
  rw [List.append_nil, List.append_nil, byteLen_cons, byteLen_append, byteLen_append,
    byteLen_append]
  omega

/-- What a field takes: its key in quotes, a colon, its value and a comma. -/
def fieldLen (field : String × Json) : Nat :=
  byteLen (escape field.1) + byteLen field.2.compact + 4

theorem byteLen_compactFields (fields : List (String × Json)) :
    byteLen (compactFields fields) ≤ (fields.map fieldLen).sum := by
  induction fields with
  | nil => exact Nat.le_refl 0
  | cons field fields ih =>
    obtain ⟨key, value⟩ := field
    have hcomma := byteLen_comma fields.isEmpty
    have hkey := byteLen_quoted key
    have hcolon : Char.utf8Size ':' = 1 := rfl
    have hfield : fieldLen (key, value) = byteLen (escape key) + byteLen value.compact + 4 := rfl
    rw [compactFields, byteLen_append, byteLen_append, byteLen_append, byteLen_cons, List.map_cons,
      List.sum_cons, hfield]
    omega

theorem byteLen_object (fields : List (String × Json)) :
    byteLen (compact (.object fields)) ≤ (fields.map fieldLen).sum + 2 := by
  have hfields := byteLen_compactFields fields
  unfold compact
  rw [byteLen_cons, byteLen_append]
  show 1 + (byteLen (compactFields fields) + 1) ≤ _
  omega

theorem byteLen_string (s : String) : byteLen (compact (.string s)) = byteLen (escape s) + 2 :=
  byteLen_quoted s

end Json

/-! ## The messages of a lane -/

/-- The JSON of a pool. -/
def PoolId.toJson (pool : PoolId) : Json :=
  .object [("domain", .ofNat pool.domain.val.toNat), ("region", .string pool.region.str)]

/-- The JSON of a message, with its name in the field `type`. -/
def ClusterMessage.toJson : ClusterMessage → Json
  | .ckfBarrierSnapshot pool sequence buckets numBuckets =>
    .object [("type", .string "ckf_barrier_snapshot"), ("pool", pool.toJson),
      ("sequence", .ofNat sequence.toNat), ("buckets", .array (buckets.map (.ofNat ·.toNat))),
      ("num_buckets", .ofNat numBuckets)]
  | .ckfDelta pool sequence prevSequence dirtyBuckets =>
    .object [("type", .string "ckf_delta"), ("pool", pool.toJson),
      ("sequence", .ofNat sequence.toNat), ("prev_sequence", .ofNat prevSequence.toNat),
      ("dirty_buckets", .array (dirtyBuckets.map fun d => .array [.ofNat d.1, .ofNat d.2.toNat]))]

section Size

open Text (byteLen)

variable {pool : PoolId} {sequence prevSequence : BitVec 64} {b : Nat}

theorem PoolId.byteLen_toJson (h : byteLen (Json.escape pool.region.str) ≤ b) :
    byteLen pool.toJson.compact ≤ b + 44 := by
  have hdomain : byteLen (Json.escape "domain") = 6 := by decide
  have hregion : byteLen (Json.escape "region") = 6 := by decide
  have hnumber := Json.byteLen_u64 pool.domain.val
  have hobject := Json.byteLen_object
    [("domain", .ofNat pool.domain.val.toNat), ("region", .string pool.region.str)]
  simp only [List.map_cons, List.map_nil, List.sum_cons, List.sum_nil, Json.fieldLen,
    Json.byteLen_string] at hobject
  unfold PoolId.toJson
  omega

/-- A barrier has 21 bytes for each bucket. -/
theorem ClusterMessage.byteLen_barrier {buckets : List PackedBucket}
    (hpool : byteLen (Json.escape pool.region.str) ≤ b) :
    byteLen (toJson (.ckfBarrierSnapshot pool sequence buckets bucketsPerLane)).compact ≤
      buckets.length * 21 + b + 200 := by
  have hlabels : byteLen (Json.escape "type") = 4 ∧ byteLen (Json.escape "pool") = 4 ∧
      byteLen (Json.escape "sequence") = 8 ∧ byteLen (Json.escape "buckets") = 7 ∧
      byteLen (Json.escape "num_buckets") = 11 ∧
      byteLen (Json.escape "ckf_barrier_snapshot") = 20 := by
    decide
  have hbucket : ∀ item ∈ buckets.map (Json.ofNat ·.toNat), byteLen item.compact ≤ 20 := by
    intro item hitem
    obtain ⟨n, -, rfl⟩ := List.mem_map.1 hitem
    exact Json.byteLen_u64 n
  have hbuckets := Json.byteLen_array hbucket
  rw [List.length_map] at hbuckets
  have hpool' := PoolId.byteLen_toJson hpool
  have hsequence := Json.byteLen_u64 sequence
  have hnum : byteLen (Json.ofNat bucketsPerLane).compact = 5 := by decide
  -- beside the buckets and the region there are less than 200 bytes
  have hobject := Json.byteLen_object
    [("type", .string "ckf_barrier_snapshot"), ("pool", pool.toJson),
      ("sequence", .ofNat sequence.toNat), ("buckets", .array (buckets.map (.ofNat ·.toNat))),
      ("num_buckets", .ofNat bucketsPerLane)]
  simp only [List.map_cons, List.map_nil, List.sum_cons, List.sum_nil, Json.fieldLen,
    Json.byteLen_string] at hobject
  rw [toJson]
  omega

/-- A delta has 29 bytes for each dirty bucket: its index, below 100000, its value, brackets and
commas. -/
theorem ClusterMessage.byteLen_delta {dirtyBuckets : List (Nat × PackedBucket)}
    (hpool : byteLen (Json.escape pool.region.str) ≤ b)
    (hindex : ∀ d ∈ dirtyBuckets, d.1 < 100000) :
    byteLen (toJson (.ckfDelta pool sequence prevSequence dirtyBuckets)).compact ≤
      dirtyBuckets.length * 29 + b + 200 := by
  have hlabels : byteLen (Json.escape "type") = 4 ∧ byteLen (Json.escape "pool") = 4 ∧
      byteLen (Json.escape "sequence") = 8 ∧ byteLen (Json.escape "prev_sequence") = 13 ∧
      byteLen (Json.escape "dirty_buckets") = 13 ∧ byteLen (Json.escape "ckf_delta") = 9 := by
    decide
  have hdirty : ∀ item ∈ dirtyBuckets.map fun d => .array [.ofNat d.1, .ofNat d.2.toNat],
      byteLen (Json.compact item) ≤ 28 := by
    intro item hitem
    obtain ⟨d, hd, rfl⟩ := List.mem_map.1 hitem
    have hi : byteLen (Json.ofNat d.1).compact ≤ 5 := Json.byteLen_ofNat (by decide) (hindex d hd)
    have hv := Json.byteLen_u64 d.2
    rw [Json.byteLen_pair]
    omega
  have hdirtyBuckets := Json.byteLen_array hdirty
  rw [List.length_map] at hdirtyBuckets
  have hpool' := PoolId.byteLen_toJson hpool
  have hsequence := Json.byteLen_u64 sequence
  have hprev := Json.byteLen_u64 prevSequence
  have hobject := Json.byteLen_object
    [("type", .string "ckf_delta"), ("pool", pool.toJson), ("sequence", .ofNat sequence.toNat),
      ("prev_sequence", .ofNat prevSequence.toNat),
      ("dirty_buckets", .array (dirtyBuckets.map fun d => .array [.ofNat d.1, .ofNat d.2.toNat]))]
  simp only [List.map_cons, List.map_nil, List.sum_cons, List.sum_nil, Json.fieldLen,
    Json.byteLen_string] at hobject
  rw [toJson]
  omega

/-- The bytes of a text. -/
theorem length_encode (cs : List Char) : (Utf8.encode cs).length = byteLen cs := by
  unfold Utf8.encode byteLen
  rw [List.length_flatMap]
  exact congrArg List.sum (List.map_congr_left fun c _ => String.length_utf8EncodeChar c)

/-- A delta has the dirty buckets, each once. -/
theorem CkfProducer.delta_buckets {p : CkfProducer} {d : CkfDelta} (h : p.delta.2 = some d) :
    d.buckets = p.dirtyBuckets.sort.map fun i => (i.val, p.buckets i) := by
  by_cases hdirty : p.dirtyBuckets = ∅
  · rw [CkfProducer.delta_none hdirty] at h
    exact absurd h.symm (Option.some_ne_none d)
  · rw [CkfProducer.delta_some hdirty] at h
    obtain rfl := Option.some.inj h
    rfl

namespace KvRelay

variable {p : CkfProducer} {e : Publication}

/-- What `publish_barrier` sends has every bucket once. -/
theorem byteLen_publishBarrier (hpool : byteLen (Json.escape pool.region.str) ≤ b) :
    byteLen (publishBarrier pool p).2.message.toJson.compact ≤ 65536 * 29 + b + 200 := by
  have hbuckets : p.snapshot.2.buckets.length = 65536 := by
    rw [CkfProducer.snapshot_buckets, List.length_ofFn]
  have hbarrier : byteLen (ClusterMessage.toJson (.ckfBarrierSnapshot pool p.snapshot.2.sequence
      p.snapshot.2.buckets bucketsPerLane)).compact ≤ p.snapshot.2.buckets.length * 21 + b + 200 :=
    ClusterMessage.byteLen_barrier hpool
  rw [hbuckets] at hbarrier
  unfold publishBarrier
  dsimp only
  omega

/-- What `flush` sends has every dirty bucket once, and so no more than there are. -/
theorem byteLen_flushPool (hpool : byteLen (Json.escape pool.region.str) ≤ b)
    (he : (flushPool pool p).2 = some e) :
    byteLen e.message.toJson.compact ≤ 65536 * 29 + b + 200 := by
  rcases flushPool_cases pool p with ⟨-, hp⟩ | ⟨d, hd, hp⟩
  · rw [hp] at he
    exact absurd he.symm (Option.some_ne_none e)
  rw [hp] at he
  obtain rfl := Option.some.inj he
  have hbuckets := CkfProducer.delta_buckets hd
  have hindex : ∀ entry ∈ d.buckets, entry.1 < 100000 := by
    intro entry hentry
    rw [hbuckets] at hentry
    obtain ⟨i, -, rfl⟩ := List.mem_map.1 hentry
    have hi : i.val < 65536 := i.isLt
    dsimp only
    omega
  -- the indices differ, so there are at most as many as buckets in a lane
  have hcard : d.buckets.length ≤ 65536 := by
    rw [hbuckets, List.length_map, Finset.length_sort]
    exact (Finset.card_le_univ p.dirtyBuckets).trans_eq (Fintype.card_fin _)
  have hdelta : byteLen (ClusterMessage.toJson (.ckfDelta pool d.sequence d.prevSequence
      d.buckets)).compact ≤ d.buckets.length * 29 + b + 200 :=
    ClusterMessage.byteLen_delta hpool hindex
  dsimp only
  omega

end KvRelay

end Size

/-- Whatever a producer holds and whichever buckets are dirty, the barrier or the delta of a pool
whose region has at most 1 MiB when it is escaped is no longer than a frame may be, so it is
written on every connection that takes it. `toVec` is `serde_json::to_vec`, of which only the
text of these two messages is assumed. -/
theorem KvRelay.publications_fit (toVec : GossipMessage → Except String (List UInt8))
    (hjson : ∀ m : ClusterMessage, toVec (.ckf m) = .ok (Utf8.encode m.toJson.compact))
    (pool : PoolId) (p : CkfProducer)
    (hregion : Text.byteLen (Json.escape pool.region.str) ≤ 1048576) (e : Publication)
    (he : e = (publishBarrier pool p).2 ∨ (flushPool pool p).2 = some e) :
    ∃ payload, toVec (.ckf e.message) = .ok payload ∧ payload.length ≤ maxFrameSize ∧
      ∀ s : TcpStream, s.Takes (4 + payload.length) →
        (writeFrame toVec (.ckf e.message) s).1 = .ok () := by
  have hlen : Text.byteLen e.message.toJson.compact ≤ 65536 * 29 + 1048576 + 200 := by
    rcases he with rfl | he
    · exact byteLen_publishBarrier hregion
    · exact byteLen_flushPool hregion he
  have hfits : (Utf8.encode e.message.toJson.compact).length ≤ maxFrameSize := by
    have hmax : maxFrameSize = 4194304 := rfl
    rw [length_encode]
    omega
  exact ⟨_, hjson e.message, hfits, fun s hs => writeFrame_takes (hjson e.message) hfits hs⟩

/-- The barrier of a new producer. -/
theorem KvRelay.publications_fit_new :
    (Utf8.encode (publishBarrier ⟨⟨7⟩, ⟨"eu"⟩⟩ .new).2.message.toJson.compact).length ≤
      maxFrameSize := by
  obtain ⟨payload, hpayload, hlen, -⟩ := publications_fit
    (fun
      | .ckf m => .ok (Utf8.encode m.toJson.compact)
      | _ => .error "not a lane")
    (fun _ => rfl) ⟨⟨7⟩, ⟨"eu"⟩⟩ .new (by decide) _ (Or.inl rfl)
  rw [Except.ok.inj hpayload]
  exact hlen

end HierKvGateway
