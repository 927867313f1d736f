import HierKvGateway.Core.Utf8
import HierKvGateway.Lib.Windows
import HierKvGateway.Metadata.Xxh3

/-!
# Metadata.BlockHashes — the hashes of the blocks of a prompt

`compute_block_hashes` (`kv_event.rs`) cuts the tokens into blocks and hashes the bytes of each,
with a seed that depends on the namespace and the LoRA adapter. The hash function is a parameter.

`blockHashes_stable`: a prompt that grows keeps the hashes of its blocks, and a block is hashed on
its own.
-/

namespace HierKvGateway

/-- What the hashes are computed from. -/
structure BlockHashInput where
  tokens : List (BitVec 32)
  /-- Number of tokens per KV block. -/
  kvBlockSize : BitVec 32
  cacheNamespace : Option String
  loraName : Option String

/-- Base seed, agreed upon with the indexer. -/
def xxh3Seed : BitVec 64 := 1337#64

/-- Salt of the namespace. -/
def nsSalt : BitVec 64 := 0x4e535f4c4f5f4c4f#64

/-- Salt of the LoRA adapter. -/
def loraSalt : BitVec 64 := 0x4c524f5f4c4f5f4c#64

/-- `str::as_bytes`, for the hash function. -/
def hashedBytes (s : String) : List (BitVec 8) := (Utf8.encode s.toList).map UInt8.toBitVec

/-- Mix a name into the seed, under its salt; an empty one counts as none. -/
def mixName (H : Xxh3) (salt : BitVec 64) (name : Option String) (seed : BitVec 64) : BitVec 64 :=
  match name.filter (fun s => !s.isEmpty) with
  | some name => (seed + H (hashedBytes name) salt) ^^^ salt
  | none => seed

/-- The seed (`compute_seed`). -/
def computeSeed (H : Xxh3) (cacheNamespace loraName : Option String) : BitVec 64 :=
  mixName H loraSalt loraName (mixName H nsSalt cacheNamespace xxh3Seed)

/-- The buffer a block is written to; it is cleared before. -/
def tokenBytes (window : List (BitVec 32)) : List (BitVec 8) :=
  window.foldl (fun bytes token => bytes ++ toLeBytes 4 token) []

/-- The loop over the blocks, from the token at `start` on. -/
def hashLoop (H : Xxh3) (seed : BitVec 64) (stride : Nat) (hstride : 0 < stride)
    (tokens : List (BitVec 32)) (start : Nat) (hashes : List BlockHash) : List BlockHash :=
  if start + stride ≤ tokens.length then
    let window := (tokens.drop start).take stride
    hashLoop H seed stride hstride tokens (start + stride) (hashes ++ [H (tokenBytes window) seed])
  else hashes
termination_by tokens.length - start

theorem stride_pos {blockSize : BitVec 32} (h : blockSize ≠ 0) : 0 < blockSize.toNat := by
  apply Nat.pos_of_ne_zero
  intro hzero
  exact h (BitVec.eq_of_toNat_eq hzero)

/-- The hashes of the blocks; tokens that do not fill the last one have none. -/
def computeBlockHashes (H : Xxh3) (input : BlockHashInput) : List BlockHash :=
  if h : input.kvBlockSize = 0 then []
  else
    hashLoop H (computeSeed H input.cacheNamespace input.loraName) input.kvBlockSize.toNat
      (stride_pos h) input.tokens 0 []

/-! ## One hash for each block -/

variable {H : Xxh3} {seed : BitVec 64} {tokens more : List (BitVec 32)}

/-- The hash of the tokens of one block. -/
def blockHash (H : Xxh3) (seed : BitVec 64) (window : List (BitVec 32)) : BlockHash :=
  H (tokenBytes window) seed

/-- From `start` on, the loop hashes what is left block by block. -/
theorem hashLoop_eq {stride : Nat} (hstride : 0 < stride) (start : Nat) (hashes : List BlockHash) :
    hashLoop H seed stride hstride tokens start hashes =
      hashes ++ (Windows.windows stride (tokens.drop start)).map (blockHash H seed) := by
  fun_induction hashLoop H seed stride hstride tokens start hashes with
  | case1 start hashes hle window ih =>
    -- one more block
    have hleft : stride ≤ (tokens.drop start).length := by
      rw [List.length_drop]
      omega
    rw [ih, Windows.windows_eq_cons hstride hleft, List.map_cons, List.drop_drop,
      List.append_assoc]
    rfl
  | case2 start hashes hlt =>
    -- what is left does not fill a block
    have hleft : (tokens.drop start).length < stride := by
      rw [List.length_drop]
      omega
    rw [Windows.windows_of_lt hleft, List.map_nil, List.append_nil]

theorem computeBlockHashes_eq {input : BlockHashInput} (hsize : input.kvBlockSize ≠ 0) :
    computeBlockHashes H input =
      (Windows.windows input.kvBlockSize.toNat input.tokens).map
        (blockHash H (computeSeed H input.cacheNamespace input.loraName)) := by
  unfold computeBlockHashes
  rw [dif_neg hsize, hashLoop_eq, List.drop_zero, List.nil_append]

/-- An empty name counts as none. -/
theorem mixName_empty (H : Xxh3) (salt seed : BitVec 64) :
    mixName H salt (some "") seed = mixName H salt none seed := rfl

/-- For every hash function, all tokens, every block size but 0, every namespace and adapter. -/
theorem blockHashes_stable (H : Xxh3) (t u : List (BitVec 32)) {k : BitVec 32} (hk : k ≠ 0)
    (ns lora : Option String) :
    let hashes := fun t => computeBlockHashes H ⟨t, k, ns, lora⟩
    (hashes t).length = t.length / k.toNat ∧
    hashes t <+: hashes (t ++ u) ∧
    (k.toNat ∣ t.length → hashes (t ++ u) = hashes t ++ hashes u) ∧
    (∀ i < t.length / k.toNat, (hashes t)[i]? = some
      (blockHash H (computeSeed H ns lora) ((t.drop (i * k.toNat)).take k.toNat))) ∧
    computeBlockHashes H ⟨t, k, some "", lora⟩ = computeBlockHashes H ⟨t, k, none, lora⟩ ∧
    computeBlockHashes H ⟨t, k, ns, some ""⟩ = computeBlockHashes H ⟨t, k, ns, none⟩ := by
  have hpos := stride_pos hk
  intro hashes
  have heq : ∀ t, hashes t =
      (Windows.windows k.toNat t).map (blockHash H (computeSeed H ns lora)) :=
    fun t => computeBlockHashes_eq hk
  refine ⟨?_, ?_, ?_, ?_, ?_, ?_⟩
  · rw [heq, List.length_map, Windows.length_windows]
  · rw [heq, heq]
    exact (Windows.windows_prefix hpos t u).map _
  · intro hdvd
    rw [heq, heq, heq, Windows.windows_append hpos hdvd, List.map_append]
  · intro i hi
    rw [heq, List.getElem?_map, Windows.getElem?_windows hi]
    rfl
  · rw [computeBlockHashes_eq hk, computeBlockHashes_eq hk]
    unfold computeSeed
    dsimp only
    rw [mixName_empty]
  · rw [computeBlockHashes_eq hk, computeBlockHashes_eq hk]
    unfold computeSeed
    dsimp only
    rw [mixName_empty]

/-- After two blocks of two a fifth token, or a third block that is like the second. -/
theorem blockHashes_stable_short :
    let hashes := fun t => computeBlockHashes .short ⟨t, 2, some "eu", none⟩
    hashes [1, 2, 3, 4] <+: hashes ([1, 2, 3, 4] ++ [5]) ∧
      hashes ([1, 2, 3, 4] ++ [3, 4]) = hashes [1, 2, 3, 4] ++ hashes [3, 4] ∧
      (hashes [1, 2, 3, 4])[1]? =
        some (blockHash .short (computeSeed .short (some "eu") none) [3, 4]) := by
  intro hashes
  have hk : (2 : BitVec 32) ≠ 0 := by decide
  have hfifth := blockHashes_stable .short [1, 2, 3, 4] [5] hk (some "eu") none
  have hthird := blockHashes_stable .short [1, 2, 3, 4] [3, 4] hk (some "eu") none
  exact ⟨hfifth.2.1, hthird.2.2.1 ⟨2, rfl⟩, hthird.2.2.2.1 1 (by decide)⟩

end HierKvGateway
