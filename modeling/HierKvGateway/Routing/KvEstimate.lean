import Mathlib.Algebra.Order.Floor.Div
import HierKvGateway.Routing.Admission

/-!
# Routing.KvEstimate — the footprint of a request in the KV cache

The estimator (`estimate.rs`) multiplies numbers of 32 bits in 64 bits, and adds input and output
tokens up to the largest number of 32 bits. `ModelSpec.footprint` is what it stands for, without
bounds.

`estimate_covers_iff` says when the estimate is not below that, and `estimate_laws` what holds of it
as long as nothing overflows.
-/

namespace HierKvGateway

/-! ## Models -/

/-- How the attention of a model is cached. -/
inductive AttentionKind where
  | standard
  | mla
deriving DecidableEq, Repr

/-- The type of the elements of the cache. -/
inductive KvDtype where
  | fp32
  | fp16
  | bf16
  | fp8
  | int8
deriving DecidableEq, Repr

/-- Bytes of an element. -/
def KvDtype.bytes : KvDtype → BitVec 32
  | .fp32 => 4
  | .fp16 | .bf16 => 2
  | .fp8 | .int8 => 1

/-- What the cache of a model depends on; 0 stands for what does not apply. -/
structure ModelSpec where
  numLayers : BitVec 32
  numKvHeads : BitVec 32
  headDim : BitVec 32
  attention : AttentionKind
  dtype : KvDtype
  kvLoraRank : BitVec 32
  qkRopeHeadDim : BitVec 32
  slidingWindow : BitVec 32
deriving DecidableEq, Repr

/-! ## The estimator -/

/-- An estimate with all that `estimate_kv` returns. -/
@[ext]
structure KvFootprint extends KvEstimate where
  blocks : BitVec 64
  effectiveSeqLen : BitVec 32
  batchSize : BitVec 32
deriving DecidableEq, Repr

/-- A `u32` as a `u64`. -/
abbrev asU64 (x : BitVec 32) : BitVec 64 := x.setWidth 64

/-- `per_token_bytes`. -/
def perTokenBytes (spec : ModelSpec) : BitVec 64 :=
  let db := asU64 spec.dtype.bytes
  match spec.attention with
  | .standard => 2 * asU64 spec.numLayers * asU64 spec.numKvHeads * asU64 spec.headDim * db
  | .mla =>
    let latent := asU64 spec.kvLoraRank + asU64 spec.qkRopeHeadDim
    asU64 spec.numLayers * latent * db

/-- `u32::saturating_add`. -/
def saturatingAddU32 (a b : BitVec 32) : BitVec 32 :=
  BitVec.ofNat 32 (min (a.toNat + b.toNat) (2 ^ 32 - 1))

/-- `u64::div_ceil`. -/
def divCeil (a b : BitVec 64) : BitVec 64 := if 0 < (a % b).toNat then a / b + 1 else a / b

/-- `estimate_kv`. -/
def estimateKv (spec : ModelSpec) (input : EstimateInput) : KvFootprint :=
  let perToken := perTokenBytes spec
  let seqLen := saturatingAddU32 input.inputTokens input.outputTokens
  let effective :=
    if 0 < spec.slidingWindow.toNat ∧ spec.slidingWindow.toNat < seqLen.toNat then
      spec.slidingWindow
    else seqLen
  let batch := if input.batchSize = 0 then 1 else input.batchSize
  if 0 < input.blockSize.toNat then
    let blocksPerSeq := divCeil (asU64 effective) (asU64 input.blockSize)
    let paddedPerSeq := blocksPerSeq * asU64 input.blockSize
    { bytes := perToken * asU64 batch * paddedPerSeq
      blocks := blocksPerSeq * asU64 batch
      perTokenBytes := perToken
      effectiveSeqLen := effective
      batchSize := batch }
  else
    { bytes := perToken * asU64 batch * asU64 effective
      blocks := 0
      perTokenBytes := perToken
      effectiveSeqLen := effective
      batchSize := batch }

/-! ## Without bounds -/

/-- The bytes of a token. -/
def ModelSpec.bytesPerToken (spec : ModelSpec) : Nat :=
  match spec.attention with
  | .standard =>
    2 * spec.numLayers.toNat * spec.numKvHeads.toNat * spec.headDim.toNat * spec.dtype.bytes.toNat
  | .mla =>
    spec.numLayers.toNat * (spec.kvLoraRank.toNat + spec.qkRopeHeadDim.toNat) *
      spec.dtype.bytes.toNat

/-- How many of some tokens are in the cache. -/
def ModelSpec.cached (spec : ModelSpec) (n : Nat) : Nat :=
  if 0 < spec.slidingWindow.toNat then min n spec.slidingWindow.toNat else n

namespace EstimateInput

/-- The tokens of a sequence. -/
def tokens (input : EstimateInput) : Nat := input.inputTokens.toNat + input.outputTokens.toNat

/-- The tokens of a sequence that fit into 32 bits. -/
def countedTokens (input : EstimateInput) : Nat := min input.tokens (2 ^ 32 - 1)

/-- The number of sequences. -/
def batch (input : EstimateInput) : Nat := max input.batchSize.toNat 1

/-- Some tokens in whole blocks, if there are blocks. -/
def padded (input : EstimateInput) (n : Nat) : Nat :=
  if 0 < input.blockSize.toNat then (n ⌈/⌉ input.blockSize.toNat) * input.blockSize.toNat else n

end EstimateInput

namespace ModelSpec

/-- The bytes that a request fills. -/
def footprint (spec : ModelSpec) (input : EstimateInput) : Nat :=
  spec.bytesPerToken * input.batch * spec.cached input.tokens

/-- The bytes of whole blocks that the tokens which are counted fill. -/
def paddedFootprint (spec : ModelSpec) (input : EstimateInput) : Nat :=
  spec.bytesPerToken * input.batch * input.padded (spec.cached input.countedTokens)

end ModelSpec

/-! ## What the estimator computes -/

theorem toNat_asU64 (x : BitVec 32) : (asU64 x).toNat = x.toNat := by
  have hx := x.isLt
  rw [BitVec.toNat_setWidth]
  exact Nat.mod_eq_of_lt (by omega)

theorem toNat_perTokenBytes (spec : ModelSpec) :
    (perTokenBytes spec).toNat = spec.bytesPerToken % 2 ^ 64 := by
  unfold perTokenBytes ModelSpec.bytesPerToken
  cases spec.attention with
  | standard => simp [BitVec.toNat_mul]
  | mla => simp [BitVec.toNat_mul, BitVec.toNat_add]

theorem toNat_saturatingAddU32 (a b : BitVec 32) :
    (saturatingAddU32 a b).toNat = min (a.toNat + b.toNat) (2 ^ 32 - 1) := by
  unfold saturatingAddU32
  rw [BitVec.toNat_ofNat]
  exact Nat.mod_eq_of_lt (by omega)

theorem toNat_divCeil {a b : BitVec 64} (hb : 0 < b.toNat) :
    (divCeil a b).toNat = a.toNat ⌈/⌉ b.toNat := by
  have hdiv := Nat.div_add_mod a.toNat b.toNat
  have hmod := Nat.mod_lt a.toNat hb
  have hmul : (a.toNat / b.toNat + 1) * b.toNat = b.toNat * (a.toNat / b.toNat) + b.toNat := by
    rw [Nat.add_mul, Nat.one_mul, Nat.mul_comm]
  rw [Nat.ceilDiv_eq_add_pred_div]
  unfold divCeil
  rw [BitVec.toNat_umod]
  split
  · -- a remainder leaves a divisor over 1, so that adding 1 to the quotient does not wrap
    rename_i hrest
    have hone : 1 < b.toNat := by omega
    have hlt : a.toNat / b.toNat < a.toNat := Nat.div_lt_self (by omega) hone
    have ha := a.isLt
    have hsum : (a / b + 1).toNat = a.toNat / b.toNat + 1 := by
      rw [BitVec.toNat_add, BitVec.toNat_udiv]
      exact Nat.mod_eq_of_lt (by show _ + 1 < _; omega)
    rw [hsum]
    refine (Nat.div_eq_of_lt_le ?_ ?_).symm
    · omega
    · rw [Nat.add_mul, hmul]
      omega
  · rw [BitVec.toNat_udiv]
    refine (Nat.div_eq_of_lt_le ?_ ?_).symm
    · rw [Nat.mul_comm]
      omega
    · omega

variable (spec : ModelSpec) (input : EstimateInput)

/-- The length that the estimator goes by. -/
theorem toNat_effectiveSeqLen :
    (estimateKv spec input).effectiveSeqLen.toNat = spec.cached input.countedTokens := by
  have hseq := toNat_saturatingAddU32 input.inputTokens input.outputTokens
  have heff : (estimateKv spec input).effectiveSeqLen =
      if 0 < spec.slidingWindow.toNat ∧ spec.slidingWindow.toNat <
          (saturatingAddU32 input.inputTokens input.outputTokens).toNat then
        spec.slidingWindow
      else saturatingAddU32 input.inputTokens input.outputTokens := by
    unfold estimateKv
    dsimp only
    split
    · rfl
    · rfl
  rw [heff, hseq]
  unfold ModelSpec.cached EstimateInput.countedTokens EstimateInput.tokens
  split
  · rename_i hwindow
    rw [if_pos hwindow.1, Nat.min_eq_right hwindow.2.le]
  · rename_i hfull
    rw [hseq]
    split
    · omega
    · rfl

theorem toNat_batchSize : (estimateKv spec input).batchSize.toNat = input.batch := by
  have hbatch : (estimateKv spec input).batchSize =
      if input.batchSize = 0 then 1 else input.batchSize := by
    unfold estimateKv
    dsimp only
    split
    · rfl
    · rfl
  rw [hbatch]
  unfold EstimateInput.batch
  split
  · rename_i hzero
    rw [hzero]
    rfl
  · rename_i hpos
    have hne : input.batchSize.toNat ≠ 0 := by
      intro h
      exact hpos (BitVec.eq_of_toNat_eq h)
    omega

theorem perTokenBytes_estimateKv : (estimateKv spec input).perTokenBytes = perTokenBytes spec := by
  unfold estimateKv
  dsimp only
  split
  · rfl
  · rfl

theorem batch_lt : input.batch < 2 ^ 32 := by
  have hbatch := input.batchSize.isLt
  unfold EstimateInput.batch
  omega

theorem cached_le (n : Nat) : spec.cached n ≤ n := by
  unfold ModelSpec.cached
  split
  · exact Nat.min_le_left _ _
  · exact Nat.le_refl _

theorem cached_countedTokens_lt : spec.cached input.countedTokens < 2 ^ 32 := by
  have hcached := cached_le spec input.countedTokens
  unfold EstimateInput.countedTokens at hcached ⊢
  omega

/-- Whole blocks are at least what is put into them, and less than one block more. -/
theorem padded_bounds (n : Nat) :
    n ≤ input.padded n ∧ input.padded n ≤ n + (input.blockSize.toNat - 1) := by
  unfold EstimateInput.padded
  split
  · rename_i hpos
    have hle : n ≤ input.blockSize.toNat * (n ⌈/⌉ input.blockSize.toNat) := le_smul_ceilDiv hpos
    have hdiv := Nat.div_mul_le_self (n + input.blockSize.toNat - 1) input.blockSize.toNat
    rw [Nat.mul_comm] at hle
    refine ⟨hle, ?_⟩
    rw [Nat.ceilDiv_eq_add_pred_div]
    omega
  · omega

/-- The blocks of a sequence, and what they hold. -/
theorem toNat_blocksPerSeq (hpos : 0 < input.blockSize.toNat) {x : BitVec 32} :
    (divCeil (asU64 x) (asU64 input.blockSize)).toNat = x.toNat ⌈/⌉ input.blockSize.toNat := by
  have hblock := toNat_asU64 input.blockSize
  rw [toNat_divCeil (by rw [hblock]; exact hpos), hblock, toNat_asU64]

theorem toNat_bytes :
    (estimateKv spec input).bytes.toNat = spec.paddedFootprint input % 2 ^ 64 := by
  have htoken := toNat_perTokenBytes spec
  have hbatch := toNat_batchSize spec input
  have hlen := toNat_effectiveSeqLen spec input
  have hblock := input.blockSize.isLt
  have hcached := cached_countedTokens_lt spec input
  have hpad := padded_bounds input (spec.cached input.countedTokens)
  -- the padded tokens fit into 64 bits, so only the products with the bytes of a token may wrap
  obtain ⟨tokens, hbytes, htokens⟩ : ∃ tokens : BitVec 64,
      (estimateKv spec input).bytes =
        perTokenBytes spec * asU64 (estimateKv spec input).batchSize * tokens ∧
      tokens.toNat = input.padded (spec.cached input.countedTokens) := by
    rw [← hlen] at hcached hpad ⊢
    unfold EstimateInput.padded at hpad ⊢
    by_cases hpos : 0 < input.blockSize.toNat
    · rw [if_pos hpos] at hpad ⊢
      refine ⟨divCeil (asU64 (estimateKv spec input).effectiveSeqLen) (asU64 input.blockSize) *
        asU64 input.blockSize, ?_, ?_⟩
      · unfold estimateKv
        dsimp only
        rw [if_pos hpos]
      · rw [BitVec.toNat_mul, toNat_blocksPerSeq input hpos, toNat_asU64]
        exact Nat.mod_eq_of_lt (by omega)
    · rw [if_neg hpos]
      refine ⟨asU64 (estimateKv spec input).effectiveSeqLen, ?_, toNat_asU64 _⟩
      unfold estimateKv
      dsimp only
      rw [if_neg hpos]
  rw [hbytes, BitVec.toNat_mul, BitVec.toNat_mul, toNat_asU64, htoken, hbatch, htokens,
    Nat.mod_mul_mod, Nat.mul_assoc, Nat.mod_mul_mod, ← Nat.mul_assoc]
  rfl

theorem toNat_blocks :
    (estimateKv spec input).blocks.toNat =
      (spec.cached input.countedTokens ⌈/⌉ input.blockSize.toNat) * input.batch := by
  have hbatch := toNat_batchSize spec input
  have hlen := toNat_effectiveSeqLen spec input
  have hcached := cached_countedTokens_lt spec input
  by_cases hpos : 0 < input.blockSize.toNat
  · have hblocks : (estimateKv spec input).blocks =
        divCeil (asU64 (estimateKv spec input).effectiveSeqLen) (asU64 input.blockSize) *
          asU64 (estimateKv spec input).batchSize := by
      unfold estimateKv
      dsimp only
      rw [if_pos hpos]
    -- two factors below `2 ^ 32`
    have hle : spec.cached input.countedTokens ⌈/⌉ input.blockSize.toNat ≤
        spec.cached input.countedTokens := by
      rw [ceilDiv_le_iff_le_mul hpos]
      exact Nat.le_mul_of_pos_left _ hpos
    have hlt : (spec.cached input.countedTokens ⌈/⌉ input.blockSize.toNat) * input.batch <
        2 ^ 32 * 2 ^ 32 :=
      Nat.mul_lt_mul'' (by omega) (batch_lt input)
    rw [hblocks, BitVec.toNat_mul, toNat_blocksPerSeq input hpos, toNat_asU64, hlen, hbatch]
    exact Nat.mod_eq_of_lt (by omega)
  · have hzero : input.blockSize.toNat = 0 := by omega
    have hblocks : (estimateKv spec input).blocks = 0 := by
      unfold estimateKv
      dsimp only
      rw [if_neg hpos]
    rw [hblocks, hzero, ceilDiv_zero, Nat.zero_mul]
    rfl

/-! ## Overflow -/

/-- The padding makes up for what is lost: it has room for the tokens that are not counted, and its
bytes are at least the multiples of `2 ^ 64` that the product loses. -/
def ModelSpec.CoveredBy (spec : ModelSpec) (input : EstimateInput) : Prop :=
  spec.bytesPerToken = 0 ∨
    spec.cached input.tokens ≤ input.padded (spec.cached input.countedTokens) ∧
      2 ^ 64 * (spec.paddedFootprint input / 2 ^ 64) ≤
        spec.bytesPerToken * input.batch *
          (input.padded (spec.cached input.countedTokens) - spec.cached input.tokens)

theorem batch_pos : 0 < input.batch := by
  unfold EstimateInput.batch
  omega

/-- What is left of the padded bytes is not below the footprint just when padding makes up for what
is lost. -/
theorem coveredBy_iff_le_mod :
    spec.CoveredBy input ↔ spec.footprint input ≤ spec.paddedFootprint input % 2 ^ 64 := by
  have hdiv := Nat.mod_add_div (spec.paddedFootprint input) (2 ^ 64)
  have hbatch := batch_pos input
  unfold ModelSpec.CoveredBy
  unfold ModelSpec.footprint ModelSpec.paddedFootprint at *
  generalize input.padded (spec.cached input.countedTokens) = padded at hdiv ⊢
  generalize spec.cached input.tokens = tokens
  rcases Nat.eq_zero_or_pos spec.bytesPerToken with hzero | hpos
  · refine iff_of_true (Or.inl hzero) ?_
    rw [hzero, Nat.zero_mul, Nat.zero_mul]
    exact Nat.zero_le _
  rw [or_iff_right hpos.ne']
  have hunit := Nat.mul_pos hpos hbatch
  generalize spec.bytesPerToken * input.batch = unit at hdiv hunit ⊢
  by_cases htokens : tokens ≤ padded
  · -- the padded bytes are the footprint and the bytes of the padding
    have hsplit : unit * padded = unit * tokens + unit * (padded - tokens) := by
      rw [← Nat.mul_add, Nat.add_sub_cancel' htokens]
    rw [and_iff_right htokens]
    omega
  · have hless := Nat.mul_lt_mul_of_pos_left (Nat.lt_of_not_le htokens) hunit
    have hmod := Nat.mod_le (unit * padded) (2 ^ 64)
    refine iff_of_false (fun h => htokens h.1) ?_
    omega

/-- An estimate is not below the footprint just when padding makes up for what is lost. -/
theorem estimate_covers_iff :
    spec.footprint input ≤ (estimateKv spec input).bytes.toNat ↔ spec.CoveredBy input := by
  rw [toNat_bytes]
  exact (coveredBy_iff_le_mod spec input).symm

/-- A model of 65536 layers with 65536 heads and a request of 16385 tokens: the exact footprint is
over `2 ^ 64` bytes. -/
theorem estimate_too_small :
    ¬ ∀ (spec : ModelSpec) (input : EstimateInput),
      spec.footprint input ≤ (estimateKv spec input).bytes.toNat := by
  intro h
  have hle := h ⟨65536, 65536, 65536, .standard, .bf16, 0, 0, 0⟩ ⟨1, 16000, 385, 16⟩
  revert hle
  decide +kernel

variable {spec input}

/-- Nothing is lost below `2 ^ 64` bytes if all tokens are counted. -/
theorem coveredBy_of_lt (hfits : spec.paddedFootprint input < 2 ^ 64)
    (htokens : spec.cached input.countedTokens = spec.cached input.tokens) :
    spec.CoveredBy input := by
  refine Or.inr ⟨?_, ?_⟩
  · rw [htokens]
    exact (padded_bounds input _).1
  · rw [Nat.div_eq_of_lt hfits, Nat.mul_zero]
    exact Nat.zero_le _

/-- All tokens are counted if they are fewer than `2 ^ 32`, or if there is a window. -/
theorem cached_countedTokens (h : input.tokens < 2 ^ 32 ∨ 0 < spec.slidingWindow.toNat) :
    spec.cached input.countedTokens = spec.cached input.tokens := by
  have hwindow := spec.slidingWindow.isLt
  unfold ModelSpec.cached EstimateInput.countedTokens
  split
  · omega
  · omega

/-- Without padding every overflow is a loss. -/
theorem coveredBy_iff_of_unpadded (hblock : input.blockSize.toNat = 0) :
    spec.CoveredBy input ↔
      spec.footprint input = spec.paddedFootprint input ∧ spec.footprint input < 2 ^ 64 := by
  have hle : spec.paddedFootprint input ≤ spec.footprint input := by
    unfold ModelSpec.paddedFootprint ModelSpec.footprint EstimateInput.padded
    rw [hblock, if_neg (Nat.lt_irrefl 0)]
    refine Nat.mul_le_mul_left _ ?_
    unfold ModelSpec.cached EstimateInput.countedTokens
    split
    · omega
    · omega
  have hdiv := Nat.mod_add_div (spec.paddedFootprint input) (2 ^ 64)
  have hlt := Nat.mod_lt (spec.paddedFootprint input) (Nat.two_pow_pos 64)
  rw [coveredBy_iff_le_mod]
  omega

/-! ## Laws -/

/-- The tokens can be counted, and the result fits into 64 bits. -/
structure ModelSpec.Fits (spec : ModelSpec) (input : EstimateInput) : Prop where
  tokens : input.tokens < 2 ^ 32
  bytes : spec.paddedFootprint input < 2 ^ 64

/-- One request is at most another in every respect, with the same blocks. -/
structure EstimateInput.Le (input input' : EstimateInput) : Prop where
  inputTokens : input.inputTokens.toNat ≤ input'.inputTokens.toNat
  outputTokens : input.outputTokens.toNat ≤ input'.outputTokens.toNat
  batchSize : input.batchSize.toNat ≤ input'.batchSize.toNat
  blockSize : input.blockSize = input'.blockSize

/-- A model with a window that is new, or not wider than the one it has. -/
def ModelSpec.narrowed (spec : ModelSpec) (window : BitVec 32) : ModelSpec :=
  { spec with slidingWindow := window }

theorem bytes_of_fits (h : spec.Fits input) :
    (estimateKv spec input).bytes.toNat = spec.paddedFootprint input := by
  rw [toNat_bytes, Nat.mod_eq_of_lt h.bytes]

theorem countedTokens_of_fits (h : spec.Fits input) : input.countedTokens = input.tokens := by
  have htokens := h.tokens
  unfold EstimateInput.countedTokens
  omega

/-- An exact result that fits does so because the bytes of a token do, or because it is 0. -/
theorem mul_perToken_of_fits (h : spec.Fits input) {n : Nat}
    (hn : 0 < n → 0 < spec.cached input.tokens) :
    spec.bytesPerToken % 2 ^ 64 * input.batch * n = spec.bytesPerToken * input.batch * n := by
  have hbytes := h.bytes
  unfold ModelSpec.paddedFootprint at hbytes
  rw [countedTokens_of_fits h] at hbytes
  have hpad := (padded_bounds input (spec.cached input.tokens)).1
  have hbatch := batch_pos input
  cases Nat.eq_zero_or_pos n with
  | inl hzero => rw [hzero, Nat.mul_zero, Nat.mul_zero]
  | inr hpos =>
    have hle : spec.bytesPerToken ≤
        spec.bytesPerToken * input.batch * input.padded (spec.cached input.tokens) := by
      rw [Nat.mul_assoc]
      exact Nat.le_mul_of_pos_right _ (Nat.mul_pos hbatch (Nat.lt_of_lt_of_le (hn hpos) hpad))
    rw [Nat.mod_eq_of_lt (Nat.lt_of_le_of_lt hle hbytes)]

theorem padded_pos {n : Nat} (h : 0 < input.padded n) : 0 < n := by
  rcases Nat.eq_zero_or_pos n with rfl | hpos
  · unfold EstimateInput.padded at h
    split at h
    · rw [zero_ceilDiv, Nat.zero_mul] at h
      exact h
    · exact h
  · exact hpos

/-- What the fields of an estimate that fits are. -/
theorem fields_of_fits (h : spec.Fits input) :
    let est := estimateKv spec input
    est.bytes.toNat = spec.bytesPerToken % 2 ^ 64 * input.batch *
        input.padded (spec.cached input.tokens) ∧
      est.blocks.toNat = (spec.cached input.tokens ⌈/⌉ input.blockSize.toNat) * input.batch ∧
      est.effectiveSeqLen.toNat = spec.cached input.tokens ∧
      est.perTokenBytes.toNat = spec.bytesPerToken % 2 ^ 64 := by
  intro est
  refine ⟨?_, ?_, ?_, ?_⟩
  · rw [bytes_of_fits h, mul_perToken_of_fits h padded_pos]
    unfold ModelSpec.paddedFootprint
    rw [countedTokens_of_fits h]
  · rw [toNat_blocks, countedTokens_of_fits h]
  · rw [toNat_effectiveSeqLen, countedTokens_of_fits h]
  · rw [perTokenBytes_estimateKv, toNat_perTokenBytes]

theorem padded_mono (input : EstimateInput) {n m : Nat} (h : n ≤ m) :
    input.padded n ≤ input.padded m := by
  unfold EstimateInput.padded
  split
  · exact Nat.mul_le_mul_right _ (Nat.div_le_div_right (by omega))
  · exact h

theorem cached_mono (spec : ModelSpec) {n m : Nat} (h : n ≤ m) : spec.cached n ≤ spec.cached m := by
  unfold ModelSpec.cached
  split
  · omega
  · exact h

/-- The bytes of the tokens alone. -/
def KvFootprint.unpadded (est : KvFootprint) : Nat :=
  est.perTokenBytes.toNat * est.batchSize.toNat * est.effectiveSeqLen.toNat

theorem unpadded_of_fits (h : spec.Fits input) :
    (estimateKv spec input).unpadded = spec.footprint input := by
  obtain ⟨-, -, hlen, htoken⟩ := fields_of_fits h
  unfold KvFootprint.unpadded ModelSpec.footprint
  rw [hlen, htoken, toNat_batchSize]
  exact mul_perToken_of_fits h id

/-- With blocks the estimate is of whole blocks, and less than a block above the footprint for each
sequence. -/
theorem estimate_paged (h : spec.Fits input) (hblock : 0 < input.blockSize.toNat) :
    let est := estimateKv spec input
    est.bytes.toNat = est.blocks.toNat * input.blockSize.toNat * est.perTokenBytes.toNat ∧
      est.unpadded ≤ est.bytes.toNat ∧
      est.bytes.toNat ≤
        est.unpadded + input.batch * (input.blockSize.toNat - 1) * est.perTokenBytes.toNat := by
  intro est
  obtain ⟨hbytes, hblocks, hlen, htoken⟩ := fields_of_fits h
  have hpad := padded_bounds input (spec.cached input.tokens)
  have hwhole : input.padded (spec.cached input.tokens) =
      (spec.cached input.tokens ⌈/⌉ input.blockSize.toNat) * input.blockSize.toNat := if_pos hblock
  have hunpadded : est.unpadded =
      spec.bytesPerToken % 2 ^ 64 * input.batch * spec.cached input.tokens := by
    unfold KvFootprint.unpadded
    rw [hlen, htoken, toNat_batchSize]
  rw [hunpadded, hbytes, hblocks, htoken]
  refine ⟨?_, Nat.mul_le_mul_left _ hpad.1, ?_⟩
  · rw [hwhole]
    ring
  · calc spec.bytesPerToken % 2 ^ 64 * input.batch * input.padded (spec.cached input.tokens)
        ≤ spec.bytesPerToken % 2 ^ 64 * input.batch *
            (spec.cached input.tokens + (input.blockSize.toNat - 1)) :=
          Nat.mul_le_mul_left _ hpad.2
      _ = _ := by ring

/-- Without blocks the estimate is the footprint. -/
theorem estimate_unpaged (h : spec.Fits input) (hblock : input.blockSize.toNat = 0) :
    (estimateKv spec input).bytes.toNat = (estimateKv spec input).unpadded ∧
      (estimateKv spec input).blocks.toNat = 0 := by
  obtain ⟨hbytes, hblocks, hlen, htoken⟩ := fields_of_fits h
  have hpad : input.padded (spec.cached input.tokens) = spec.cached input.tokens := by
    unfold EstimateInput.padded
    rw [hblock, if_neg (Nat.lt_irrefl 0)]
  constructor
  · unfold KvFootprint.unpadded
    rw [hbytes, hlen, htoken, toNat_batchSize, hpad]
  · rw [hblocks, hblock, ceilDiv_zero, Nat.zero_mul]

/-- What is asked for more is not estimated as less. -/
theorem estimate_mono {input' : EstimateInput} (h : spec.Fits input) (h' : spec.Fits input')
    (hle : input.Le input') :
    (estimateKv spec input).bytes.toNat ≤ (estimateKv spec input').bytes.toNat ∧
      (estimateKv spec input).blocks.toNat ≤ (estimateKv spec input').blocks.toNat := by
  obtain ⟨hbytes, hblocks, -, -⟩ := fields_of_fits h
  obtain ⟨hbytes', hblocks', -, -⟩ := fields_of_fits h'
  have htokens : spec.cached input.tokens ≤ spec.cached input'.tokens :=
    cached_mono spec (Nat.add_le_add hle.inputTokens hle.outputTokens)
  have hbatch : input.batch ≤ input'.batch := max_le_max_right 1 hle.batchSize
  have hpadded : input.padded (spec.cached input'.tokens) =
      input'.padded (spec.cached input'.tokens) := by
    unfold EstimateInput.padded
    rw [hle.blockSize]
  rw [hbytes, hbytes', hblocks, hblocks', ← hpadded, hle.blockSize]
  constructor
  · exact Nat.mul_le_mul (Nat.mul_le_mul_left _ hbatch) (padded_mono input htokens)
  · exact Nat.mul_le_mul (Nat.div_le_div_right (by omega)) hbatch

/-- An estimate depends on the tokens in the cache, the sequences and the blocks only. -/
theorem estimateKv_congr {input' : EstimateInput}
    (hcached : spec.cached input.countedTokens = spec.cached input'.countedTokens)
    (hbatch : input.batchSize = input'.batchSize) (hblock : input.blockSize = input'.blockSize) :
    estimateKv spec input = estimateKv spec input' := by
  have hbatch' : input.batch = input'.batch := by
    unfold EstimateInput.batch
    rw [hbatch]
  have hbytes : spec.paddedFootprint input = spec.paddedFootprint input' := by
    unfold ModelSpec.paddedFootprint EstimateInput.padded
    rw [hcached, hbatch', hblock]
  apply KvFootprint.ext
  · apply BitVec.eq_of_toNat_eq
    rw [toNat_bytes, toNat_bytes, hbytes]
  · rw [perTokenBytes_estimateKv, perTokenBytes_estimateKv]
  · apply BitVec.eq_of_toNat_eq
    rw [toNat_blocks, toNat_blocks, hcached, hbatch', hblock]
  · apply BitVec.eq_of_toNat_eq
    rw [toNat_effectiveSeqLen, toNat_effectiveSeqLen, hcached]
  · apply BitVec.eq_of_toNat_eq
    rw [toNat_batchSize, toNat_batchSize, hbatch']

/-- The model has no window, or one that is not narrower. -/
def ModelSpec.AtLeast (spec : ModelSpec) (window : BitVec 32) : Prop :=
  spec.slidingWindow = 0 ∨ window.toNat ≤ spec.slidingWindow.toNat

/-- A window, or a narrower one, does not make an estimate larger. -/
theorem estimate_window {window : BitVec 32} (h : spec.Fits input) (hpos : 0 < window.toNat)
    (hwindow : spec.AtLeast window) :
    (estimateKv (spec.narrowed window) input).bytes.toNat ≤
        (estimateKv spec input).bytes.toNat ∧
      (estimateKv (spec.narrowed window) input).blocks.toNat ≤
        (estimateKv spec input).blocks.toNat := by
  have hcached : (spec.narrowed window).cached input.countedTokens ≤
      spec.cached input.countedTokens := by
    unfold ModelSpec.cached ModelSpec.narrowed
    dsimp only
    rw [if_pos hpos]
    split
    · rename_i hold
      rcases hwindow with hnone | hle
      · rw [hnone] at hold
        exact absurd hold (Nat.lt_irrefl 0)
      · exact min_le_min_left _ hle
    · exact Nat.min_le_left _ _
  have hbytes : (spec.narrowed window).paddedFootprint input ≤ spec.paddedFootprint input :=
    Nat.mul_le_mul_left _ (padded_mono input hcached)
  constructor
  · rw [bytes_of_fits h, toNat_bytes]
    exact (Nat.mod_le _ _).trans hbytes
  · rw [toNat_blocks, toNat_blocks]
    exact Nat.mul_le_mul_right _ (Nat.div_le_div_right (by omega))

/-- A window that is filled stays so. -/
theorem cached_of_filled (hpos : 0 < spec.slidingWindow.toNat)
    (hfull : spec.slidingWindow.toNat ≤ input.tokens) :
    spec.cached input.countedTokens = spec.slidingWindow.toNat := by
  rw [cached_countedTokens (.inr hpos)]
  unfold ModelSpec.cached
  rw [if_pos hpos]
  exact Nat.min_eq_right hfull

/-- What holds of the estimates for a model as long as nothing overflows. -/
structure ModelSpec.EstimateLaws (spec : ModelSpec) : Prop where
  unpadded : ∀ input, spec.Fits input → (estimateKv spec input).unpadded = spec.footprint input
  paged : ∀ input, spec.Fits input → 0 < input.blockSize.toNat →
    let est := estimateKv spec input
    est.bytes.toNat = est.blocks.toNat * input.blockSize.toNat * est.perTokenBytes.toNat ∧
      est.unpadded ≤ est.bytes.toNat ∧
      est.bytes.toNat ≤
        est.unpadded + input.batch * (input.blockSize.toNat - 1) * est.perTokenBytes.toNat
  unpaged : ∀ input, spec.Fits input → input.blockSize.toNat = 0 →
    (estimateKv spec input).bytes.toNat = (estimateKv spec input).unpadded ∧
      (estimateKv spec input).blocks.toNat = 0
  mono : ∀ input input', spec.Fits input → spec.Fits input' → input.Le input' →
    (estimateKv spec input).bytes.toNat ≤ (estimateKv spec input').bytes.toNat ∧
      (estimateKv spec input).blocks.toNat ≤ (estimateKv spec input').blocks.toNat
  window : ∀ input window, spec.Fits input → 0 < window.toNat → spec.AtLeast window →
    (estimateKv (spec.narrowed window) input).bytes.toNat ≤
        (estimateKv spec input).bytes.toNat ∧
      (estimateKv (spec.narrowed window) input).blocks.toNat ≤
        (estimateKv spec input).blocks.toNat
  filled : ∀ input input' : EstimateInput, input.batchSize = input'.batchSize →
    input.blockSize = input'.blockSize → 0 < spec.slidingWindow.toNat →
    spec.slidingWindow.toNat ≤ input.tokens → spec.slidingWindow.toNat ≤ input'.tokens →
      estimateKv spec input = estimateKv spec input'
  sum : ∀ input input' : EstimateInput, input.batchSize = input'.batchSize →
    input.blockSize = input'.blockSize → input.tokens = input'.tokens →
      estimateKv spec input = estimateKv spec input'

theorem estimate_laws (spec : ModelSpec) : spec.EstimateLaws where
  unpadded _ h := unpadded_of_fits h
  paged _ h hblock := estimate_paged h hblock
  unpaged _ h hblock := estimate_unpaged h hblock
  mono _ _ h h' hle := estimate_mono h h' hle
  window _ _ h hpos hwindow := estimate_window h hpos hwindow
  filled _ _ hbatch hblock hpos hfull hfull' :=
    estimateKv_congr ((cached_of_filled hpos hfull).trans (cached_of_filled hpos hfull').symm)
      hbatch hblock
  sum _ _ hbatch hblock hsum := by
    refine estimateKv_congr ?_ hbatch hblock
    unfold EstimateInput.countedTokens
    rw [hsum]

/-- 32 layers with 8 heads of 128, and 100 tokens in blocks of 16. -/
theorem estimate_laws_hundred :
    let spec : ModelSpec := ⟨32, 8, 128, .standard, .bf16, 0, 0, 0⟩
    let input : EstimateInput := ⟨1, 90, 10, 16⟩
    (estimateKv spec input).bytes.toNat = 14680064 ∧
      (estimateKv spec input).unpadded ≤ 14680064 ∧
      14680064 ≤ (estimateKv spec input).unpadded + 1966080 := by
  intro spec input
  have hlaw := (estimate_laws spec).paged input ⟨by decide, by decide⟩ (by decide)
  have hbytes : (estimateKv spec input).bytes.toNat = 14680064 := by decide +kernel
  have hslack : input.batch * (input.blockSize.toNat - 1) *
      (estimateKv spec input).perTokenBytes.toNat = 1966080 := by decide +kernel
  dsimp only at hlaw
  rw [hbytes, hslack] at hlaw
  exact ⟨hbytes, hlaw.2⟩

end HierKvGateway
