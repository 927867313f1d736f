import HierKvGateway.Routing.KvEstimate

/-!
# Routing.KvBlocks — admission by free blocks

`score_capacity` compares bytes: those of the estimate with those of the free blocks. Both are
products with the bytes of a block, and `scoreCapacity_blocks` says that the blocks are what is
compared.
-/

namespace HierKvGateway

/-- The free blocks of a backend. -/
def BackendMetrics.freeBlocks (m : BackendMetrics) : Nat :=
  m.kvTotalBlocks.toNat - m.kvUsedBlocks.toNat

namespace KvCapacityStrategy

/-! ## The cost of some blocks -/

/-- The share of the free blocks that is asked for; there is none if they do not suffice. -/
def blockCost (blocks free : Nat) : ExtRat :=
  if free = 0 ∨ free < blocks then Floating.infinity else .num (blocks / free)

theorem blockCost_isRate {blocks free : Nat} (h : ¬(free = 0 ∨ free < blocks)) :
    blockCost blocks free = .num (blocks / free) ∧ (blockCost blocks free).IsRate := by
  have hcost : blockCost blocks free = .num (blocks / free) := if_neg h
  have hfree : (0 : Rat) < free := by
    rw [Nat.cast_pos]
    omega
  have hle : (blocks : Rat) ≤ free := by
    rw [Nat.cast_le]
    omega
  refine ⟨hcost, blocks / free, hcost, ?_, ?_⟩
  · exact div_nonneg (Nat.cast_nonneg blocks) hfree.le
  · exact (div_le_one₀ hfree).2 hle

/-- Fewer blocks and more room do not cost more. -/
theorem blockCost_mono {blocks blocks' free free' : Nat} (hblocks : blocks ≤ blocks')
    (hfree : free' ≤ free) :
    Floating.le (blockCost blocks free) (blockCost blocks' free') = true := by
  unfold blockCost
  by_cases h' : free' = 0 ∨ free' < blocks'
  · rw [if_pos h']
    split
    · rfl
    · rfl
  · have h : ¬(free = 0 ∨ free < blocks) := by omega
    have hpos : (0 : Rat) < free' := by
      rw [Nat.cast_pos]
      omega
    rw [if_neg h', if_neg h, ExtRat.le_num, decide_eq_true_eq]
    exact div_le_div₀ (Nat.cast_nonneg blocks') (Nat.cast_le.2 hblocks) hpos
      (Nat.cast_le.2 hfree)

/-- The clamp changes nothing. -/
theorem clamp_blockCost {blocks free : Nat} (h : ¬(free = 0 ∨ free < blocks)) :
    Floating.clamp (blockCost blocks free) (Floating.ofNat 0) (Floating.ofNat 1) =
      blockCost blocks free := by
  obtain ⟨-, q, hq, hlo, hhi⟩ := blockCost_isRate h
  rw [hq, ExtRat.ofNat_eq, ExtRat.ofNat_eq, Nat.cast_zero, Nat.cast_one,
    ExtRat.clamp_num _ zero_le_one, min_eq_left hhi, max_eq_right hlo]

/-! ### In bytes -/

section
variable {blocks free perBlock : Nat}

theorem le_zero_bytes (hperBlock : 0 < perBlock) :
    Floating.le (ExtRat.num (free * perBlock : Nat)) (Floating.ofNat 0) = decide (free = 0) := by
  rw [ExtRat.ofNat_eq, ExtRat.le_num, decide_eq_decide, Nat.cast_le, Nat.le_zero,
    Nat.mul_eq_zero, or_iff_left (Nat.ne_of_gt hperBlock)]

theorem lt_bytes (hperBlock : 0 < perBlock) :
    Floating.lt (ExtRat.num (free * perBlock : Nat)) (Floating.ofNat (blocks * perBlock)) =
      decide (free < blocks) := by
  rw [ExtRat.ofNat_eq, ExtRat.lt_num, decide_eq_decide, Nat.cast_lt,
    Nat.mul_lt_mul_right hperBlock]

theorem div_bytes (hperBlock : 0 < perBlock) (h : ¬(free = 0 ∨ free < blocks)) :
    Floating.ofNat (blocks * perBlock) / ExtRat.num (free * perBlock : Nat) =
      blockCost blocks free := by
  have hperBlock' : (perBlock : Rat) ≠ 0 := Nat.cast_ne_zero.2 hperBlock.ne'
  have hfree : (free : Rat) ≠ 0 := Nat.cast_ne_zero.2 (not_or.1 h).1
  rw [(blockCost_isRate h).1, ExtRat.ofNat_eq, Nat.cast_mul, Nat.cast_mul,
    ExtRat.num_div _ _ (mul_ne_zero hfree hperBlock'), mul_div_mul_right _ _ hperBlock']

end

/-! ## The cost of an estimate -/

variable {spec : ModelSpec} {input : EstimateInput} {m : BackendMetrics}

/-- The bytes of a block, as the strategy computes them. -/
def perBlockBytes (spec : ModelSpec) (input : EstimateInput) : Nat :=
  min ((perTokenBytes spec).toNat * input.blockSize.toNat) (2 ^ 64 - 1)

/-- The estimate is of whole blocks, also where the bytes of a block are too many to be counted. -/
theorem bytes_eq_blocks (hblock : 0 < input.blockSize.toNat)
    (hfits : spec.paddedFootprint input < 2 ^ 64) :
    (estimateKv spec input).bytes.toNat =
      (estimateKv spec input).blocks.toNat * perBlockBytes spec input := by
  have hwhole : spec.paddedFootprint input =
      (estimateKv spec input).blocks.toNat * (spec.bytesPerToken * input.blockSize.toNat) := by
    unfold ModelSpec.paddedFootprint EstimateInput.padded
    rw [if_pos hblock, toNat_blocks]
    ring
  rw [toNat_bytes, Nat.mod_eq_of_lt hfits, hwhole]
  rw [hwhole] at hfits
  rcases Nat.eq_zero_or_pos (estimateKv spec input).blocks.toNat with hzero | hpos
  · rw [hzero, Nat.zero_mul, Nat.zero_mul]
  · have hlt : spec.bytesPerToken * input.blockSize.toNat < 2 ^ 64 :=
      Nat.lt_of_le_of_lt (Nat.le_mul_of_pos_left _ hpos) hfits
    have htoken : spec.bytesPerToken % 2 ^ 64 = spec.bytesPerToken :=
      Nat.mod_eq_of_lt (Nat.lt_of_le_of_lt (Nat.le_mul_of_pos_right _ hblock) hlt)
    unfold perBlockBytes
    rw [toNat_perTokenBytes, htoken, Nat.min_eq_left (by omega)]

theorem perBlockBytes_pos (htoken : 0 < (perTokenBytes spec).toNat)
    (hblock : 0 < input.blockSize.toNat) : 0 < perBlockBytes spec input := by
  have hpos := Nat.mul_pos htoken hblock
  unfold perBlockBytes
  omega

/-- What is available is the bytes of the free blocks. -/
theorem availableBytes_estimateKv (fraction : ExtRat) (hblock : 0 < input.blockSize.toNat)
    (htotal : 0 < m.kvTotalBlocks.toNat) (hperBlock : 0 < perBlockBytes spec input) :
    availableBytes (estimateKv spec input).toKvEstimate m input.blockSize fraction =
      some (.num (m.freeBlocks * perBlockBytes spec input : Nat)) := by
  unfold availableBytes
  rw [perTokenBytes_estimateKv]
  dsimp only
  rw [if_pos hblock, if_pos ⟨htotal, hblock, hperBlock⟩, ExtRat.ofNat_eq, ExtRat.ofNat_eq,
    ExtRat.num_mul, ← Nat.cast_mul]
  rfl

/-- The cost and the score, in blocks. -/
theorem scoreCapacity_blocks (fraction : ExtRat) (htoken : 0 < (perTokenBytes spec).toNat)
    (hblock : 0 < input.blockSize.toNat) (hfits : spec.paddedFootprint input < 2 ^ 64)
    (htotal : 0 < m.kvTotalBlocks.toNat) :
    scoreCapacity (estimateKv spec input).toKvEstimate m input.blockSize fraction =
      (blockCost (estimateKv spec input).blocks.toNat m.freeBlocks,
        if m.freeBlocks = 0 ∨ m.freeBlocks < (estimateKv spec input).blocks.toNat then
          Floating.ofNat 0
        else
          Floating.ofNat 1 / (Floating.ofNat 1 +
            blockCost (estimateKv spec input).blocks.toNat m.freeBlocks)) := by
  have hperBlock := perBlockBytes_pos htoken hblock
  unfold scoreCapacity
  rw [availableBytes_estimateKv fraction hblock htotal hperBlock, bytes_eq_blocks hblock hfits]
  dsimp only
  rw [le_zero_bytes hperBlock, lt_bytes hperBlock]
  by_cases hexcluded : m.freeBlocks = 0 ∨ m.freeBlocks < (estimateKv spec input).blocks.toNat
  · have hcost : blockCost (estimateKv spec input).blocks.toNat m.freeBlocks =
        Floating.infinity := if_pos hexcluded
    rw [if_pos hexcluded, hcost]
    rcases hexcluded with hnone | hfew
    · rw [if_pos (decide_eq_true hnone)]
    · rw [decide_eq_true hfew, if_pos rfl, ite_self]
  · obtain ⟨hnone, hfew⟩ := not_or.1 hexcluded
    rw [if_neg (by simpa using hnone), if_neg (by simpa using hfew), if_neg hexcluded,
      div_bytes hperBlock hexcluded, clamp_blockCost hexcluded]

variable (spec input m) in
/-- A backend is excluded just when it has no free blocks or fewer than are asked for. Else the cost
is the share of them that is asked for, which is not larger with more free blocks, and not smaller
for more blocks. -/
theorem admission_exact (fraction : ExtRat) (htoken : 0 < (perTokenBytes spec).toNat)
    (hblock : 0 < input.blockSize.toNat) (hfits : spec.paddedFootprint input < 2 ^ 64)
    (htotal : 0 < m.kvTotalBlocks.toNat) :
    let est := estimateKv spec input
    let scored := scoreCapacity est.toKvEstimate m input.blockSize fraction
    (scored = (Floating.infinity, Floating.ofNat 0) ↔
      m.freeBlocks = 0 ∨ m.freeBlocks < est.blocks.toNat) ∧
    (¬(m.freeBlocks = 0 ∨ m.freeBlocks < est.blocks.toNat) →
      scored.1 = .num (est.blocks.toNat / m.freeBlocks) ∧ scored.1.IsRate) ∧
    (∀ m' : BackendMetrics, 0 < m'.kvTotalBlocks.toNat → m.freeBlocks ≤ m'.freeBlocks →
      Floating.le (scoreCapacity est.toKvEstimate m' input.blockSize fraction).1 scored.1 = true) ∧
    ∀ (spec' : ModelSpec) (input' : EstimateInput), 0 < (perTokenBytes spec').toNat →
      0 < input'.blockSize.toNat → spec'.paddedFootprint input' < 2 ^ 64 →
      est.blocks.toNat ≤ (estimateKv spec' input').blocks.toNat →
      Floating.le scored.1
        (scoreCapacity (estimateKv spec' input').toKvEstimate m input'.blockSize fraction).1 =
          true := by
  intro est scored
  have hscored : scored = _ := scoreCapacity_blocks (m := m) fraction htoken hblock hfits htotal
  refine ⟨?_, ?_, ?_, ?_⟩
  · rw [hscored]
    constructor
    · intro h
      by_contra hnot
      -- a rate is not infinite
      obtain ⟨hcost, -⟩ := blockCost_isRate hnot
      have hinf := (Prod.mk.inj h).1
      rw [hcost] at hinf
      exact absurd hinf nofun
    · intro h
      have hcost : blockCost est.blocks.toNat m.freeBlocks = Floating.infinity := if_pos h
      rw [if_pos h, hcost]
  · intro h
    rw [hscored]
    exact blockCost_isRate h
  · intro m' htotal' hfree
    rw [hscored, scoreCapacity_blocks fraction htoken hblock hfits htotal']
    exact blockCost_mono (Nat.le_refl _) hfree
  · intro spec' input' htoken' hblock' hfits' hblocks
    rw [hscored, scoreCapacity_blocks fraction htoken' hblock' hfits' htotal]
    exact blockCost_mono hblocks (Nat.le_refl _)

/-- Seven blocks of eight. -/
theorem admission_exact_seven :
    let spec : ModelSpec := ⟨32, 8, 128, .standard, .bf16, 0, 0, 0⟩
    let input : EstimateInput := ⟨1, 90, 10, 16⟩
    let m : BackendMetrics := ⟨0, 0, 0, 0, 2, 10, 0, 0, 0, ⟨0, 0, 0, 0⟩, 0⟩
    (scoreCapacity (estimateKv spec input).toKvEstimate m input.blockSize
      (Floating.ofNat 1 : ExtRat)).1 = .num (7 / 8) := by
  intro spec input m
  have hexact := admission_exact spec input m (Floating.ofNat 1) (by decide +kernel) (by decide)
    (by decide +kernel) (by decide)
  have hblocks : (estimateKv spec input).blocks.toNat = 7 := by decide +kernel
  have hfree : m.freeBlocks = 8 := by decide
  dsimp only at hexact
  rw [hblocks, hfree] at hexact
  exact (hexact.2.1 (by decide)).1

end KvCapacityStrategy

end HierKvGateway
