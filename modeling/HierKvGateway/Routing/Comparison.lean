import HierKvGateway.Routing.CostAware
import HierKvGateway.Routing.HybridScore
import HierKvGateway.Routing.ModelTier
import HierKvGateway.Routing.TopologyAware

/-!
# Routing.Comparison — a backend that is no worse costs no more

Two backends that serve the same models are compared by what the strategies look at: their load,
their hits and the way to them. The one that is no worse costs no more with any of the strategies.
-/

namespace HierKvGateway

open ExtRat

/-- `lit` of a positive number weighs. -/
theorem ExtRat.NoDearer.lit {x y : ExtRat} (n k : Nat) (hn : 0 < n) (h : x.NoDearer y) :
    (Floating.lit n k * x).NoDearer (Floating.lit n k * y) :=
  NoDearer.mul (div_pos (Nat.cast_pos.2 hn) (by positivity)) h

/-! ## The load -/

namespace BackendMetrics

/-- The numbers of the metrics are not negative, and not NaN. -/
structure Sane (m : BackendMetrics) : Prop where
  p99 : (ofBits m.latency.p99Ms).IsCost
  gpu : (ofBits m.gpuUtilization).IsCost

/-- No more load on as many blocks and as much memory. -/
structure NoMore (m m' : BackendMetrics) : Prop where
  activeRequests : m.activeRequests ≤ m'.activeRequests
  queueDepth : m.queueDepth ≤ m'.queueDepth
  activeDecodeBlocks : m.activeDecodeBlocks ≤ m'.activeDecodeBlocks
  activePrefillTokens : m.activePrefillTokens ≤ m'.activePrefillTokens
  kvUsedBlocks : m.kvUsedBlocks ≤ m'.kvUsedBlocks
  kvTotalBlocks : m.kvTotalBlocks = m'.kvTotalBlocks
  gpuUtilization : (ofBits m.gpuUtilization).NoDearer (ofBits m'.gpuUtilization)
  gpuMemoryUsedMb : m.gpuMemoryUsedMb ≤ m'.gpuMemoryUsedMb
  gpuMemoryTotalMb : m.gpuMemoryTotalMb = m'.gpuMemoryTotalMb
  p99 : (ofBits m.latency.p99Ms).NoDearer (ofBits m'.latency.p99Ms)

variable {m m' : BackendMetrics}

theorem Sane.noMore (h : m.Sane) : m.NoMore m where
  activeRequests := BitVec.le_refl _
  queueDepth := BitVec.le_refl _
  activeDecodeBlocks := BitVec.le_refl _
  activePrefillTokens := BitVec.le_refl _
  kvUsedBlocks := BitVec.le_refl _
  kvTotalBlocks := rfl
  gpuUtilization := NoDearer.refl h.gpu
  gpuMemoryUsedMb := BitVec.le_refl _
  gpuMemoryTotalMb := rfl
  p99 := NoDearer.refl h.p99

theorem NoMore.kvCacheUsage (h : m.NoMore m') :
    (m.kvCacheUsage : ExtRat).NoDearer m'.kvCacheUsage := by
  have hused := BitVec.le_def.1 h.kvUsedBlocks
  unfold BackendMetrics.kvCacheUsage
  rw [h.kvTotalBlocks]
  split
  · exact NoDearer.ofNat (Nat.le_refl 0)
  · rename_i htotal
    have hpos : (0 : Rat) < m'.kvTotalBlocks.toNat := by
      rw [Nat.cast_pos, Nat.pos_iff_ne_zero]
      intro hzero
      exact htotal (BitVec.eq_of_toNat_eq hzero)
    have hcounts : (Floating.ofNat m.kvUsedBlocks.toNat : ExtRat).NoDearer
        (Floating.ofNat m'.kvUsedBlocks.toNat) := NoDearer.ofNat hused
    rw [ExtRat.ofNat_eq m'.kvTotalBlocks.toNat, hcounts.left.div_eq_mul hpos,
      hcounts.right.div_eq_mul hpos]
    exact hcounts.mul (one_div_pos.2 hpos)

end BackendMetrics

namespace LoadAwareStrategy

/-- With the default weights, less load costs no more. -/
theorem noDearer_loadCost (ctx : RoutingContext) {m m' : BackendMetrics} (h : m.NoMore m') :
    (LoadAwareStrategy.default.loadCost ofBits ctx m).NoDearer
      (LoadAwareStrategy.default.loadCost ofBits ctx m') := by
  have hcount : ∀ {a b : BitVec 64}, a ≤ b →
      (Floating.ofNat a.toNat : ExtRat).NoDearer (Floating.ofNat b.toNat) := by
    intro a b hle
    exact NoDearer.ofNat (BitVec.le_def.1 hle)
  have hdecode := (hcount h.activeDecodeBlocks).add
    (NoDearer.refl (nonNegative_ofNat (reqDecodeBlocks ctx)).isCost)
  have hp99 : (ofBits m.latency.p99Ms / Floating.ofNat 100).NoDearer
      (ofBits m'.latency.p99Ms / Floating.ofNat 100) := by
    rw [ExtRat.ofNat_eq, h.p99.left.div_eq_mul (by norm_num),
      h.p99.right.div_eq_mul (by norm_num)]
    exact h.p99.mul (by norm_num)
  have hone : 0 < 1 := Nat.one_pos
  unfold loadCost
  dsimp only
  exact ((((((NoDearer.lit 1 0 hone (hcount h.activeRequests)).add
    (NoDearer.lit 1 0 hone (hcount h.queueDepth))).add (NoDearer.lit 1 2 hone hp99)).add
      (NoDearer.lit 1 0 hone h.gpuUtilization)).add (NoDearer.lit 1 0 hone h.kvCacheUsage)).add
        (NoDearer.lit 2 2 Nat.two_pos hdecode)).add
          (NoDearer.lit 1 3 hone (hcount h.activePrefillTokens))

/-- Sane metrics have a cost. -/
theorem isCost_loadCost (ctx : RoutingContext) {m : BackendMetrics} (hm : m.Sane) :
    (LoadAwareStrategy.default.loadCost ofBits ctx m).IsCost :=
  (noDearer_loadCost ctx hm.noMore).left

end LoadAwareStrategy

/-! ## All that the strategies look at -/

/-- A backend is no worse than another one for a request: it serves the same models, has at least as
many of the blocks, and no more load, and is no farther. -/
structure NoWorse (H : Xxh3) (ctx : RoutingContext) (store : MetadataStore ExtRat)
    (ix : RoutingIndices) (selfRegion : RegionId) (x y : BackendId) : Prop where
  models : store.modelGetInstances x = store.modelGetInstances y
  localHits : (ix.kvFindAllLocalOverlap H ctx.blockHashes y).getD 0 ≤
    (ix.kvFindAllLocalOverlap H ctx.blockHashes x).getD 0
  globalHits : ix.kvFindGlobalOverlap H ctx.blockHashes y.region ≤
    ix.kvFindGlobalOverlap H ctx.blockHashes x.region
  near : (ofBits (ix.topoRttMs selfRegion x.region)).NoDearer
    (ofBits (ix.topoRttMs selfRegion y.region))
  load : ∃ m m', store.loadGetMetrics x = some m ∧ store.loadGetMetrics y = some m' ∧
    m.NoMore m' ∧ 0 < m.availableCapacity ∧ 0 < m'.availableCapacity

variable {H : Xxh3} {ctx : RoutingContext} {store : MetadataStore ExtRat} {ix : RoutingIndices}
  {selfRegion : RegionId} {x y : BackendId}

/-- With room, the cost is that of the load. -/
theorem LoadAwareStrategy.rawCost_of_room {m : BackendMetrics} {cand : BackendId}
    (hm : store.loadGetMetrics cand = some m) (hroom : 0 < m.availableCapacity) :
    (LoadAwareStrategy.default.scoreOf ofBits ctx store cand).rawCost =
      LoadAwareStrategy.default.loadCost ofBits ctx m := by
  unfold LoadAwareStrategy.scoreOf
  rw [hm]
  dsimp only
  rw [if_neg (not_le.2 hroom)]

theorem LoadAwareStrategy.noDearer_scoreOf (h : NoWorse H ctx store ix selfRegion x y) :
    (LoadAwareStrategy.default.scoreOf ofBits ctx store x).rawCost.NoDearer
      (LoadAwareStrategy.default.scoreOf ofBits ctx store y).rawCost := by
  rcases h.load with ⟨m, m', hm, hm', hmore, hroom, hroom'⟩
  rw [rawCost_of_room hm hroom, rawCost_of_room hm' hroom']
  exact noDearer_loadCost ctx hmore

theorem TopologyAwareStrategy.noDearer_scoreOf {t : TopologyAwareStrategy ExtRat} {w : Rat}
    (hw : t.wRtt = .num w) (hpos : 0 < w) (h : NoWorse H ctx store ix t.selfRegion x y) :
    (t.scoreOf ofBits ix x).rawCost.NoDearer (t.scoreOf ofBits ix y).rawCost := by
  unfold scoreOf networkCost
  dsimp only
  rw [hw]
  exact h.near.mul hpos

theorem CostAwareStrategy.noDearer_scoreOf (c : CostAwareStrategy ExtRat)
    (h : NoWorse H ctx store ix selfRegion x y) :
    (c.scoreOf ctx store x).rawCost.NoDearer (c.scoreOf ctx store y).rawCost := by
  have hserved : KvCapacityStrategy.resolveServedModel x ctx.modelName store =
      KvCapacityStrategy.resolveServedModel y ctx.modelName store := by
    unfold KvCapacityStrategy.resolveServedModel
    rw [h.models]
  have hprojected : c.projected ctx store x = c.projected ctx store y := by
    unfold projected
    rw [hserved]
  have hcost : (c.scoreOf ctx store x).rawCost = (c.scoreOf ctx store y).rawCost := by
    unfold scoreOf
    rw [hprojected]
    split
    · rfl
    · split
      · rfl
      · rfl
  rw [hcost]
  exact NoDearer.refl (c.isCost_rawCost ctx store y)

theorem ModelTierStrategy.isCost_pickCost (desired : ModelTier) (tier : Option ModelTier) :
    (pickCost desired tier : ExtRat).IsCost := by
  unfold pickCost
  split
  · split
    · exact (nonNegative_ofNat 0).isCost
    · exact (nonNegative_ofNat 1).isCost
  · exact Or.inr ⟨5 / 10 ^ 1, by positivity, rfl⟩

/-- With the policy to pick, the cost is that of the tier. -/
theorem ModelTierStrategy.rawCost_of_pick {t : ModelTierStrategy ExtRat}
    (hpick : t.cfg.policy ≠ .fallback) (ctx : RoutingContext) (store : MetadataStore ExtRat)
    (cand : BackendId) :
    (t.scoreOf ctx store cand).rawCost =
      pickCost (if t.isComplex ctx then ModelTier.large else .small)
        (t.resolveTier store ctx.modelName cand) := by
  cases hpolicy : t.cfg.policy with
  | fallback => exact absurd hpolicy hpick
  | pick promptTokens maxTokens tools =>
    unfold scoreOf
    rw [hpolicy]

theorem ModelTierStrategy.isCost_rawCost {t : ModelTierStrategy ExtRat}
    (hpick : t.cfg.policy ≠ .fallback) (ctx : RoutingContext) (store : MetadataStore ExtRat)
    (cand : BackendId) : (t.scoreOf ctx store cand).rawCost.IsCost := by
  rw [rawCost_of_pick hpick]
  exact isCost_pickCost _ _

theorem ModelTierStrategy.noDearer_scoreOf {t : ModelTierStrategy ExtRat}
    (hpick : t.cfg.policy ≠ .fallback) (h : NoWorse H ctx store ix selfRegion x y) :
    (t.scoreOf ctx store x).rawCost.NoDearer (t.scoreOf ctx store y).rawCost := by
  have htier : t.resolveTier store ctx.modelName x = t.resolveTier store ctx.modelName y := by
    unfold resolveTier
    rw [h.models]
  rw [rawCost_of_pick hpick, rawCost_of_pick hpick, htier]
  exact NoDearer.refl (isCost_pickCost _ _)

/-! ## The hits -/

namespace KvAwareStrategy

variable {k : KvAwareStrategy ExtRat}

/-- Without a penalty, all hits count. -/
theorem totalOverlap_eq (hpenalty : k.ckfFalsePositivePenalty = Floating.ofNat 0)
    (hashes : List BlockHash) (cand : BackendId) :
    k.totalOverlap H ix hashes cand =
      .num ((ix.kvFindAllLocalOverlap H hashes cand).getD 0 +
        ix.kvFindGlobalOverlap H hashes cand.region) := by
  have hnone : Floating.lt (Floating.ofNat 0 : ExtRat) (Floating.ofNat 0) = false := by
    decide +kernel
  unfold totalOverlap effectiveRemote
  dsimp only
  rw [hpenalty, hnone]
  simp only [Bool.false_eq_true, if_false, ExtRat.ofNat_eq, ExtRat.num_add]

theorem noDearer_scoreOf (hpenalty : k.ckfFalsePositivePenalty = Floating.ofNat 0)
    (hscale : k.prefillLoadScale.NonNegative) (h : NoWorse H ctx store ix selfRegion x y) :
    (k.scoreOf H ix ctx store x).rawCost.NoDearer (k.scoreOf H ix ctx store y).rawCost := by
  rcases hscale with ⟨scale, hscale0, hscale⟩
  rcases h.load with ⟨m, m', hm, hm', hmore, -, -⟩
  have hdecode : decodeCount store x ≤ decodeCount store y := by
    unfold decodeCount
    rw [hm, hm']
    exact BitVec.le_def.1 hmore.activeDecodeBlocks
  have hlocal : (((ix.kvFindAllLocalOverlap H ctx.blockHashes y).getD 0 : Nat) : Rat) ≤
      ((ix.kvFindAllLocalOverlap H ctx.blockHashes x).getD 0 : Nat) := Nat.cast_le.2 h.localHits
  have hglobal : ((ix.kvFindGlobalOverlap H ctx.blockHashes y.region : Nat) : Rat) ≤
      (ix.kvFindGlobalOverlap H ctx.blockHashes x.region : Nat) := Nat.cast_le.2 h.globalHits
  rw [rawCost_scoreOf hscale (totalOverlap_eq hpenalty ctx.blockHashes x),
    rawCost_scoreOf hscale (totalOverlap_eq hpenalty ctx.blockHashes y)]
  refine NoDearer.num ?_ ?_
  · exact add_nonneg (mul_nonneg hscale0 (le_max_right _ _)) (Nat.cast_nonneg _)
  · refine add_le_add (mul_le_mul_of_nonneg_left ?_ hscale0) (Nat.cast_le.2 hdecode)
    exact max_le_max_right 0 (sub_le_sub_left (add_le_add hlocal hglobal) _)

end KvAwareStrategy

/-! ## The room for the request -/

namespace KvCapacityStrategy

/-- The share of what is left that a footprint takes; there is none if it does not suffice. -/
def shareCost (footprint : Nat) (available : Rat) : ExtRat :=
  if available ≤ 0 ∨ available < footprint then .posInf else .num (footprint / available)

/-- More room does not cost more. -/
theorem noDearer_shareCost (footprint : Nat) {available available' : Rat}
    (h : available' ≤ available) :
    (shareCost footprint available).NoDearer (shareCost footprint available') := by
  have hcost : ∀ a : Rat, (shareCost footprint a).IsCost := by
    intro a
    unfold shareCost
    split
    · exact Or.inl rfl
    · rename_i hroom
      have hpos : 0 < a := not_le.1 (not_or.1 hroom).1
      exact Or.inr ⟨_, div_nonneg (Nat.cast_nonneg _) hpos.le, rfl⟩
  refine ⟨hcost _, hcost _, ?_⟩
  by_cases hroom : available' ≤ 0 ∨ available' < footprint
  · have hinf : shareCost footprint available' = .posInf := if_pos hroom
    rw [hinf]
    exact (hcost _).le_posInf
  · rcases not_or.1 hroom with ⟨hpos, hfits⟩
    have hroom' : ¬(available ≤ 0 ∨ available < footprint) := by
      rintro (hle | hlt)
      · exact hpos (h.trans hle)
      · exact hfits (h.trans_lt hlt)
    unfold shareCost
    rw [if_neg hroom, if_neg hroom', le_num, decide_eq_true_eq]
    exact div_le_div_of_nonneg_left (Nat.cast_nonneg _) (not_le.1 hpos) h

/-- The cost of a footprint in what is left. -/
theorem scoreCapacity_available {est : KvEstimate} {m : BackendMetrics} {blockSize : BitVec 32}
    {fraction : ExtRat} {available : Rat}
    (h : availableBytes est m blockSize fraction = some (.num available)) :
    (scoreCapacity est m blockSize fraction).1 = shareCost est.bytes.toNat available := by
  unfold scoreCapacity shareCost
  rw [h]
  dsimp only
  rw [ExtRat.ofNat_eq est.bytes.toNat, ExtRat.ofNat_eq 0, ExtRat.ofNat_eq 1, le_num, lt_num,
    Nat.cast_zero, Nat.cast_one]
  by_cases hnone : available ≤ 0
  · rw [if_pos (decide_eq_true hnone), if_pos (Or.inl hnone)]
    rfl
  rw [if_neg (by simpa using hnone)]
  by_cases hfew : available < est.bytes.toNat
  · rw [if_pos (decide_eq_true hfew), if_pos (Or.inr hfew)]
    rfl
  have hpos : 0 < available := not_le.1 hnone
  have hshare0 : 0 ≤ (est.bytes.toNat : Rat) / available :=
    div_nonneg (Nat.cast_nonneg _) hpos.le
  have hshare1 : (est.bytes.toNat : Rat) / available ≤ 1 := (div_le_one₀ hpos).2 (not_lt.1 hfew)
  rw [if_neg (by simpa using hfew), if_neg (not_or.2 ⟨hnone, hfew⟩), num_div _ _ hpos.ne',
    clamp_num _ zero_le_one, min_eq_left hshare1, max_eq_right hshare0]

/-- Less load leaves as much room, or more. -/
theorem availableBytes_noMore (est : KvEstimate) {m m' : BackendMetrics} (h : m.NoMore m')
    (blockSize : BitVec 32) {fraction : ExtRat} (hfraction : fraction.NonNegative) :
    availableBytes est m blockSize fraction = none ∧
        availableBytes est m' blockSize fraction = none ∨
      ∃ a a', availableBytes est m blockSize fraction = some (.num a) ∧
        availableBytes est m' blockSize fraction = some (.num a') ∧ a' ≤ a := by
  rcases hfraction with ⟨f, hf, rfl⟩
  have hblocks : (((m'.kvTotalBlocks.toNat - m'.kvUsedBlocks.toNat : Nat)) : Rat) ≤
      ((m'.kvTotalBlocks.toNat - m.kvUsedBlocks.toNat : Nat) : Rat) :=
    Nat.cast_le.2 (Nat.sub_le_sub_left (BitVec.le_def.1 h.kvUsedBlocks) _)
  have hmemory : (((m'.gpuMemoryTotalMb.toNat - m'.gpuMemoryUsedMb.toNat : Nat)) : Rat) ≤
      ((m'.gpuMemoryTotalMb.toNat - m.gpuMemoryUsedMb.toNat : Nat) : Rat) :=
    Nat.cast_le.2 (Nat.sub_le_sub_left (BitVec.le_def.1 h.gpuMemoryUsedMb) _)
  unfold availableBytes bytesPerMb
  dsimp only
  rw [h.kvTotalBlocks, h.gpuMemoryTotalMb]
  simp only [ExtRat.ofNat_eq, ExtRat.num_mul]
  generalize (if 0 < blockSize.toNat then
    min (est.perTokenBytes.toNat * blockSize.toNat) (2 ^ 64 - 1) else 0) = perBlockBytes
  by_cases hcounted : 0 < m'.kvTotalBlocks.toNat ∧ 0 < blockSize.toNat ∧ 0 < perBlockBytes
  · rw [if_pos hcounted, if_pos hcounted]
    exact Or.inr ⟨_, _, rfl, rfl, mul_le_mul_of_nonneg_right hblocks (Nat.cast_nonneg _)⟩
  rw [if_neg hcounted, if_neg hcounted]
  by_cases hsized : 0 < m'.gpuMemoryTotalMb.toNat
  · rw [if_pos hsized, if_pos hsized]
    refine Or.inr ⟨_, _, rfl, rfl, mul_le_mul_of_nonneg_right ?_ hf⟩
    exact mul_le_mul_of_nonneg_right hmemory (Nat.cast_nonneg _)
  · rw [if_neg hsized, if_neg hsized]
    exact Or.inl ⟨rfl, rfl⟩

/-- Less load costs no more of the room. -/
theorem noDearer_scoreCapacity (est : KvEstimate) {m m' : BackendMetrics} (h : m.NoMore m')
    (blockSize : BitVec 32) {fraction : ExtRat} (hfraction : fraction.NonNegative) :
    (scoreCapacity est m blockSize fraction).1.NoDearer
      (scoreCapacity est m' blockSize fraction).1 := by
  rcases availableBytes_noMore est h blockSize hfraction with
    ⟨hnone, hnone'⟩ | ⟨a, a', ha, ha', hle⟩
  · unfold scoreCapacity
    rw [hnone, hnone']
    exact NoDearer.ofNat (Nat.le_refl 0)
  · rw [scoreCapacity_available ha, scoreCapacity_available ha']
    exact noDearer_shareCost _ hle

/-- Sane metrics or not, there is a cost. -/
theorem rawCost_cases {k : KvCapacityStrategy ExtRat}
    (hfraction : k.gpuMemSafetyFraction.NonNegative) (ctx : RoutingContext)
    (store : MetadataStore ExtRat) (cand : BackendId) :
    (k.scoreOf ctx store cand).rawCost = .posInf ∨
      ∃ q, (k.scoreOf ctx store cand).rawCost = .num q := by
  rcases hfraction with ⟨fraction, -, hfraction⟩
  have hcost : (k.strategy : RoutingStrategy ExtRat Unit).OneCostEach ctx store :=
    HybridStrategy.oneCostEach_kvCapacity hfraction
  exact (hcost [cand] () _ () rfl).2 _ List.mem_cons_self

theorem noDearer_scoreOf {k : KvCapacityStrategy ExtRat}
    (hfraction : k.gpuMemSafetyFraction.NonNegative) (h : NoWorse H ctx store ix selfRegion x y) :
    (k.scoreOf ctx store x).rawCost.NoDearer (k.scoreOf ctx store y).rawCost := by
  rcases h.load with ⟨m, m', hm, hm', hmore, -, -⟩
  have hserved : resolveServedModel x ctx.modelName store =
      resolveServedModel y ctx.modelName store := by
    unfold resolveServedModel
    rw [h.models]
  unfold scoreOf
  rw [hserved, hm, hm']
  split
  · exact NoDearer.ofNat (Nat.le_refl 0)
  · split
    · split
      · exact NoDearer.refl (Or.inl rfl)
      · exact NoDearer.ofNat (Nat.le_refl 0)
    · exact noDearer_scoreCapacity _ hmore ctx.blockSize hfraction

end KvCapacityStrategy

end HierKvGateway
