import HierKvGateway.Metadata.CkfConsumer
import HierKvGateway.Metadata.LaneScan
import HierKvGateway.Metadata.TopologyGraph
import HierKvGateway.Routing.Exclusion

/-!
# Routing.KvAware — the KV-aware strategy

The strategy (`kv_aware.rs`) counts the blocks of a request that a candidate need not fill in: those
its lane of the local filter has, and those the filter of its Region has. The rest costs.

`KvAwareStrategy.cost_of_events`: the lanes never fall short of the tree, so after any KV events
the cost of a candidate is at most that of the blocks the tree does not record for it.
-/

namespace HierKvGateway

/-- The KV index and the topology graph of the metadata store (`store.rs`). -/
structure RoutingIndices where
  kv : KvIndex
  consumer : CkfConsumer
  topology : TopologyGraph

namespace RoutingIndices

/-- `kv_find_all_local_overlap`, for one backend. -/
def kvFindAllLocalOverlap (H : Xxh3) (ix : RoutingIndices) (hashes : List BlockHash)
    (backend : BackendId) : Option Nat :=
  ix.kv.kvFindAllLocalOverlap H hashes backend

/-- `kv_find_global_overlap`. -/
def kvFindGlobalOverlap (H : Xxh3) (ix : RoutingIndices) (hashes : List BlockHash)
    (region : RegionId) : Nat :=
  ix.consumer.estimateOverlap H hashes region

/-- `topo_rtt_ms`. -/
def topoRttMs (ix : RoutingIndices) (source target : RegionId) : F64 :=
  ix.topology.rttMs source target

end RoutingIndices

/-- The KV-aware strategy. -/
structure KvAwareStrategy (F : Type) where
  /-- Added to the score for each block that is hit. -/
  overlapScoreCredit : F
  /-- The cost of a block that is to be filled in. -/
  prefillLoadScale : F
  /-- The part of the hits in other Regions that does not count. -/
  ckfFalsePositivePenalty : F

namespace KvAwareStrategy

section Score

variable {F σ : Type} [Floating F]

/-- `KvAwareStrategy::default`. -/
def default : KvAwareStrategy F := ⟨Floating.ofNat 0, Floating.ofNat 1, Floating.ofNat 0⟩

/-- The hits in the filter of the candidate's Region, after the penalty. -/
def effectiveRemote (k : KvAwareStrategy F) (remoteOverlap : Nat) : F :=
  if Floating.lt (Floating.ofNat 0) k.ckfFalsePositivePenalty then
    Floating.ofNat remoteOverlap * (Floating.ofNat 1 -
      Floating.clamp k.ckfFalsePositivePenalty (Floating.ofNat 0) (Floating.ofNat 1))
  else Floating.ofNat remoteOverlap

/-- The hits of a candidate. -/
def totalOverlap (k : KvAwareStrategy F) (H : Xxh3) (ix : RoutingIndices)
    (hashes : List BlockHash) (cand : BackendId) : F :=
  let localOverlap := (ix.kvFindAllLocalOverlap H hashes cand).getD 0
  let remoteOverlap := ix.kvFindGlobalOverlap H hashes cand.region
  Floating.ofNat localOverlap + k.effectiveRemote remoteOverlap

/-- The active blocks of the decode phase; none if there are no metrics. -/
def decodeBlocks (store : MetadataStore F) (cand : BackendId) : F :=
  match store.loadGetMetrics cand with
  | some m => Floating.ofNat m.activeDecodeBlocks.toNat
  | none => Floating.ofNat 0

/-- The score of a candidate. -/
def scoreOf (k : KvAwareStrategy F) (H : Xxh3) (ix : RoutingIndices) (ctx : RoutingContext)
    (store : MetadataStore F) (cand : BackendId) : ScoredBackend F :=
  let totalOverlap := k.totalOverlap H ix ctx.blockHashes cand
  let prefillBlocks :=
    Floating.max (Floating.ofNat ctx.blockHashes.length - totalOverlap) (Floating.ofNat 0)
  let cost := k.prefillLoadScale * prefillBlocks + decodeBlocks store cand
  ⟨cand, Floating.ofNat 1 / (Floating.ofNat 1 + cost) + k.overlapScoreCredit * totalOverlap, cost,
    0⟩

/-- `KvAwareStrategy` as a strategy; `indices` reads the indices of the store. -/
def strategy (k : KvAwareStrategy F) (H : Xxh3) (indices : σ → RoutingIndices) :
    RoutingStrategy F σ where
  name := "kv_aware"
  evaluate ctx candidates store s :=
    (.ok (candidates.map (k.scoreOf H (indices s) ctx store)), s)
  isAvailable store := Floating.lt (Floating.ofNat 0) store.kvConfidence
  weight := Floating.lit 35 2

end Score

/-! ## The hits -/

/-- The parameters are numbers, and a block that is to be filled in costs. -/
structure Exact (k : KvAwareStrategy ExtRat) : Prop where
  credit : ∃ q, k.overlapScoreCredit = .num q
  scale : k.prefillLoadScale.NonNegative
  penalty : ∃ q, k.ckfFalsePositivePenalty = .num q

variable {k : KvAwareStrategy ExtRat} {H : Xxh3} {ix : RoutingIndices} {ctx : RoutingContext}
  {store : MetadataStore ExtRat} {cand : BackendId}

/-- The penalty takes a part of the hits, and no more than all. -/
theorem exists_effectiveRemote (hk : k.Exact) (remoteOverlap : Nat) :
    ∃ r, k.effectiveRemote remoteOverlap = .num r ∧ 0 ≤ r ∧ r ≤ remoteOverlap := by
  have hremote : (0 : Rat) ≤ remoteOverlap := Nat.cast_nonneg _
  rcases hk.penalty with ⟨p, hp⟩
  unfold effectiveRemote
  rw [hp, ExtRat.ofNat_eq remoteOverlap]
  split
  · have hclamp : ExtRat.IsRate
        (Floating.clamp (ExtRat.num p) (Floating.ofNat 0) (Floating.ofNat 1)) :=
      ExtRat.isRate_clamp ExtRat.noConfusion
    rcases hclamp with ⟨q, hq, hq0, hq1⟩
    rw [hq, ExtRat.ofNat_eq, ExtRat.num_sub, ExtRat.num_mul, Nat.cast_one]
    have hkeep : 0 ≤ 1 - q := sub_nonneg.2 hq1
    have hpart : 1 - q ≤ 1 := sub_le_self 1 hq0
    exact ⟨_, rfl, mul_nonneg hremote hkeep, mul_le_of_le_one_right hremote hpart⟩
  · exact ⟨remoteOverlap, rfl, hremote, le_rfl⟩

/-- The hits are a number, and the hits in the candidate's own lane all count. -/
theorem exists_totalOverlap (hk : k.Exact) (H : Xxh3) (ix : RoutingIndices)
    (hashes : List BlockHash) (cand : BackendId) :
    ∃ t, k.totalOverlap H ix hashes cand = .num t ∧
      ((ix.kvFindAllLocalOverlap H hashes cand).getD 0 : Rat) ≤ t := by
  rcases exists_effectiveRemote hk (ix.kvFindGlobalOverlap H hashes cand.region) with ⟨r, hr, hr0, -⟩
  unfold totalOverlap
  dsimp only
  rw [hr, ExtRat.ofNat_eq, ExtRat.num_add]
  exact ⟨_, rfl, le_add_of_nonneg_right hr0⟩

/-- The active decode blocks as a number. -/
def decodeCount (store : MetadataStore ExtRat) (cand : BackendId) : Nat :=
  match store.loadGetMetrics cand with
  | some m => m.activeDecodeBlocks.toNat
  | none => 0

theorem decodeBlocks_eq : decodeBlocks store cand = .num (decodeCount store cand) := by
  unfold decodeBlocks decodeCount
  split
  · exact ExtRat.ofNat_eq _
  · exact ExtRat.ofNat_eq 0

/-- The cost: what is missing, and the decode blocks. -/
theorem rawCost_scoreOf {scale t : Rat} (hscale : k.prefillLoadScale = .num scale)
    (ht : k.totalOverlap H ix ctx.blockHashes cand = .num t) :
    (k.scoreOf H ix ctx store cand).rawCost =
      .num (scale * max (ctx.blockHashes.length - t) 0 + decodeCount store cand) := by
  unfold scoreOf
  dsimp only
  rw [hscale, ht, decodeBlocks_eq, ExtRat.ofNat_eq, ExtRat.ofNat_eq, ExtRat.num_sub, ExtRat.max_num,
    ExtRat.num_mul, ExtRat.num_add, Nat.cast_zero]

theorem backendId_scoreOf (k : KvAwareStrategy ExtRat) (H : Xxh3) (ix : RoutingIndices)
    (ctx : RoutingContext) (store : MetadataStore ExtRat) (cand : BackendId) :
    (k.scoreOf H ix ctx store cand).backendId = cand := rfl

/-- The cost is a number between the decode blocks and what would be missing with the hits of the
candidate's own lane alone. -/
theorem exists_rawCost (hk : k.Exact) {scale : Rat} (hscale : k.prefillLoadScale = .num scale)
    (H : Xxh3) (ix : RoutingIndices) (ctx : RoutingContext) (store : MetadataStore ExtRat)
    (cand : BackendId) :
    ∃ c, (k.scoreOf H ix ctx store cand).rawCost = .num c ∧ decodeCount store cand ≤ c ∧
      ∀ m : Nat, m ≤ (ix.kvFindAllLocalOverlap H ctx.blockHashes cand).getD 0 →
        m ≤ ctx.blockHashes.length →
          c ≤ scale * (ctx.blockHashes.length - m) + decodeCount store cand := by
  rcases exists_totalOverlap hk H ix ctx.blockHashes cand with ⟨t, ht, hlocal⟩
  rcases hk.scale with ⟨q, hq0, hq⟩
  rcases ExtRat.num.inj (hscale.symm.trans hq) with rfl
  refine ⟨_, rawCost_scoreOf hscale ht, ?_, ?_⟩
  · exact le_add_of_nonneg_left (mul_nonneg hq0 (le_max_right _ _))
  · intro m hm hlen
    have hm' : (m : Rat) ≤ t := le_trans (Nat.cast_le.2 hm) hlocal
    have hlen' : (m : Rat) ≤ ctx.blockHashes.length := Nat.cast_le.2 hlen
    have hmissing : max ((ctx.blockHashes.length : Rat) - t) 0 ≤ ctx.blockHashes.length - m :=
      max_le (sub_le_sub_left hm' _) (sub_nonneg.2 hlen')
    exact add_le_add_left (mul_le_mul_of_nonneg_left hmissing hq0) _

end KvAwareStrategy

/-! ## The hits after any KV events -/

namespace KvIndex

variable {H : Xxh3} {B : Finset BackendId} {ops : List KvOp}

/-- The batched query does not fall short of the tree, after operations of at most sixteen backends
whose insertions found room. -/
theorem findMatches_le_batch (hcard : B.card ≤ localLaneCount) (hops : ∀ op ∈ ops, op.backend ∈ B)
    (hS : NoCollision H {x | x ∈ ops.flatMap KvOp.hashes})
    (hroom : Run.Each (KvOp.apply H) (EachWrite H (LocalCkf.InsertRoom H)) new ops)
    (hok : Run.Each (KvOp.apply H) (EachWrite H (LocalCkf.InsertOk H)) new ops)
    (hashes : List BlockHash) (b : BackendId) :
    (run H ops).radix.findMatches hashes b ≤
      ((run H ops).kvFindAllLocalOverlap H hashes b).getD 0 := by
  have hamong : ∀ op ∈ ops, Among {x | x ∈ ops.flatMap KvOp.hashes} B op :=
    fun op hop => ⟨hops op hop, fun x hx => List.mem_flatMap.2 ⟨op, hop, hx⟩⟩
  have hagrees := agrees_run hS hcard hamong hok
  have hfound := found_run hS hcard hamong hok hroom
  rw [kvFindAllLocalOverlap_eq hagrees.bound]
  rcases hl : (run H ops).localCkf.laneOf b with _ | l
  · -- a backend without a lane holds nothing
    have hnone : ∀ x ∈ (run H ops).radix.index.blocks b, False := by
      intro x hx
      have hpos := (hagrees.held b x hx).2
      rw [hagrees.unbound b hl] at hpos
      exact absurd hpos (lt_irrefl 0)
    have hle : (run H ops).radix.findMatches hashes b ≤ prefixHits (fun _ => false) hashes :=
      findMatches_le_prefixHits fun x hx => (hnone x hx).elim
    refine hle.trans ?_
    cases hashes with
    | nil => exact Nat.le_refl 0
    | cons hash hashes => exact Nat.le_refl 0
  · refine (findMatches_le_prefixHits (hfound b l hl)).trans ?_
    rw [LocalCkf.prefixHits_eq_lead]
    exact LeadingRun.lead_le_tally
      (LocalCkf.contains_any (hagrees.bound.active_of_laneOf hl)) hashes

end KvIndex

/-- After any KV events of at most sixteen backends whose insertions found room: a block that the
tree records for a candidate costs it nothing, whatever the filters of the Regions say. -/
theorem KvAwareStrategy.cost_of_events {k : KvAwareStrategy ExtRat} (hk : k.Exact) {scale : Rat}
    (hscale : k.prefillLoadScale = .num scale) {H : Xxh3} {B : Finset BackendId}
    (hcard : B.card ≤ localLaneCount) {ops : List KvOp} (hops : ∀ op ∈ ops, op.backend ∈ B)
    (hS : NoCollision H {x | x ∈ ops.flatMap KvOp.hashes})
    (hroom : Run.Each (KvOp.apply H) (KvIndex.EachWrite H (LocalCkf.InsertRoom H)) .new ops)
    (hok : Run.Each (KvOp.apply H) (KvIndex.EachWrite H (LocalCkf.InsertOk H)) .new ops)
    (consumer : CkfConsumer) (topology : TopologyGraph) (ctx : RoutingContext)
    (store : MetadataStore ExtRat) (cand : BackendId) :
    let known := (KvIndex.run H ops).radix.findMatches ctx.blockHashes cand
    ∃ c, (k.scoreOf H ⟨KvIndex.run H ops, consumer, topology⟩ ctx store cand).rawCost = .num c ∧
      decodeCount store cand ≤ c ∧
      c ≤ scale * (ctx.blockHashes.length - known) + decodeCount store cand := by
  intro known
  rcases exists_rawCost hk hscale H ⟨KvIndex.run H ops, consumer, topology⟩ ctx store cand with
    ⟨c, hc, hdecode, hmost⟩
  refine ⟨c, hc, hdecode, hmost known ?_ ?_⟩
  · exact KvIndex.findMatches_le_batch hcard hops hS hroom hok ctx.blockHashes cand
  · exact (TreeState.le_findMatches_iff.1 (le_refl known)).1

end HierKvGateway
