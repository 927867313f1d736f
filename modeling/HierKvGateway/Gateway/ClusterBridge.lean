import HierKvGateway.Cluster.CkfRelay

/-!
# Gateway.ClusterBridge — receiving CKF messages

The gossip handler (`cluster_bridge.rs`) applies a received message to the lane
of the pool's *Region*. It drops a message of a Region without a lane and a
snapshot whose bucket count is not the declared one; it compares no sequence
numbers.
-/

namespace HierKvGateway

/-- The handler's view of the store: the consumer and the version counter of the
KV category. -/
structure MetadataGossipHandler where
  consumer : CkfConsumer
  kvVersion : BitVec 64

namespace MetadataGossipHandler

/-- A barrier snapshot arrives. -/
def handleCkfBarrierSnapshot (pool : PoolId) (sequence : BitVec 64) (buckets : List PackedBucket)
    (numBuckets : Nat) (g : MetadataGossipHandler) : MetadataGossipHandler :=
  match g.consumer.laneOf pool.region with
  | none => g
  | some l =>
    if buckets.length ≠ numBuckets then g
    else ⟨g.consumer.installSnapshot l ⟨sequence, buckets⟩, g.kvVersion + 1⟩

/-- A delta arrives. -/
def handleCkfDelta (pool : PoolId) (sequence prevSequence : BitVec 64)
    (dirtyBuckets : List (Nat × PackedBucket)) (g : MetadataGossipHandler) :
    MetadataGossipHandler :=
  match g.consumer.laneOf pool.region with
  | none => g
  | some l => ⟨g.consumer.applyDelta l ⟨sequence, prevSequence, dirtyBuckets⟩, g.kvVersion + 1⟩

/-- A message arrives. -/
def handle (g : MetadataGossipHandler) : ClusterMessage → MetadataGossipHandler
  | .ckfBarrierSnapshot pool sequence buckets numBuckets =>
    g.handleCkfBarrierSnapshot pool sequence buckets numBuckets
  | .ckfDelta pool sequence prevSequence dirtyBuckets =>
    g.handleCkfDelta pool sequence prevSequence dirtyBuckets

/-- The buckets of a lane. -/
abbrev lane (g : MetadataGossipHandler) (l : RegionLane) : Lane := g.consumer.lane l

/-- The state of a lane. -/
abbrev status (g : MetadataGossipHandler) (l : RegionLane) : LaneStatus := g.consumer.laneStatus l

variable {g : MetadataGossipHandler} {l : RegionLane} {e : Publication}

/-- A message never changes which lane a Region has. -/
theorem handle_laneRegions (g : MetadataGossipHandler) (m : ClusterMessage) :
    (g.handle m).consumer.laneRegions = g.consumer.laneRegions := by
  cases m with
  | ckfBarrierSnapshot pool sequence buckets numBuckets =>
    rw [handle, handleCkfBarrierSnapshot]
    cases g.consumer.laneOf pool.region with
    | none => rfl
    | some l =>
      dsimp only
      split
      · rfl
      · exact (CkfConsumer.installSnapshot_spec _).2.2.laneRegions
  | ckfDelta pool sequence prevSequence dirtyBuckets =>
    rw [handle, handleCkfDelta]
    cases g.consumer.laneOf pool.region with
    | none => rfl
    | some l => exact (CkfConsumer.applyDelta_spec _).2.2.laneRegions

theorem handle_laneOf (g : MetadataGossipHandler) (m : ClusterMessage) (region : RegionId) :
    (g.handle m).consumer.laneOf region = g.consumer.laneOf region := by
  rw [CkfConsumer.laneOf, CkfConsumer.laneOf, handle_laneRegions]

/-- A publication of a Region patches the Region's lane, and a barrier activates
it, whatever their sequence numbers. -/
theorem handle_spec (he : e.Faithful) (hl : g.consumer.laneOf e.message.pool.region = some l) :
    (g.handle e.message).lane l = CkfConsumer.patch (g.lane l) e.message.entries ∧
      (g.handle e.message).status l =
        (if e.message.isBarrier then .active else g.status l) ∧
      CkfConsumer.SameElsewhere l g.consumer (g.handle e.message).consumer := by
  cases hm : e.message with
  | ckfBarrierSnapshot pool sequence buckets numBuckets =>
    rw [hm, ClusterMessage.pool] at hl
    -- the declared count is right, so the snapshot is not dropped
    have hcount : ¬ buckets.length ≠ numBuckets :=
      not_not.2 (he.declared pool sequence buckets numBuckets hm)
    obtain ⟨hlane, hstatus, hsame⟩ :=
      CkfConsumer.installSnapshot_spec (l := l) (c := g.consumer) ⟨sequence, buckets⟩
    simp only [handle, handleCkfBarrierSnapshot, hl, if_neg hcount, ClusterMessage.entries,
      ClusterMessage.isBarrier, if_true]
    exact ⟨hlane, hstatus, hsame⟩
  | ckfDelta pool sequence prevSequence dirtyBuckets =>
    rw [hm, ClusterMessage.pool] at hl
    obtain ⟨hlane, hstatus, hsame⟩ := CkfConsumer.applyDelta_spec (l := l) (c := g.consumer)
      ⟨sequence, prevSequence, dirtyBuckets⟩
    simp only [handle, handleCkfDelta, hl, ClusterMessage.entries, ClusterMessage.isBarrier,
      Bool.false_eq_true, if_false]
    exact ⟨hlane, congrFun hstatus l, hsame⟩

/-- A message of a Region without a lane is dropped. -/
theorem handle_dropped {m : ClusterMessage} (h : g.consumer.laneOf m.pool.region = none) :
    g.handle m = g := by
  cases m with
  | ckfBarrierSnapshot pool sequence buckets numBuckets =>
    rw [ClusterMessage.pool] at h
    simp only [handle, handleCkfBarrierSnapshot, h]
  | ckfDelta pool sequence prevSequence dirtyBuckets =>
    rw [ClusterMessage.pool] at h
    simp only [handle, handleCkfDelta, h]

/-- A message of another Region leaves the lane of this one alone. -/
theorem handle_other (he : e.Faithful) {region : RegionId}
    (hl : g.consumer.laneOf region = some l) (hne : e.message.pool.region ≠ region) :
    (g.handle e.message).lane l = g.lane l := by
  cases hother : g.consumer.laneOf e.message.pool.region with
  | none => rw [handle_dropped hother]
  | some m =>
    have hml : l ≠ m := by
      rintro rfl
      have h1 := CkfConsumer.laneRegions_of_laneOf hl
      have h2 := CkfConsumer.laneRegions_of_laneOf hother
      exact hne (Option.some.inj (h2.symm.trans h1))
    obtain ⟨_, _, hsame⟩ := handle_spec he hother
    exact hsame.lane l hml

end MetadataGossipHandler

/-- A handler that has a lane for the Region. -/
structure Receiver (region : RegionId) where
  handler : MetadataGossipHandler
  lane : RegionLane
  bound : handler.consumer.laneOf region = some lane

end HierKvGateway
