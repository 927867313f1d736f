import HierKvGateway.Metadata.Replication

/-!
# Cluster.CkfRelay — what a pool publishes

The relay (`ckf_relay.rs`) keeps one producer per pool. `flush` visits every
pool and broadcasts the delta of its producer if there is one; `publish_barrier`
broadcasts a full snapshot of one pool. Each broadcast runs in its own task, so
nothing orders two messages on their way.

A `Publication` is a message together with two ghosts a reader may be compared
with: the buckets it carries and the producer's buckets at that moment.
-/

namespace HierKvGateway

/-- The messages that carry CKF lanes between Regions. -/
inductive ClusterMessage where
  | ckfBarrierSnapshot (pool : PoolId) (sequence : BitVec 64) (buckets : List PackedBucket)
      (numBuckets : Nat)
  | ckfDelta (pool : PoolId) (sequence prevSequence : BitVec 64)
      (dirtyBuckets : List (Nat × PackedBucket))

/-- A broadcast message, the buckets it carries, and the producer's lane when it
was published. -/
structure Publication where
  message : ClusterMessage
  carried : Finset BucketIdx
  after : Lane

namespace KvRelay

/-- The visit of one pool by `flush`: a delta, or nothing to send. -/
def flushPool (pool : PoolId) (p : CkfProducer) : CkfProducer × Option Publication :=
  match p.delta with
  | (p', some d) =>
    (p', some ⟨.ckfDelta pool d.sequence d.prevSequence d.buckets, p.dirtyBuckets, p.buckets⟩)
  | (p', none) => (p', none)

/-- Force-publish a full snapshot of a pool. -/
def publishBarrier (pool : PoolId) (p : CkfProducer) : CkfProducer × Publication :=
  (p.snapshot.1,
    ⟨.ckfBarrierSnapshot pool p.snapshot.2.sequence p.snapshot.2.buckets bucketsPerLane,
      Finset.univ, p.buckets⟩)

end KvRelay

/-! ## What a message does to a lane -/

namespace ClusterMessage

/-- The pool a message belongs to. -/
def pool : ClusterMessage → PoolId
  | .ckfBarrierSnapshot pool _ _ _ => pool
  | .ckfDelta pool _ _ _ => pool

/-- Whether the message is a full snapshot. -/
def isBarrier : ClusterMessage → Bool
  | .ckfBarrierSnapshot _ _ _ _ => true
  | .ckfDelta _ _ _ _ => false

/-- The bucket writes of a message. -/
def entries : ClusterMessage → List (Nat × PackedBucket)
  | .ckfBarrierSnapshot _ sequence buckets _ => CkfSnapshot.entries ⟨sequence, buckets⟩
  | .ckfDelta _ _ _ dirtyBuckets => dirtyBuckets

end ClusterMessage

/-- A publication carries the producer's value of some of its buckets, of all of
them if it is a barrier, and declares as many buckets as it has. -/
structure Publication.Faithful (e : Publication) : Prop where
  writes : ∀ lane i, CkfConsumer.patch lane e.message.entries i =
    if i ∈ e.carried then e.after i else lane i
  barrier : e.message.isBarrier = true → e.carried = Finset.univ
  declared : ∀ pool sequence buckets n,
    e.message = .ckfBarrierSnapshot pool sequence buckets n → buckets.length = n

namespace Publication.Faithful

variable {e : Publication}

/-- A barrier replaces the lane. -/
theorem patch_barrier (he : e.Faithful) (h : e.message.isBarrier = true) (lane : Lane) :
    CkfConsumer.patch lane e.message.entries = e.after := by
  funext i
  rw [he.writes, he.barrier h, if_pos (Finset.mem_univ i)]

/-- A lane that differs from the producer only in carried buckets is brought up
to date. -/
theorem patch_of_agree (he : e.Faithful) {lane : Lane} (h : ∀ i, i ∉ e.carried → lane i = e.after i) :
    CkfConsumer.patch lane e.message.entries = e.after := by
  funext i
  rw [he.writes]
  by_cases hi : i ∈ e.carried
  · rw [if_pos hi]
  · rw [if_neg hi, h i hi]

end Publication.Faithful

namespace KvRelay

variable {pool : PoolId} {p : CkfProducer}

/-- The two outcomes of visiting a pool. -/
theorem flushPool_cases (pool : PoolId) (p : CkfProducer) :
    (p.dirtyBuckets = ∅ ∧ flushPool pool p = (p, none)) ∨
    ∃ d, p.delta.2 = some d ∧
      flushPool pool p = ({ p with pubSeq := p.pubSeq + 1, dirtyBuckets := ∅ },
        some ⟨.ckfDelta pool d.sequence d.prevSequence d.buckets, p.dirtyBuckets, p.buckets⟩) := by
  by_cases hdirty : p.dirtyBuckets = ∅
  · refine Or.inl ⟨hdirty, ?_⟩
    simp only [flushPool, CkfProducer.delta_none hdirty]
  · refine Or.inr ⟨_, congrArg Prod.snd (CkfProducer.delta_some hdirty), ?_⟩
    simp only [flushPool, CkfProducer.delta_some hdirty]

/-- What `flush` sends of a pool. -/
theorem flushPool_faithful {e : Publication} (h : (flushPool pool p).2 = some e) :
    e.Faithful ∧ e.carried = p.dirtyBuckets ∧ e.after = p.buckets ∧
      e.message.isBarrier = false ∧ e.message.pool = pool := by
  rcases flushPool_cases pool p with ⟨_, hp⟩ | ⟨d, hd, hp⟩
  · rw [hp] at h
    exact absurd h (by simp)
  · rw [hp] at h
    obtain rfl := Option.some.inj h
    refine ⟨⟨fun lane i => CkfProducer.patch_delta hd lane i, ?_, ?_⟩, rfl, rfl, rfl, rfl⟩
    · intro h
      exact absurd h (by simp [ClusterMessage.isBarrier])
    · intro _ _ _ _ h
      exact absurd h (by simp)

private theorem barrier_faithful {sequence : BitVec 64} {buckets : List PackedBucket} {f : Lane}
    (h : buckets = List.ofFn f) :
    (Publication.mk (.ckfBarrierSnapshot pool sequence buckets bucketsPerLane) Finset.univ
      f).Faithful where
  writes lane i := by
    have hfull : CkfConsumer.patch lane (CkfSnapshot.entries ⟨sequence, buckets⟩) = f :=
      CkfConsumer.patch_full h lane
    rw [ClusterMessage.entries, hfull, if_pos (Finset.mem_univ i)]
  barrier _ := rfl
  declared _ _ _ _ hm := by
    obtain ⟨_, _, rfl, rfl⟩ := ClusterMessage.ckfBarrierSnapshot.inj hm
    rw [h, List.length_ofFn]

/-- What `publish_barrier` sends. -/
theorem publishBarrier_faithful (pool : PoolId) (p : CkfProducer) :
    (publishBarrier pool p).2.Faithful := by
  have hbuckets := CkfProducer.snapshot_buckets p
  rw [publishBarrier]
  exact barrier_faithful hbuckets

end KvRelay

end HierKvGateway
