import HierKvGateway.Gateway.ClusterBridge

/-!
# Gateway.SharedLane — several pools, one lane

A pool is an indexer domain in a Region and has a producer of its own; a lane
belongs to a Region. So all pools of a Region write into the same lane, bucket
by bucket, and a message replaces the buckets it carries by its own pool's
values. Here every pool has a channel that loses nothing and keeps its order,
the channels interleave in any way, and the question is which fingerprints of
the delivered states survive (`NothingErased`).

The ghosts are, per pool, the producer's buckets at its last publication and at
its last delivery.
-/

namespace HierKvGateway

/-- The pools, their channels to one receiver, and the receiver. -/
structure SharedLane where
  producers : PoolId → CkfProducer
  queues : PoolId → List Publication
  latest : PoolId → Lane
  delivered : PoolId → Lane
  handler : MetadataGossipHandler

namespace SharedLane

/-- What may happen next. -/
inductive Label where
  | event (pool : PoolId) (order : IterOrder) (event : KvCacheEvent) (backend : BackendId)
  | flush (pool : PoolId)
  | barrier (pool : PoolId)
  | deliver (pool : PoolId)

/-- New producers and empty channels. -/
def start {region : RegionId} (seeds : PoolId → BitVec 64) (r : Receiver region) : SharedLane where
  producers pool := .withSeed (seeds pool)
  queues _ := []
  latest _ _ := 0
  delivered _ _ := 0
  handler := r.handler

/-- A publication enters the channel of its pool. -/
def send (pool : PoolId) (e : Publication) (s : SharedLane) : SharedLane :=
  { s with
    queues := Function.update s.queues pool (s.queues pool ++ [e])
    latest := Function.update s.latest pool e.after }

/-- One step of a pool or a channel. -/
def step (H : Xxh3) (s : SharedLane) : Label → SharedLane
  | .event pool order event backend =>
    { s with
      producers := Function.update s.producers pool
        ((s.producers pool).applyEvent H order event backend) }
  | .flush pool =>
    let (p, sent) := KvRelay.flushPool pool (s.producers pool)
    let s := { s with producers := Function.update s.producers pool p }
    match sent with
    | some e => s.send pool e
    | none => s
  | .barrier pool =>
    let (p, e) := KvRelay.publishBarrier pool (s.producers pool)
    { s with producers := Function.update s.producers pool p }.send pool e
  | .deliver pool =>
    match s.queues pool with
    | [] => s
    | e :: rest =>
      { s with
        queues := Function.update s.queues pool rest
        delivered := Function.update s.delivered pool e.after
        handler := s.handler.handle e.message }

/-- Every fingerprint in the last delivered state of a pool of the Region is
still in the lane. -/
def NothingErased (region : RegionId) (l : RegionLane) (s : SharedLane) : Prop :=
  ∀ q, q.region = region → ∀ i fp, fp ∈ fps (s.delivered q i) → fp ∈ fps (s.handler.lane l i)

/-- In the buckets the delivered message carries, its pool has every fingerprint
that another pool of the Region has delivered there. -/
def NoClash (region : RegionId) (s : SharedLane) : Label → Prop
  | .deliver p => ∀ e rest, s.queues p = e :: rest → p.region = region →
      ∀ q, q ≠ p → q.region = region →
        ∀ i ∈ e.carried, ∀ fp ∈ fps (s.delivered q i), fp ∈ fps (e.after i)
  | _ => True

/-! ## The channel of one pool -/

/-- What a publication does not carry it left as it was or emptied (a `Reset` is
not recorded). -/
def Extends (before : Lane) (e : Publication) : Prop :=
  ∀ i, i ∉ e.carried → e.after i = before i ∨ e.after i = 0

/-- The publications in a channel lead from the delivered to the latest state. -/
def Chained : Lane → List Publication → Lane → Prop
  | before, [], latest => before = latest
  | before, e :: es, latest => Extends before e ∧ Chained e.after es latest

theorem Chained.append {before latest : Lane} {es : List Publication} {e : Publication}
    (h : Chained before es latest) (he : Extends latest e) :
    Chained before (es ++ [e]) e.after := by
  induction es generalizing before with
  | nil =>
    obtain rfl : before = latest := h
    exact ⟨he, rfl⟩
  | cons x xs ih => exact ⟨h.1, ih h.2⟩

/-- A bucket that differs from the last publication is dirty, or a `Reset` has
emptied it. -/
def Recorded (p : CkfProducer) (latest : Lane) : Prop :=
  ∀ i, p.buckets i ≠ latest i → i ∈ p.dirtyBuckets ∨ p.buckets i = 0

theorem Recorded.event {H : Xxh3} {p : CkfProducer} {latest : Lane} (h : Recorded p latest)
    (order : IterOrder) (e : KvCacheEvent) (backend : BackendId) :
    Recorded (p.applyEvent H order e backend) latest := by
  intro i hi
  cases hreset : e.isReset with
  | true =>
    have hproducer : p.applyEvent H order e backend = p.resetInternal := by
      cases e <;> simp_all [KvCacheEvent.isReset, CkfProducer.applyEvent]
    rw [hproducer]
    exact Or.inr rfl
  | false =>
    have htracked := CkfProducer.applyEvent_tracked (H := H) (p := p) order backend hreset
    by_cases hsame : (p.applyEvent H order e backend).buckets i = p.buckets i
    · rw [hsame] at hi ⊢
      rcases h i hi with hdirty | hzero
      · exact Or.inl (htracked.dirty hdirty)
      · exact Or.inr hzero
    · exact Or.inl (htracked.changed i hsame)

/-! ## The invariant -/

/-- What every run keeps. -/
structure Inv (region : RegionId) (l : RegionLane) (s : SharedLane) : Prop where
  bound : s.handler.consumer.laneOf region = some l
  recorded : ∀ p, Recorded (s.producers p) (s.latest p)
  chained : ∀ p, Chained (s.delivered p) (s.queues p) (s.latest p)
  faithful : ∀ p, ∀ e ∈ s.queues p, e.Faithful ∧ e.message.pool = p

variable {H : Xxh3} {region : RegionId} {l : RegionLane} {s : SharedLane}

theorem start_inv (seeds : PoolId → BitVec 64) (r : Receiver region) :
    Inv region r.lane (start seeds r) where
  bound := r.bound
  recorded _ _ h := absurd rfl h
  chained _ := rfl
  faithful _ _ he := absurd he List.not_mem_nil

/-- Publishing all the dirty buckets of a pool keeps the invariant. -/
theorem Inv.send (hs : Inv region l s) {pool : PoolId} {p : CkfProducer} {e : Publication}
    (he : e.Faithful) (hpool : e.message.pool = pool) (hafter : e.after = p.buckets)
    (hext : Extends (s.latest pool) e) :
    Inv region l ({ s with producers := Function.update s.producers pool p }.send pool e) where
  bound := hs.bound
  recorded q := by
    by_cases hq : q = pool
    · subst hq
      simp only [SharedLane.send, Function.update_self]
      -- the publication is the producer's present state
      intro i hi
      exact absurd (congrFun hafter i).symm hi
    · simp only [SharedLane.send, Function.update_of_ne hq]
      exact hs.recorded q
  chained q := by
    by_cases hq : q = pool
    · subst hq
      simp only [SharedLane.send, Function.update_self]
      exact (hs.chained q).append hext
    · simp only [SharedLane.send, Function.update_of_ne hq]
      exact hs.chained q
  faithful q x hx := by
    by_cases hq : q = pool
    · subst hq
      simp only [SharedLane.send, Function.update_self] at hx
      rcases List.mem_append.1 hx with hold | hnew
      · exact hs.faithful q x hold
      · obtain rfl := List.mem_singleton.1 hnew
        exact ⟨he, hpool⟩
    · simp only [SharedLane.send, Function.update_of_ne hq] at hx
      exact hs.faithful q x hx

theorem step_inv (hs : Inv region l s) (a : Label) : Inv region l (step H s a) := by
  cases a with
  | event pool order event backend =>
    refine ⟨hs.bound, fun q => ?_, hs.chained, hs.faithful⟩
    by_cases hq : q = pool
    · subst hq
      simp only [step, Function.update_self]
      exact (hs.recorded q).event order event backend
    · simp only [step, Function.update_of_ne hq]
      exact hs.recorded q
  | flush pool =>
    rcases KvRelay.flushPool_cases pool (s.producers pool) with ⟨_, hp⟩ | ⟨d, _, hp⟩
    · simp only [step, hp, Function.update_eq_self]
      exact hs
    · obtain ⟨hfaithful, hcarried, hafter, _, hpool⟩ :=
        KvRelay.flushPool_faithful (congrArg Prod.snd hp)
      simp only [step, hp]
      refine hs.send hfaithful hpool hafter fun i hi => ?_
      -- what is not dirty is unchanged or emptied
      by_cases hsame : (s.producers pool).buckets i = s.latest pool i
      · exact Or.inl hsame
      · exact Or.inr ((hs.recorded pool i hsame).resolve_left hi)
  | barrier pool =>
    exact hs.send (KvRelay.publishBarrier_faithful _ _) rfl rfl
      fun i hi => absurd (Finset.mem_univ i) hi
  | deliver pool =>
    cases hqueue : s.queues pool with
    | nil =>
      simp only [step, hqueue]
      exact hs
    | cons e rest =>
      simp only [step, hqueue]
      have hchain := hs.chained pool
      rw [hqueue] at hchain
      refine ⟨?_, hs.recorded, fun q => ?_, fun q x hx => ?_⟩
      · rw [MetadataGossipHandler.handle_laneOf]
        exact hs.bound
      · by_cases hq : q = pool
        · subst hq
          simp only [Function.update_self]
          exact hchain.2
        · simp only [Function.update_of_ne hq]
          exact hs.chained q
      · by_cases hq : q = pool
        · subst hq
          simp only [Function.update_self] at hx
          exact hs.faithful q x (hqueue ▸ List.mem_cons_of_mem _ hx)
        · simp only [Function.update_of_ne hq] at hx
          exact hs.faithful q x hx

/-! ## Which steps erase nothing -/

section Deliver

variable {pool : PoolId} {e : Publication} {rest : List Publication}

/-- A message of a pool of the Region overwrites the buckets it carries. -/
theorem Inv.lane_deliver (hs : Inv region l s) (hqueue : s.queues pool = e :: rest)
    (hregion : pool.region = region) (i : BucketIdx) :
    (s.handler.handle e.message).lane l i =
      if i ∈ e.carried then e.after i else s.handler.lane l i := by
  obtain ⟨hfaithful, hpool⟩ := hs.faithful pool e (hqueue ▸ List.mem_cons_self)
  have hl : s.handler.consumer.laneOf e.message.pool.region = some l := by
    rw [hpool, hregion]
    exact hs.bound
  obtain ⟨hlane, _, _⟩ := MetadataGossipHandler.handle_spec hfaithful hl
  rw [hlane]
  exact hfaithful.writes _ i

/-- A message of a pool of another Region writes into another lane. -/
theorem Inv.lane_deliver_other (hs : Inv region l s) (hqueue : s.queues pool = e :: rest)
    (hregion : pool.region ≠ region) :
    (s.handler.handle e.message).lane l = s.handler.lane l := by
  obtain ⟨hfaithful, hpool⟩ := hs.faithful pool e (hqueue ▸ List.mem_cons_self)
  apply MetadataGossipHandler.handle_other hfaithful hs.bound
  rw [hpool]
  exact hregion

theorem Inv.extends_head (hs : Inv region l s) (hqueue : s.queues pool = e :: rest) :
    Extends (s.delivered pool) e := by
  have hchain := hs.chained pool
  rw [hqueue] at hchain
  exact hchain.1

/-- Nothing of a pool is missing after a delivery, if the delivered message has in its
buckets what the others have there. -/
theorem nothingErased_deliver (hs : Inv region l s) (hqueue : s.queues pool = e :: rest)
    (hregion : pool.region = region) (hno : NothingErased region l s)
    (hclash : NoClash region s (.deliver pool)) :
    NothingErased region l (step H s (.deliver pool)) := by
  intro q hqr i fp hfp
  simp only [step, hqueue] at hfp ⊢
  rw [hs.lane_deliver hqueue hregion]
  by_cases hq : q = pool
  · -- the pool's own state: carried, unchanged or emptied
    subst hq
    rw [Function.update_self] at hfp
    by_cases hi : i ∈ e.carried
    · rw [if_pos hi]
      exact hfp
    · rw [if_neg hi]
      rcases hs.extends_head hqueue i hi with hsame | hzero
      · exact hno q hqr i fp (hsame ▸ hfp)
      · have hempty : fps (e.after i) = 0 := by
          rw [hzero]
          exact fps_zero
        rw [hempty] at hfp
        exact absurd hfp (Multiset.notMem_zero fp)
  · rw [Function.update_of_ne hq] at hfp
    by_cases hi : i ∈ e.carried
    · rw [if_pos hi]
      exact hclash e rest hqueue hregion q hq hqr i hi fp hfp
    · rw [if_neg hi]
      exact hno q hqr i fp hfp

/-- What another pool has in a carried bucket is gone if the message does not have it. -/
theorem noClash_of_nothingErased (hs : Inv region l s) (hqueue : s.queues pool = e :: rest)
    (h : NothingErased region l (step H s (.deliver pool))) :
    NoClash region s (.deliver pool) := by
  intro e' rest' heq hregion q hq hqr i hi fp hfp
  obtain ⟨rfl, rfl⟩ := List.cons.inj (hqueue.symm.trans heq)
  have hmem := h q hqr i fp
  simp only [step, hqueue, Function.update_of_ne hq] at hmem
  rw [hs.lane_deliver hqueue hregion, if_pos hi] at hmem
  exact hmem hfp

/-- A delivery erases nothing exactly when no other pool has more in the buckets
it overwrites. -/
theorem deliver_nothingErased_iff (hs : Inv region l s) (pool : PoolId)
    (hno : NothingErased region l s) :
    NothingErased region l (step H s (.deliver pool)) ↔ NoClash region s (.deliver pool) := by
  cases hqueue : s.queues pool with
  | nil =>
    simp only [step, hqueue, NoClash]
    refine iff_of_true hno ?_
    intro e rest h
    contradiction
  | cons e rest =>
    refine ⟨noClash_of_nothingErased hs hqueue, ?_⟩
    intro hclash
    by_cases hregion : pool.region = region
    · exact nothingErased_deliver hs hqueue hregion hno hclash
    · intro q hqr i fp hfp
      have hq : q ≠ pool := fun h => hregion (h ▸ hqr)
      simp only [step, hqueue, Function.update_of_ne hq] at hfp ⊢
      rw [hs.lane_deliver_other hqueue hregion]
      exact hno q hqr i fp hfp

end Deliver

theorem step_nothingErased_iff (hs : Inv region l s) (a : Label)
    (hno : NothingErased region l s) :
    NothingErased region l (step H s a) ↔ NoClash region s a := by
  cases a with
  | event pool order event backend => exact iff_of_true hno trivial
  | flush pool =>
    refine iff_of_true ?_ trivial
    rcases KvRelay.flushPool_cases pool (s.producers pool) with ⟨_, hp⟩ | ⟨d, _, hp⟩
    · simp only [step, hp]
      exact hno
    · simp only [step, hp]
      exact hno
  | barrier pool => exact iff_of_true hno trivial
  | deliver pool => exact deliver_nothingErased_iff hs pool hno

/-- In any interleaving of any pools the lane of a Region keeps every
fingerprint of every delivered state exactly when no delivery carries a bucket
in which another pool of the Region has delivered a fingerprint that the
message's own pool lacks. -/
theorem nothing_erased_iff (H : Xxh3) (seeds : PoolId → BitVec 64) (region : RegionId)
    (r : Receiver region) (run : List Label) :
    Run.All (step H) (NothingErased region r.lane) (start seeds r) run ↔
      Run.Each (step H) (NoClash region) (start seeds r) run := by
  refine Run.all_iff_each (J := Inv region r.lane) (D := fun _ _ => True)
    (fun _ a hs _ => step_inv hs a) (fun _ a hs _ hno => step_nothingErased_iff hs a hno)
    (start_inv seeds r) ?_ (Run.each_of_forall (fun _ _ => trivial) _ _)
  intro q _ i fp hfp
  have hempty : fps ((start seeds r).delivered q i) = 0 := fps_zero
  rw [hempty] at hfp
  exact absurd hfp (Multiset.notMem_zero fp)

/-! Two pools of one Region publish a snapshot each. The first has stored a
block; the second is empty, and its snapshot erases the block from the lane. -/

/-- A pool. -/
def fullPool : PoolId := ⟨⟨1⟩, ⟨"r"⟩⟩

/-- Another pool of the same Region. -/
def emptyPool : PoolId := ⟨⟨2⟩, ⟨"r"⟩⟩

/-- A receiver that has bound lane 0 to the Region. -/
def receiver : Receiver ⟨"r"⟩ where
  handler := ⟨CkfConsumer.new.assignLane 0 ⟨"r"⟩, 0⟩
  lane := 0
  bound := by decide

/-- Both snapshots are on their way. -/
@[irreducible] def colliding : SharedLane :=
  [Label.event fullPool .ascending (.stored ⟨1, 0⟩ [1] none []) ⟨⟨"r"⟩, ⟨"i"⟩⟩,
    .barrier fullPool, .barrier emptyPool].foldl (step Xxh3.short) (start (fun _ => 0) receiver)

theorem not_nothingErased_colliding :
    ¬ NothingErased ⟨"r"⟩ 0 (step Xxh3.short (step Xxh3.short colliding (.deliver fullPool))
      (.deliver emptyPool)) := by
  intro hno
  have hinv : Inv ⟨"r"⟩ 0 colliding := by
    unfold colliding
    exact Run.foldl_preserves (P := Inv ⟨"r"⟩ 0) (fun _ a hs => step_inv hs a)
      (start_inv _ receiver) _
  have hlength : (colliding.queues fullPool).length = 1 ∧ (colliding.queues emptyPool).length = 1 := by
    decide +kernel
  obtain ⟨e, hfull⟩ := List.length_eq_one_iff.1 hlength.1
  obtain ⟨e', hempty⟩ := List.length_eq_one_iff.1 hlength.2
  have hfp : (colliding.queues fullPool).map (fun e => fps (e.after (bucketA Xxh3.short 1))) =
      [{fpOf Xxh3.short 1}] := by decide +kernel
  have hnone : (colliding.queues emptyPool).map (fun e =>
      (e.message.isBarrier, fps (e.after (bucketA Xxh3.short 1)))) = [(true, 0)] := by
    decide +kernel
  simp only [hfull, hempty, List.map_cons, List.map_nil, List.cons.injEq, and_true,
    Prod.mk.injEq] at hfp hnone
  have hne : emptyPool ≠ fullPool := by decide
  obtain ⟨hfaith, hpool⟩ := hinv.faithful emptyPool e' (hempty ▸ List.mem_singleton_self e')
  have hl : (colliding.handler.handle e.message).consumer.laneOf e'.message.pool.region =
      some 0 := by
    rw [MetadataGossipHandler.handle_laneOf, hpool]
    exact hinv.bound
  obtain ⟨hlane, _, _⟩ := MetadataGossipHandler.handle_spec hfaith hl
  rw [hfaith.patch_barrier hnone.1] at hlane
  -- the lane is the second pool's, the delivered state of the first one is its own
  have hmem := hno fullPool rfl (bucketA Xxh3.short 1) (fpOf Xxh3.short 1)
  simp only [step, hfull, Function.update_of_ne hne, Function.update_of_ne hne.symm,
    Function.update_self, hempty, hlane, hfp, hnone.2, Multiset.mem_singleton] at hmem
  exact absurd (hmem trivial) (Multiset.notMem_zero _)

end SharedLane

end HierKvGateway
