import HierKvGateway.Metadata.CkfConsumer
import HierKvGateway.Metadata.CkfOwnership
import HierKvGateway.Metadata.Xxh3

/-!
# Metadata.Replication — snapshots, deltas and the lane that follows them

A publisher is a producer with two ghosts: the buckets a reader has after every
publication so far, in order, and the buckets a `Reset` emptied without
recording them as dirty. `reset_internal` zeroes the whole lane and clears the
dirty set, so the next delta does not mention the buckets it emptied and a
reader keeps their old fingerprints.

`Publisher.Agrees` is the invariant of every run: a bucket differs from what was
published only if it is dirty or forgotten. From it follows when a publication
brings a reader up to date.
-/

namespace HierKvGateway

/-- Whether the event is the generation fence. -/
def KvCacheEvent.isReset : KvCacheEvent → Bool
  | .reset _ _ => true
  | _ => false

namespace CkfProducer

/-! ## Every change is recorded -/

section Tracked

variable {H : Xxh3} {hash : BlockHash} {worker : BackendId} {entry : HashEntry} {p : CkfProducer}

theorem dropOwner_tracked : Tracked p (dropOwner H hash worker entry p) := by
  by_cases hlast : entry.refcount - 1 = 0
  · rw [dropOwner_last hlast]
    have hstep := (deleteFingerprint_laneStep H hash p).toTracked
    exact ⟨hstep.dirty, hstep.changed, hstep.pubSeq⟩
  · rw [dropOwner_keep hlast]
    exact ⟨fun _ h => h, fun _ hj => absurd rfl hj, rfl⟩

/-- Every operation on a hash records the buckets it changes. -/
theorem hashStep_tracked (op : HashOp) (h : op ≠ .reset) : Tracked p (hashStep H p op) := by
  cases op with
  | stored hash worker =>
    rcases applyStored_cases H hash worker p with ⟨_, hp⟩ | ⟨_, _, hp⟩ | ⟨_, hp⟩
    · rw [hashStep, hp]
      exact .refl p
    · rw [hashStep, hp]
      exact ⟨fun _ h => h, fun _ hj => absurd rfl hj, rfl⟩
    · rw [hashStep, hp]
      have hstep := (insertFingerprint_laneStep H hash (addOwner hash worker p)).toTracked
      exact ⟨hstep.dirty, hstep.changed, hstep.pubSeq⟩
  | removed hash worker =>
    rcases applyRemoved_cases H hash worker p with ⟨_, hp⟩ | ⟨e, _, _, hp⟩
    · rw [hashStep, hp]
      exact .refl p
    · rw [hashStep, hp]
      have hstep : Tracked _ (dropOwner H hash worker e (unlist hash worker p)) := dropOwner_tracked
      exact ⟨hstep.dirty, hstep.changed, hstep.pubSeq⟩
  | unindexed worker => exact ⟨fun _ h => h, fun _ hj => absurd rfl hj, rfl⟩
  | cleared hash worker =>
    cases he : p.hashRefcount hash with
    | none =>
      rw [hashStep, clearHash_none he]
      exact .refl p
    | some e =>
      rw [hashStep, clearHash_some he]
      exact dropOwner_tracked
  | reset => exact absurd rfl h

/-- An event other than `Reset` records every bucket it changes. -/
theorem applyEvent_tracked (order : IterOrder) {event : KvCacheEvent} (backend : BackendId)
    (h : event.isReset = false) : Tracked p (applyEvent H order event backend p) := by
  rw [applyEvent_eq_foldl]
  have hops : ∀ op ∈ hashOps order event backend p, op ≠ .reset := by
    -- only `Reset` resets
    intro op hop
    cases event with
    | stored worker blockHashes parentHash numBlockTokens =>
      obtain ⟨_, _, rfl⟩ := List.mem_map.1 hop
      simp
    | removed worker blockHashes =>
      obtain ⟨_, _, rfl⟩ := List.mem_map.1 hop
      simp
    | clear worker =>
      rcases List.mem_cons.1 hop with rfl | hop
      · simp
      · obtain ⟨_, _, rfl⟩ := List.mem_map.1 hop
        simp
    | reset worker generation => simp [KvCacheEvent.isReset] at h
  generalize hashOps order event backend p = ops at hops
  induction ops generalizing p with
  | nil => exact .refl p
  | cons op ops ih =>
    have hfirst := hashStep_tracked (H := H) (p := p) op (hops op List.mem_cons_self)
    exact hfirst.trans (ih fun op hop => hops op (List.mem_cons_of_mem _ hop))

end Tracked

/-! ## Publishing -/

theorem delta_none {p : CkfProducer} (h : p.dirtyBuckets = ∅) : p.delta = (p, none) := if_pos h

theorem delta_some {p : CkfProducer} (h : p.dirtyBuckets ≠ ∅) :
    p.delta = ({ p with pubSeq := p.pubSeq + 1, dirtyBuckets := ∅ },
      some ⟨p.pubSeq + 1, p.pubSeq, p.dirtyBuckets.sort.map fun i => (i.val, p.buckets i)⟩) :=
  if_neg h

/-- A delta overwrites the dirty buckets and no others. -/
theorem patch_delta {p : CkfProducer} {d : CkfDelta} (h : p.delta.2 = some d) (lane : Lane)
    (i : BucketIdx) :
    CkfConsumer.patch lane d.buckets i = if i ∈ p.dirtyBuckets then p.buckets i else lane i := by
  by_cases hdirty : p.dirtyBuckets = ∅
  · rw [delta_none hdirty] at h
    exact absurd h (by simp)
  · rw [delta_some hdirty] at h
    -- every entry of a delta carries the bucket's present value
    obtain rfl := Option.some.inj h
    dsimp only
    rw [CkfConsumer.patch_of_values (f := p.buckets)]
    · refine if_congr ?_ rfl rfl
      rw [List.mem_map]
      constructor
      · rintro ⟨j, hj, heq⟩
        have hij : j = i := Fin.ext (congrArg Prod.fst heq)
        exact hij ▸ (Finset.mem_sort _).1 hj
      · intro hi
        exact ⟨i, (Finset.mem_sort _).2 hi, rfl⟩
    · intro e he
      obtain ⟨j, _, rfl⟩ := List.mem_map.1 he
      exact ⟨j, rfl⟩

end CkfProducer

/-! ## Publishers -/

/-- A producer, the buckets of a reader that has applied everything published so
far, and the buckets a `Reset` emptied without recording them. -/
structure Publisher where
  producer : CkfProducer
  published : Lane
  forgotten : Finset BucketIdx

namespace Publisher

/-- A new producer: nothing published, and a reader with an empty lane. -/
def start (seed : BitVec 64) : Publisher := ⟨.withSeed seed, fun _ => 0, ∅⟩

/-- An event. A `Reset` forgets every bucket that is not empty at the reader. -/
def event (H : Xxh3) (order : IterOrder) (event : KvCacheEvent) (backend : BackendId)
    (w : Publisher) : Publisher :=
  { w with
    producer := w.producer.applyEvent H order event backend
    forgotten :=
      if event.isReset then Finset.univ.filter fun i => w.published i ≠ 0 else w.forgotten }

/-- A snapshot brings a reader up to date whatever happened before. -/
def snapshot (w : Publisher) : Publisher × CkfSnapshot :=
  (⟨w.producer.snapshot.1, w.producer.buckets, ∅⟩, w.producer.snapshot.2)

/-- A delta patches a reader with the dirty buckets. -/
def delta (w : Publisher) : Publisher × Option CkfDelta :=
  match w.producer.delta.2 with
  | none => ({ w with producer := w.producer.delta.1 }, none)
  | some d =>
    (⟨w.producer.delta.1, CkfConsumer.patch w.published d.buckets,
      w.forgotten \ w.producer.dirtyBuckets⟩, some d)

/-- A bucket differs from what was published only if it is dirty or forgotten,
and what is forgotten and not dirty does differ. -/
structure Agrees (w : Publisher) : Prop where
  changed : ∀ i, w.producer.buckets i ≠ w.published i →
    i ∈ w.producer.dirtyBuckets ∨ i ∈ w.forgotten
  lost : ∀ i, i ∈ w.forgotten → i ∉ w.producer.dirtyBuckets →
    w.producer.buckets i = 0 ∧ w.published i ≠ 0

/-- A reader that applied everything has the producer's buckets. -/
def UpToDate (w : Publisher) : Prop := w.published = w.producer.buckets

section

variable {H : Xxh3} {w : Publisher}

theorem start_agrees (seed : BitVec 64) : Agrees (start seed) where
  changed _ h := absurd rfl h
  lost i h := absurd h (Finset.notMem_empty i)

theorem event_agrees (hw : Agrees w) (order : IterOrder) (e : KvCacheEvent) (backend : BackendId) :
    Agrees (w.event H order e backend) := by
  cases hreset : e.isReset with
  | true =>
    -- the generation fence: all buckets empty, none dirty
    have hproducer : w.producer.applyEvent H order e backend = w.producer.resetInternal := by
      cases e <;> simp_all [KvCacheEvent.isReset, CkfProducer.applyEvent]
    simp only [event, hreset, if_true, hproducer]
    constructor
    · intro i hi
      exact Or.inr (Finset.mem_filter.2 ⟨Finset.mem_univ i, fun h0 => hi h0.symm⟩)
    · intro i hi _
      exact ⟨rfl, (Finset.mem_filter.1 hi).2⟩
  | false =>
    have htracked := CkfProducer.applyEvent_tracked (H := H) (p := w.producer) order backend hreset
    simp only [event, hreset, Bool.false_eq_true, if_false]
    constructor
    · intro i hi
      by_cases hsame : (w.producer.applyEvent H order e backend).buckets i = w.producer.buckets i
      · rcases hw.changed i (hsame ▸ hi) with hdirty | hforgot
        · exact Or.inl (htracked.dirty hdirty)
        · exact Or.inr hforgot
      · exact Or.inl (htracked.changed i hsame)
    · intro i hi hclean
      have hold : i ∉ w.producer.dirtyBuckets := fun h => hclean (htracked.dirty h)
      have hsame : (w.producer.applyEvent H order e backend).buckets i = w.producer.buckets i :=
        by_contra fun h => hclean (htracked.changed i h)
      obtain ⟨hzero, hpub⟩ := hw.lost i hi hold
      exact ⟨hsame.trans hzero, hpub⟩

theorem snapshot_agrees (w : Publisher) : Agrees w.snapshot.1 where
  changed _ h := absurd rfl h
  lost i h := absurd h (Finset.notMem_empty i)

theorem snapshot_upToDate (w : Publisher) : UpToDate w.snapshot.1 := rfl

/-- The two outcomes of a delta. -/
theorem delta_cases (w : Publisher) :
    (w.producer.dirtyBuckets = ∅ ∧ w.delta = (w, none)) ∨
    (∃ d, w.producer.delta.2 = some d ∧ w.delta =
      (⟨{ w.producer with pubSeq := w.producer.pubSeq + 1, dirtyBuckets := ∅ },
        CkfConsumer.patch w.published d.buckets, w.forgotten \ w.producer.dirtyBuckets⟩,
        some d)) := by
  by_cases hdirty : w.producer.dirtyBuckets = ∅
  · refine Or.inl ⟨hdirty, ?_⟩
    simp only [delta, CkfProducer.delta_none hdirty]
  · refine Or.inr ⟨_, congrArg Prod.snd (CkfProducer.delta_some hdirty), ?_⟩
    simp only [delta, CkfProducer.delta_some hdirty]

theorem delta_agrees (hw : Agrees w) : Agrees w.delta.1 := by
  rcases delta_cases w with ⟨_, hw'⟩ | ⟨d, hd, hw'⟩
  · rw [hw']
    exact hw
  · rw [hw']
    have hpatch := CkfProducer.patch_delta hd w.published
    constructor
    · intro i hi
      dsimp only at hi ⊢
      rw [hpatch] at hi
      by_cases hdirty : i ∈ w.producer.dirtyBuckets
      · rw [if_pos hdirty] at hi
        exact absurd rfl hi
      · rw [if_neg hdirty] at hi
        -- a bucket the delta leaves out differs only if it was forgotten
        have hforgot := (hw.changed i hi).resolve_left hdirty
        exact Or.inr (Finset.mem_sdiff.2 ⟨hforgot, hdirty⟩)
    · intro i hi _
      obtain ⟨hforgot, hdirty⟩ := Finset.mem_sdiff.1 hi
      dsimp only
      rw [hpatch, if_neg hdirty]
      exact hw.lost i hforgot hdirty

/-- A delta brings a reader up to date exactly when everything forgotten has
become dirty again. -/
theorem delta_upToDate_iff (hw : Agrees w) :
    UpToDate w.delta.1 ↔ w.forgotten ⊆ w.producer.dirtyBuckets := by
  have hvalue : ∀ i, w.delta.1.published i =
      if i ∈ w.producer.dirtyBuckets then w.producer.buckets i else w.published i := by
    intro i
    rcases delta_cases w with ⟨hdirty, hw'⟩ | ⟨d, hd, hw'⟩
    · rw [hw', hdirty, if_neg (Finset.notMem_empty i)]
    · rw [hw']
      exact CkfProducer.patch_delta hd w.published i
  have hbuckets : w.delta.1.producer.buckets = w.producer.buckets := by
    rcases delta_cases w with ⟨_, hw'⟩ | ⟨d, _, hw'⟩ <;> rw [hw']
  unfold UpToDate
  rw [hbuckets]
  constructor
  · intro hup i hforgot
    -- it is zero in the producer, not in what was published, and not in the delta
    by_contra hdirty
    have hi := hvalue i
    rw [hup, if_neg hdirty] at hi
    obtain ⟨hzero, hpub⟩ := hw.lost i hforgot hdirty
    exact hpub (hi ▸ hzero)
  · intro hsub
    funext i
    rw [hvalue]
    by_cases hdirty : i ∈ w.producer.dirtyBuckets
    · rw [if_pos hdirty]
    · rw [if_neg hdirty]
      by_contra hne
      rcases hw.changed i (fun h => hne h.symm) with h | h
      · exact hdirty h
      · exact hdirty (hsub h)

end

end Publisher

/-! ## A lane that follows one producer -/

/-- A publisher and a consumer whose lane installs the first snapshot and applies
every later publication. -/
structure Replica where
  publisher : Publisher
  consumer : CkfConsumer
  installed : Bool

namespace Replica

/-- One call on the producer; what it publishes reaches lane `l` at once. -/
def step (H : Xxh3) (l : RegionLane) (t : Replica) : CkfProducer.Op → Replica
  | .applyEvent order event backend =>
    { t with publisher := t.publisher.event H order event backend }
  | .snapshot =>
    ⟨t.publisher.snapshot.1, t.consumer.installSnapshot l t.publisher.snapshot.2, true⟩
  | .delta =>
    { t with
      publisher := t.publisher.delta.1
      consumer := match t.publisher.delta.2 with
        | some d => if t.installed then t.consumer.applyDelta l d else t.consumer
        | none => t.consumer }

/-- A call of `snapshot()` or `delta()`. -/
def Publishes : CkfProducer.Op → Prop
  | .applyEvent _ _ _ => False
  | .snapshot => True
  | .delta => True

/-- Once a snapshot is installed, the lane has the producer's buckets. -/
def UpToDate (l : RegionLane) (t : Replica) : Prop :=
  t.installed = true → t.consumer.lane l = t.publisher.producer.buckets

/-- A delta is only taken when every bucket that a `Reset` emptied since the last
snapshot, and that the lane still holds, has been changed again. -/
def NothingForgotten (t : Replica) : CkfProducer.Op → Prop
  | .delta => t.installed = true → t.publisher.forgotten ⊆ t.publisher.producer.dirtyBuckets
  | _ => True

/-- The ghosts agree with the producer, and the lane is a reader. -/
structure Inv (l : RegionLane) (t : Replica) : Prop where
  agrees : t.publisher.Agrees
  follows : t.installed = true → t.consumer.lane l = t.publisher.published

variable {H : Xxh3} {l : RegionLane}

theorem step_inv {t : Replica} (ht : Inv l t) (op : CkfProducer.Op) : Inv l (step H l t op) := by
  cases op with
  | applyEvent order event backend =>
    exact ⟨Publisher.event_agrees ht.agrees order event backend, ht.follows⟩
  | snapshot =>
    refine ⟨Publisher.snapshot_agrees _, fun _ => ?_⟩
    -- a snapshot carries every bucket
    have hbuckets := CkfProducer.snapshot_buckets t.publisher.producer
    obtain ⟨hlane, _, _⟩ :=
      CkfConsumer.installSnapshot_spec (l := l) (c := t.consumer) t.publisher.snapshot.2
    exact hlane.trans (CkfConsumer.patch_full hbuckets _)
  | delta =>
    refine ⟨Publisher.delta_agrees ht.agrees, fun hinst => ?_⟩
    have hfollows := ht.follows hinst
    rcases Publisher.delta_cases t.publisher with ⟨_, hw⟩ | ⟨d, _, hw⟩
    · simp only [step, hw]
      exact hfollows
    · have hinst' : t.installed = true := hinst
      simp only [step, hw, hinst', if_true]
      rw [(CkfConsumer.applyDelta_spec (l := l) (c := t.consumer) d).1, hfollows]

/-- After a publication the lane is up to date exactly when nothing was
forgotten. -/
theorem step_upToDate_iff {t : Replica} (ht : Inv l t) (op : CkfProducer.Op) :
    (Publishes op → UpToDate l (step H l t op)) ↔ NothingForgotten t op := by
  have hnext := (step_inv (H := H) ht op).follows
  cases op with
  | applyEvent order event backend => exact iff_of_true (fun h => False.elim h) trivial
  | snapshot =>
    refine iff_of_true (fun _ hinst => ?_) trivial
    exact (hnext hinst).trans t.publisher.snapshot_upToDate
  | delta =>
    have hiff := Publisher.delta_upToDate_iff ht.agrees
    have hlane : t.installed = true →
        (step H l t .delta).consumer.lane l = t.publisher.delta.1.published := hnext
    constructor
    · intro h hinst
      refine hiff.1 ?_
      unfold Publisher.UpToDate
      rw [← hlane hinst]
      exact h trivial hinst
    · intro h _ hinst
      rw [hlane hinst]
      exact hiff.2 (h hinst)

/-- The producer inside a replica runs as it does alone. -/
theorem step_producer (t : Replica) (op : CkfProducer.Op) :
    (step H l t op).publisher.producer = t.publisher.producer.step H op := by
  cases op with
  | applyEvent order event backend => rfl
  | snapshot => rfl
  | delta =>
    rcases Publisher.delta_cases t.publisher with ⟨hdirty, hw⟩ | ⟨d, hd, hw⟩
    · simp only [step, hw, CkfProducer.step, CkfProducer.delta_none hdirty]
    · have hdirty : t.publisher.producer.dirtyBuckets ≠ ∅ := by
        intro h0
        rw [CkfProducer.delta_none h0] at hd
        exact absurd hd (by simp)
      simp only [step, hw, CkfProducer.step, CkfProducer.delta_some hdirty]

/-- In a run of any events, snapshots and deltas the lane equals the producer's
buckets after every publication exactly when no delta is taken while a bucket
emptied by a `Reset` is still forgotten. -/
theorem up_to_date_iff (H : Xxh3) (seed : BitVec 64) (l : RegionLane) (c : CkfConsumer)
    (ops : List CkfProducer.Op) :
    (ops.foldl (step H l) ⟨.start seed, c, false⟩).publisher.producer =
        ops.foldl (CkfProducer.step H) (.withSeed seed) ∧
      (Run.Each (step H l) (fun t op => Publishes op → UpToDate l (step H l t op))
          ⟨.start seed, c, false⟩ ops ↔
        Run.Each (step H l) NothingForgotten ⟨.start seed, c, false⟩ ops) := by
  constructor
  · exact Run.foldl_proj (fun t : Replica => t.publisher.producer) step_producer _ _
  · have hstart : Inv l ⟨.start seed, c, false⟩ :=
      ⟨Publisher.start_agrees seed, fun h => absurd h (by simp)⟩
    exact Run.each_iff (J := Inv l) (fun _ op ht => step_inv ht op)
      (fun _ op ht => step_upToDate_iff ht op) hstart ops

/-! A block is stored and published, a `Reset` empties the producer, and the next
`delta()` has nothing to say: the lane keeps the fingerprint. -/

/-- The calls. -/
def fencedCalls : List CkfProducer.Op :=
  [.applyEvent .ascending (.stored ⟨1, 0⟩ [1] none []) ⟨⟨"r"⟩, ⟨"i"⟩⟩, .snapshot,
    .applyEvent .ascending (.reset ⟨1, 0⟩ 1) ⟨⟨"r"⟩, ⟨"i"⟩⟩, .delta]

theorem not_upToDate_fenced :
    ¬ UpToDate 0 (fencedCalls.foldl (step Xxh3.short 0)
      ⟨.start CkfProducer.defaultSeed, .new, false⟩) := by
  intro hup
  have hinv : Inv 0 (fencedCalls.foldl (step Xxh3.short 0)
      ⟨.start CkfProducer.defaultSeed, .new, false⟩) :=
    Run.foldl_preserves (P := Inv 0) (fun _ op ht => step_inv ht op)
      ⟨Publisher.start_agrees _, fun h => absurd h (by simp)⟩ _
  have hinst : (fencedCalls.foldl (step Xxh3.short 0)
      ⟨.start CkfProducer.defaultSeed, .new, false⟩).installed = true := by decide +kernel
  have hlane := (hinv.follows hinst).symm.trans (hup hinst)
  have hbucket := congrFun hlane (bucketA Xxh3.short 1)
  revert hbucket
  decide +kernel

end Replica

end HierKvGateway
