import HierKvGateway.Gateway.Delivery

/-!
# Gateway.Healing — a snapshot heals a lane

Messages can be lost, repeated and reordered, and a `Reset` can be forgotten: a lane may then hold
what no publication holds. A full snapshot ends that. From the publication of a barrier on, the
publications follow one another again (`Since`), and from its delivery on, in order, the lane is
always at one of them (`Healed`).

`barrier_heals`: whatever the pool and the network did before. When the last publication has
arrived and nothing is left to publish, the lane is the producer's.
-/

namespace HierKvGateway

namespace Delivery

/-- A flush leaves out no bucket that a `Reset` emptied. -/
def Complete (s : Delivery) : Label → Prop
  | .flush => s.publisher.forgotten ⊆ s.publisher.producer.dirtyBuckets
  | _ => True

theorem InOrder.complete {s : Delivery} {a : Label} (h : InOrder s a) : Complete s a := by
  cases a with
  | flush => exact h
  | _ => trivial

/-- What holds in every run. -/
structure Basic (pool : PoolId) (l : RegionLane) (s : Delivery) : Prop where
  agrees : s.publisher.Agrees
  faithful : ∀ e ∈ s.log, e.Faithful ∧ e.message.pool = pool
  bound : s.handler.consumer.laneOf pool.region = some l

/-- From the barrier `k` on, the publications follow one another. -/
structure Since (pool : PoolId) (l : RegionLane) (k : Nat) (s : Delivery) : Prop
    extends Basic pool l s where
  barrier : ∃ e, s.log[k]? = some e ∧ e.message.isBarrier = true
  chain : (s.log.drop k).IsChain Follows
  latest : ∀ e, s.log.getLast? = some e → e.after = s.publisher.published

/-- The lane is at the barrier `k` or a publication after it. -/
structure Healed (pool : PoolId) (l : RegionLane) (k : Nat) (s : Delivery) : Prop
    extends Since pool l k s where
  active : s.handler.status l = .active
  held : ∃ j e, s.position = some j ∧ k ≤ j ∧ s.log[j]? = some e ∧ s.handler.lane l = e.after

variable {H : Xxh3} {pool : PoolId} {l : RegionLane} {k : Nat} {s : Delivery}

/-! ## Before the barrier -/

/-- A publication is added to the log. -/
theorem Basic.publish (h : Basic pool l s) {w : Publisher} (hw : w.Agrees) {e : Publication}
    (he : e.Faithful) (hpool : e.message.pool = pool) :
    Basic pool l { s with publisher := w, log := s.log ++ [e] } where
  agrees := hw
  faithful e' hmem := by
    rcases List.mem_append.1 hmem with hold | hnew
    · exact h.faithful e' hold
    · rcases List.mem_singleton.1 hnew with rfl
      exact ⟨he, hpool⟩
  bound := h.bound

theorem Basic.step (h : Basic pool l s) (a : Label) : Basic pool l (step H pool s a) := by
  cases a with
  | event order event backend =>
    exact ⟨Publisher.event_agrees h.agrees order event backend, h.faithful, h.bound⟩
  | flush =>
    rcases KvRelay.flushPool_cases pool s.publisher.producer with ⟨-, hp⟩ | ⟨d, -, hp⟩
    · simp only [Delivery.step, hp, Option.toList_none, List.append_nil]
      exact ⟨Publisher.delta_agrees h.agrees, h.faithful, h.bound⟩
    · rcases KvRelay.flushPool_faithful (congrArg Prod.snd hp) with ⟨hfaithful, -, -, -, hpool⟩
      simp only [Delivery.step, hp, Option.toList_some]
      exact h.publish (Publisher.delta_agrees h.agrees) hfaithful hpool
  | barrier =>
    exact h.publish (Publisher.snapshot_agrees _) (KvRelay.publishBarrier_faithful _ _) rfl
  | deliver m =>
    cases hm : s.log[m]? with
    | none =>
      simp only [Delivery.step, hm]
      exact h
    | some e =>
      simp only [Delivery.step, hm]
      refine ⟨h.agrees, h.faithful, ?_⟩
      rw [MetadataGossipHandler.handle_laneOf]
      exact h.bound

theorem basic_start (seed : BitVec 64) (r : FreshReceiver pool.region) :
    Basic pool r.lane (start seed r) :=
  ⟨Publisher.start_agrees seed, fun _ hmem => absurd hmem List.not_mem_nil, r.bound⟩

/-! ## From the barrier on -/

/-- A barrier is published. -/
theorem Basic.since (h : Basic pool l s) :
    Since pool l s.log.length (Delivery.step H pool s .barrier) where
  toBasic := h.step .barrier
  barrier := by
    refine ⟨_, List.getElem?_concat_length, rfl⟩
  chain := by
    show ((s.log ++ [(KvRelay.publishBarrier pool s.publisher.producer).2]).drop
      s.log.length).IsChain Follows
    rw [List.drop_append_of_le_length le_rfl, List.drop_length]
    exact List.isChain_singleton _
  latest e he := by
    have hlast : (s.log ++ [(KvRelay.publishBarrier pool s.publisher.producer).2]).getLast? =
      some e := he
    rw [List.getLast?_concat] at hlast
    rw [← Option.some.inj hlast]
    rfl

theorem Since.lt_length (h : Since pool l k s) : k < s.log.length := by
  rcases h.barrier with ⟨e, he, -⟩
  exact (List.getElem?_eq_some_iff.1 he).1

/-- Publications in a row, the first not before the barrier, follow one another. -/
theorem Since.follows (h : Since pool l k s) {j : Nat} (hkj : k ≤ j) {e e' : Publication}
    (he : s.log[j]? = some e) (he' : s.log[j + 1]? = some e') : Follows e e' := by
  have hget : (s.log.drop k)[j - k]? = some e := by
    rw [List.getElem?_drop, show k + (j - k) = j by omega, he]
  have hget' : (s.log.drop k)[j - k + 1]? = some e' := by
    rw [List.getElem?_drop, show k + (j - k + 1) = j + 1 by omega, he']
  rcases List.getElem?_eq_some_iff.1 hget with ⟨-, rfl⟩
  rcases List.getElem?_eq_some_iff.1 hget' with ⟨hlt, rfl⟩
  exact h.chain.getElem (j - k) hlt

/-- A publication that follows the last one is added to the log. -/
theorem Since.publish (h : Since pool l k s) {w : Publisher} (hw : w.Agrees) {e : Publication}
    (he : e.Faithful) (hpool : e.message.pool = pool) (hafter : e.after = w.published)
    (hfollows : ∀ i, i ∉ e.carried → s.publisher.published i = e.after i) :
    Since pool l k { s with publisher := w, log := s.log ++ [e] } where
  toBasic := h.toBasic.publish hw he hpool
  barrier := by
    rcases h.barrier with ⟨b, hb, hbarrier⟩
    exact ⟨b, (List.getElem?_append_left h.lt_length).trans hb, hbarrier⟩
  chain := by
    show ((s.log ++ [e]).drop k).IsChain Follows
    rw [List.drop_append_of_le_length h.lt_length.le]
    refine List.isChain_append.2 ⟨h.chain, List.isChain_singleton e, ?_⟩
    intro x hx y hy i hi
    rcases Option.some.inj hy with rfl
    rw [List.getLast?_drop, if_neg (by have := h.lt_length; omega)] at hx
    rw [h.latest x hx]
    exact hfollows i hi
  latest e' hlast := by
    have hlast : (s.log ++ [e]).getLast? = some e' := hlast
    rw [List.getLast?_concat] at hlast
    rw [← Option.some.inj hlast]
    exact hafter

theorem Since.step (h : Since pool l k s) (a : Label) (ha : Complete s a) :
    Since pool l k (Delivery.step H pool s a) := by
  cases a with
  | event order event backend =>
    exact ⟨h.toBasic.step (.event order event backend), h.barrier, h.chain, h.latest⟩
  | flush =>
    have hup := (Publisher.delta_upToDate_iff h.agrees).2 ha
    rcases KvRelay.flushPool_cases pool s.publisher.producer with ⟨hdirty, hp⟩ | ⟨d, -, hp⟩
    · -- nothing is published
      have hsame : s.publisher.delta.1 = s.publisher := by
        rcases Publisher.delta_cases s.publisher with ⟨-, hw⟩ | ⟨d, hd, -⟩
        · rw [hw]
        · rw [CkfProducer.delta_none hdirty] at hd
          exact nomatch hd
      simp only [Delivery.step, hp, hsame, Option.toList_none, List.append_nil]
      exact h
    · rcases KvRelay.flushPool_faithful (congrArg Prod.snd hp) with
        ⟨hfaithful, hcarried, hafter, -, hpool⟩
      have hbuckets : s.publisher.delta.1.producer.buckets = s.publisher.producer.buckets := by
        rcases Publisher.delta_cases s.publisher with ⟨-, hw⟩ | ⟨d, -, hw⟩ <;> rw [hw]
      simp only [Delivery.step, hp, Option.toList_some]
      refine h.publish (Publisher.delta_agrees h.agrees) hfaithful hpool ?_ ?_
      · rw [hafter, ← hbuckets]
        exact hup.symm
      · intro i hi
        by_contra hne
        -- a bucket that differs from what was published is dirty, or forgotten and so dirty
        rcases h.agrees.changed i (fun heq => hne heq.symm) with hdirty | hforgotten
        · exact hi hdirty
        · exact hi (ha hforgotten)
  | barrier =>
    refine h.publish (Publisher.snapshot_agrees _) (KvRelay.publishBarrier_faithful _ _) rfl rfl ?_
    intro i hi
    exact absurd (Finset.mem_univ i) hi
  | deliver m =>
    cases hm : s.log[m]? with
    | none =>
      simp only [Delivery.step, hm]
      exact h
    | some e =>
      have hbasic := h.toBasic.step (H := H) (.deliver m)
      simp only [Delivery.step, hm] at hbasic ⊢
      exact ⟨hbasic, h.barrier, h.chain, h.latest⟩

/-- The barrier is delivered. -/
theorem Since.healed (h : Since pool l k s) :
    Healed pool l k (Delivery.step H pool s (.deliver k)) := by
  rcases h.barrier with ⟨e, he, hbarrier⟩
  have hsince := h.step (H := H) (.deliver k) trivial
  rcases h.faithful e (List.mem_of_getElem? he) with ⟨hfaithful, hpool⟩
  have hl : s.handler.consumer.laneOf e.message.pool.region = some l := by
    rw [hpool]
    exact h.bound
  rcases MetadataGossipHandler.handle_spec hfaithful hl with ⟨hlane, hstatus, -⟩
  simp only [Delivery.step, he, hbarrier, Bool.true_or, if_true] at hsince ⊢
  refine ⟨hsince, ?_, k, e, rfl, le_rfl, he, ?_⟩
  · rw [hstatus, hbarrier, if_pos rfl]
  · exact hlane.trans (hfaithful.patch_barrier hbarrier _)

/-! ## After the barrier -/

/-- In order, the lane goes from a publication to a later one. -/
theorem Healed.step (h : Healed pool l k s) (a : Label) (ha : InOrder s a) :
    Healed pool l k (Delivery.step H pool s a) := by
  have hsince := h.toSince.step (H := H) a ha.complete
  rcases h.held with ⟨j, held, hpos, hkj, hheld, hlane⟩
  have hlt : j < s.log.length := (List.getElem?_eq_some_iff.1 hheld).1
  -- what is published stays where it is
  have hkeep {more : List Publication} : (s.log ++ more)[j]? = some held := by
    rw [List.getElem?_append_left hlt, hheld]
  cases a with
  | event order event backend => exact ⟨hsince, h.active, j, held, hpos, hkj, hheld, hlane⟩
  | flush => exact ⟨hsince, h.active, j, held, hpos, hkj, hkeep, hlane⟩
  | barrier => exact ⟨hsince, h.active, j, held, hpos, hkj, hkeep, hlane⟩
  | deliver m =>
    cases hm : s.log[m]? with
    | none =>
      simp only [Delivery.step, hm]
      exact h
    | some e =>
      rcases h.faithful e (List.mem_of_getElem? hm) with ⟨hfaithful, hpool⟩
      have hl : s.handler.consumer.laneOf e.message.pool.region = some l := by
        rw [hpool]
        exact h.bound
      rcases MetadataGossipHandler.handle_spec hfaithful hl with ⟨hpatch, hstatus, -⟩
      have hcase := ha e j hm hpos
      simp only [Delivery.step, hm, hpos, Option.isSome_some, Bool.or_true, if_true] at hsince ⊢
      have hactive : (s.handler.handle e.message).status l = .active := by
        rw [hstatus, h.active]
        split <;> rfl
      refine ⟨hsince, hactive, m, e, rfl, ?_, hm, ?_⟩
      · split at hcase
        · omega
        · omega
      · by_cases hbarrier : e.message.isBarrier = true
        · exact hpatch.trans (hfaithful.patch_barrier hbarrier _)
        · rw [if_neg hbarrier] at hcase
          refine hpatch.trans (hfaithful.patch_of_agree ?_)
          intro i hi
          rw [hlane]
          rcases hcase with rfl | rfl
          · -- the lane's own publication once more
            rw [Option.some.inj (hheld.symm.trans hm)]
          · exact h.follows hkj hheld hm i hi

/-- A lane at a publication answers as the producer would have then. -/
theorem Healed.estimate (h : Healed pool l k s) {e : Publication}
    (hlane : s.handler.lane l = e.after) (hashes : List BlockHash) :
    s.handler.consumer.estimateOverlap H hashes pool.region =
      prefixHits (laneContains H e.after) hashes := by
  unfold CkfConsumer.estimateOverlap
  rw [h.bound]
  dsimp only
  rw [if_pos h.active]
  exact congrArg (fun lane => prefixHits (laneContains H lane) hashes) hlane

/-- When the last publication has arrived and nothing is left to publish, the lane is the
producer's. -/
theorem Healed.caughtUp (h : Healed pool l k s) {j : Nat} {e : Publication}
    (he : s.log[j]? = some e) (hlane : s.handler.lane l = e.after) (hlast : j + 1 = s.log.length)
    (hdirty : s.publisher.producer.dirtyBuckets = ∅) (hforgotten : s.publisher.forgotten = ∅) :
    s.handler.lane l = s.publisher.producer.buckets := by
  have hget : s.log.getLast? = some e := by
    rw [List.getLast?_eq_getElem?, ← hlast, Nat.add_sub_cancel, he]
  rw [hlane, h.latest e hget]
  funext i
  by_contra hne
  rcases h.agrees.changed i (fun heq => hne heq.symm) with hi | hi
  · rw [hdirty] at hi
    exact Finset.notMem_empty i hi
  · rw [hforgotten] at hi
    exact Finset.notMem_empty i hi

/-- Whatever happened before, a barrier that is published and delivered heals the lane: from then
on, in order, it is at one publication, not older than the barrier. -/
theorem barrier_heals (H : Xxh3) (seed : BitVec 64) (pool : PoolId)
    (r : FreshReceiver pool.region) (before middle rest : List Label) :
    let published := before.foldl (step H pool) (start seed r)
    let k := published.log.length
    let arrived := (.barrier :: middle).foldl (step H pool) published
    let healed := step H pool arrived (.deliver k)
    let s := rest.foldl (step H pool) healed
    Run.Each (step H pool) Complete published (.barrier :: middle) →
    Run.Each (step H pool) InOrder healed rest →
      ∃ j e, s.position = some j ∧ k ≤ j ∧ s.log[j]? = some e ∧ s.handler.lane r.lane = e.after ∧
        (∀ hashes, s.handler.consumer.estimateOverlap H hashes pool.region =
          prefixHits (laneContains H e.after) hashes) ∧
        (j + 1 = s.log.length → s.publisher.producer.dirtyBuckets = ∅ →
          s.publisher.forgotten = ∅ → s.handler.lane r.lane = s.publisher.producer.buckets) := by
  intro published k arrived healed s hmiddle hrest
  have hbasic : Basic pool r.lane published :=
    Run.foldl_preserves (P := Basic pool r.lane) (fun _ a h => h.step a) (basic_start seed r) before
  have hstart : Since pool r.lane k (step H pool published .barrier) := hbasic.since
  have hsince : Since pool r.lane k arrived :=
    Run.foldl_invariant (P := Since pool r.lane k) (C := Complete) (l := middle)
      (fun _ a h ha => h.step a ha) hstart hmiddle.2
  have hhealed : Healed pool r.lane k s :=
    Run.foldl_invariant (P := Healed pool r.lane k) (C := InOrder) (fun _ a h ha => h.step a ha)
      hsince.healed hrest
  rcases hhealed.held with ⟨j, e, hpos, hkj, he, hlane⟩
  exact ⟨j, e, hpos, hkj, he, hlane, hhealed.estimate hlane, hhealed.caughtUp he hlane⟩

/-- The first delta is lost, and the lane holds what no publication holds. -/
def mixedRun : List Label := lossyRun ++ [.deliver 0, .deliver 2]

/-- The barrier heals the lane, and the next delta keeps it up to date. -/
theorem barrier_heals_mixed :
    let published := mixedRun.foldl (step Xxh3.short somePool) (start 0 someReceiver)
    let healed := step Xxh3.short somePool
      (step Xxh3.short somePool published .barrier) (.deliver published.log.length)
    let s := [stores 3, .flush, .deliver 4].foldl (step Xxh3.short somePool) healed
    ∃ j e, s.position = some j ∧ s.log[j]? = some e ∧ s.handler.lane 0 = e.after := by
  intro published healed s
  have hrest : Run.Each (step Xxh3.short somePool) InOrder healed
      [stores 3, .flush, .deliver 4] := by
    refine ⟨trivial, ?_, ?_, trivial⟩
    · show (_ : Finset BucketIdx) ⊆ _
      decide +kernel
    · intro e j _ hpos
      have hj : 3 = j := Option.some.inj hpos
      subst hj
      split <;> omega
  rcases barrier_heals Xxh3.short 0 somePool someReceiver mixedRun []
    [stores 3, .flush, .deliver 4] ⟨trivial, trivial⟩ hrest with ⟨j, e, hpos, -, he, hlane, -⟩
  exact ⟨j, e, hpos, he, hlane⟩

end Delivery

end HierKvGateway
