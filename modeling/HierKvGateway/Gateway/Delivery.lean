import Mathlib.Data.List.Chain
import HierKvGateway.Gateway.ClusterBridge

/-!
# Gateway.Delivery — one pool, messages in any order

One pool publishes; the network may reorder, lose and repeat what it publishes.
The log keeps every publication, and the label `deliver k` hands the `k`-th one
to the receiver, any number of times and in any order: every list of labels is a
possible interleaving.

The messages carry sequence numbers, but the handler compares none of them. What
the receiver's lane then holds is one published state only under an assumption
on the network (`InOrder`); `Inv` is the invariant that carries it along a run.
The ghost `position` is the index of the publication whose state the lane holds.
-/

namespace HierKvGateway

/-- A receiver whose lane for the Region is not active yet. -/
structure FreshReceiver (region : RegionId) extends Receiver region where
  retired : handler.status lane = .retired

/-- A publisher, everything it has published, and a receiver. -/
structure Delivery where
  publisher : Publisher
  log : List Publication
  handler : MetadataGossipHandler
  position : Option Nat

namespace Delivery

/-- What may happen next. -/
inductive Label where
  | event (order : IterOrder) (event : KvCacheEvent) (backend : BackendId)
  | flush
  | barrier
  | deliver (k : Nat)

/-- A new producer, nothing published. -/
def start {region : RegionId} (seed : BitVec 64) (r : FreshReceiver region) : Delivery :=
  ⟨.start seed, [], r.handler, none⟩

/-- One step of the pool, the network or the receiver. -/
def step (H : Xxh3) (pool : PoolId) (s : Delivery) : Label → Delivery
  | .event order event backend => { s with publisher := s.publisher.event H order event backend }
  | .flush =>
    { s with
      publisher := s.publisher.delta.1
      log := s.log ++ (KvRelay.flushPool pool s.publisher.producer).2.toList }
  | .barrier =>
    { s with
      publisher := s.publisher.snapshot.1
      log := s.log ++ [(KvRelay.publishBarrier pool s.publisher.producer).2] }
  | .deliver k =>
    match s.log[k]? with
    | none => s
    | some e =>
      { s with
        handler := s.handler.handle e.message
        position := if e.message.isBarrier || s.position.isSome then some k else none }

/-- An active lane holds the producer's buckets at some publication. -/
def SinglePublication (l : RegionLane) (s : Delivery) : Prop :=
  s.handler.status l = .active → ∃ e ∈ s.log, s.handler.lane l = e.after

/-- An active lane holds the producer's buckets at the publication `position`. -/
def Sound (l : RegionLane) (s : Delivery) : Prop :=
  s.handler.status l = .active →
    ∃ k e, s.position = some k ∧ s.log[k]? = some e ∧ s.handler.lane l = e.after

/-- The step does not take the lane back to an older publication. -/
def Forward (H : Xxh3) (pool : PoolId) (s : Delivery) (a : Label) : Prop :=
  ∀ j k, s.position = some j → (step H pool s a).position = some k → j ≤ k

/-- Once a snapshot has arrived, a snapshot is not older than the lane's state
and a delta is the next publication or the lane's own; and no delta is published
that leaves out a bucket a `Reset` emptied. -/
def InOrder (s : Delivery) : Label → Prop
  | .deliver k => ∀ e j, s.log[k]? = some e → s.position = some j →
      if e.message.isBarrier then j ≤ k else k = j ∨ k = j + 1
  | .flush => s.publisher.forgotten ⊆ s.publisher.producer.dirtyBuckets
  | _ => True

/-- Two publications in a row differ only in what the second one carries. -/
def Follows (e e' : Publication) : Prop := ∀ i, i ∉ e'.carried → e.after i = e'.after i

/-- The invariant of runs whose steps are in order. -/
structure Inv (pool : PoolId) (l : RegionLane) (s : Delivery) : Prop where
  agrees : s.publisher.Agrees
  faithful : ∀ e ∈ s.log, e.Faithful ∧ e.message.pool = pool
  chain : s.log.IsChain Follows
  latest : ∀ e, s.log.getLast? = some e → e.after = s.publisher.published
  bound : s.handler.consumer.laneOf pool.region = some l
  idle : s.position = none → s.handler.status l = .retired
  held : ∀ j, s.position = some j → ∃ e, s.log[j]? = some e ∧ s.handler.lane l = e.after

variable {H : Xxh3} {pool : PoolId} {l : RegionLane} {s : Delivery}

theorem Inv.sound (hs : Inv pool l s) : Sound l s := by
  intro hactive
  cases hpos : s.position with
  | none =>
    rw [hs.idle hpos] at hactive
    exact absurd hactive (by simp)
  | some k =>
    obtain ⟨e, he, hlane⟩ := hs.held k hpos
    exact ⟨k, e, rfl, he, hlane⟩

/-- Publishing keeps the invariant when the new publication follows the last. -/
theorem Inv.publish (hs : Inv pool l s) {w : Publisher} (hw : w.Agrees) {e : Publication}
    (he : e.Faithful) (hpool : e.message.pool = pool) (hafter : e.after = w.published)
    (hfollows : ∀ i, i ∉ e.carried → s.publisher.published i = e.after i) :
    Inv pool l { s with publisher := w, log := s.log ++ [e] } where
  agrees := hw
  faithful e' hmem := by
    rcases List.mem_append.1 hmem with hold | hnew
    · exact hs.faithful e' hold
    · obtain rfl := List.mem_singleton.1 hnew
      exact ⟨he, hpool⟩
  chain := by
    -- only the link from the last publication to the new one is new
    refine List.isChain_append.2 ⟨hs.chain, List.isChain_singleton e, ?_⟩
    intro x hx y hy i hi
    obtain rfl : e = y := Option.some.inj hy
    rw [hs.latest x hx]
    exact hfollows i hi
  latest e' hlast := by
    rw [List.getLast?_concat] at hlast
    obtain rfl := Option.some.inj hlast
    exact hafter
  bound := hs.bound
  idle := hs.idle
  held j hj := by
    obtain ⟨e', hlog, hlane⟩ := hs.held j hj
    have hlt : j < s.log.length := (List.getElem?_eq_some_iff.1 hlog).1
    exact ⟨e', by rw [List.getElem?_append_left hlt, hlog], hlane⟩

/-- Delivering in order keeps the invariant. -/
theorem Inv.deliver (hs : Inv pool l s) (k : Nat) (hin : InOrder s (.deliver k)) :
    Inv pool l (step H pool s (.deliver k)) := by
  cases hk : s.log[k]? with
  | none =>
    simp only [step, hk]
    exact hs
  | some e =>
    simp only [step, hk]
    obtain ⟨hfaithful, hpool⟩ := hs.faithful e (List.mem_of_getElem? hk)
    have hl : s.handler.consumer.laneOf e.message.pool.region = some l := hpool ▸ hs.bound
    obtain ⟨hlane, hstatus, _⟩ := MetadataGossipHandler.handle_spec hfaithful hl
    refine ⟨hs.agrees, hs.faithful, hs.chain, hs.latest, ?_, ?_, ?_⟩
    · rw [MetadataGossipHandler.handle_laneOf]
      exact hs.bound
    · -- the lane is still retired only if no snapshot has arrived
      intro hpos
      cases hbarrier : e.message.isBarrier with
      | true => simp [hbarrier] at hpos
      | false =>
        have hnone : s.position = none := by
          cases hsome : s.position with
          | none => rfl
          | some j => simp [hsome] at hpos
        rw [hstatus, hbarrier, if_neg (by simp)]
        exact hs.idle hnone
    · intro j hpos
      cases hbarrier : e.message.isBarrier with
      | true =>
        -- a snapshot replaces the lane
        obtain rfl : k = j := by simpa [hbarrier] using hpos
        exact ⟨e, hk, hlane.trans (hfaithful.patch_barrier hbarrier _)⟩
      | false =>
        -- a delta patches the state it is based on, or its own
        obtain ⟨m, hm⟩ : ∃ m, s.position = some m := by
          cases hsome : s.position with
          | none => simp [hbarrier, hsome] at hpos
          | some m => exact ⟨m, rfl⟩
        obtain rfl : k = j := by simpa [hbarrier, hm] using hpos
        obtain ⟨e', he', hheld⟩ := hs.held m hm
        have hcase := hin e m hk hm
        rw [hbarrier, if_neg (by simp)] at hcase
        refine ⟨e, hk, hlane.trans (hfaithful.patch_of_agree ?_)⟩
        intro i hi
        rw [hheld]
        rcases hcase with rfl | rfl
        · have hsame : e' = e := Option.some.inj (he'.symm.trans hk)
          rw [hsame]
        · have hlt : m + 1 < s.log.length := (List.getElem?_eq_some_iff.1 hk).1
          have hfollows := hs.chain.getElem m hlt
          rw [(List.getElem?_eq_some_iff.1 hk).2, (List.getElem?_eq_some_iff.1 he').2] at hfollows
          exact hfollows i hi

theorem step_inv (hs : Inv pool l s) (a : Label) (hin : InOrder s a) :
    Inv pool l (step H pool s a) := by
  cases a with
  | event order event backend =>
    exact ⟨Publisher.event_agrees hs.agrees order event backend, hs.faithful, hs.chain, hs.latest,
      hs.bound, hs.idle, hs.held⟩
  | flush =>
    have hup := (Publisher.delta_upToDate_iff hs.agrees).2 hin
    rcases KvRelay.flushPool_cases pool s.publisher.producer with ⟨hdirty, hp⟩ | ⟨d, hd, hp⟩
    · -- nothing dirty, nothing published
      have hsame : s.publisher.delta.1 = s.publisher := by
        rcases Publisher.delta_cases s.publisher with ⟨_, hw⟩ | ⟨d, hd, _⟩
        · rw [hw]
        · rw [CkfProducer.delta_none hdirty] at hd
          exact absurd hd (by simp)
      simp only [step, hp, hsame, Option.toList_none, List.append_nil]
      exact hs
    · obtain ⟨hfaithful, hcarried, hafter, _, hpool⟩ :=
        KvRelay.flushPool_faithful (congrArg Prod.snd hp)
      have hbuckets : s.publisher.delta.1.producer.buckets = s.publisher.producer.buckets := by
        rcases Publisher.delta_cases s.publisher with ⟨_, hw⟩ | ⟨d, _, hw⟩ <;> rw [hw]
      simp only [step, hp, Option.toList_some]
      refine hs.publish (Publisher.delta_agrees hs.agrees) hfaithful hpool ?_ ?_
      · rw [hafter, ← hbuckets]
        exact hup.symm
      · -- a bucket that differs from the last publication is dirty
        intro i hi
        by_contra hne
        rcases hs.agrees.changed i (fun h => hne h.symm) with h | h
        · exact hi h
        · exact hi (hin h)
  | barrier =>
    exact hs.publish (Publisher.snapshot_agrees _) (KvRelay.publishBarrier_faithful _ _) rfl rfl
      fun i hi => absurd (Finset.mem_univ i) hi
  | deliver k => exact hs.deliver k hin

theorem start_inv (seed : BitVec 64) (r : FreshReceiver pool.region) :
    Inv pool r.lane (start seed r) where
  agrees := Publisher.start_agrees seed
  faithful e hmem := absurd hmem List.not_mem_nil
  chain := List.isChain_nil
  latest e hlast := absurd hlast (by simp [start])
  bound := r.bound
  idle _ := r.retired
  held j hj := absurd hj (by simp [start])

/-- A delta that meets an active lane finds the state it is based on, or its own. -/
def BasedOn (l : RegionLane) (s : Delivery) : Label → Prop
  | .deliver k => ∀ e, s.log[k]? = some e → e.message.isBarrier = false →
      s.handler.status l = .active →
        ∃ j e', (k = j ∨ k = j + 1) ∧ s.log[j]? = some e' ∧ s.handler.lane l = e'.after
  | _ => True

theorem Inv.basedOn (hs : Inv pool l s) (a : Label) (hin : InOrder s a) : BasedOn l s a := by
  cases a with
  | deliver k =>
    intro e hk hdelta hactive
    obtain ⟨j, e', hpos, he', hlane⟩ := hs.sound hactive
    have hcase := hin e j hk hpos
    rw [hdelta, if_neg (by simp)] at hcase
    exact ⟨j, e', hcase, he', hlane⟩
  | event order event backend => trivial
  | flush => trivial
  | barrier => trivial

/-- Delivering in order never takes the lane back. -/
theorem InOrder.forward (a : Label) (hin : InOrder s a) : Forward H pool s a := by
  intro j k hj hk
  cases a with
  | deliver m =>
    cases hm : s.log[m]? with
    | none =>
      simp only [step, hm, hj, Option.some.injEq] at hk
      omega
    | some e =>
      have hcase := hin e j hm hj
      -- a delivery moves the position to the message delivered
      have hmk : m = k := by simpa [step, hm, hj] using hk
      subst hmk
      split at hcase
      · exact hcase
      · omega
  | event order event backend =>
    have : j = k := by simpa [step, hj] using hk
    omega
  | flush =>
    have : j = k := by simpa [step, hj] using hk
    omega
  | barrier =>
    have : j = k := by simpa [step, hj] using hk
    omega

/-- Whatever the pool does, if its messages arrive in order then an active lane
always holds one published state, never goes back to an older one, and meets a
delta only in the state the delta is based on. -/
theorem in_order_safe (H : Xxh3) (seed : BitVec 64) (pool : PoolId)
    (r : FreshReceiver pool.region) (run : List Label)
    (h : Run.Each (step H pool) InOrder (start seed r) run) :
    Run.All (step H pool) (Sound r.lane) (start seed r) run ∧
      Run.Each (step H pool) (fun s a => Forward H pool s a ∧ BasedOn r.lane s a)
        (start seed r) run := by
  have hinv : ∀ s a, Inv pool r.lane s → InOrder s a → Inv pool r.lane (step H pool s a) :=
    fun s a hs hin => step_inv hs a hin
  constructor
  · have hall : Run.All (step H pool) (Inv pool r.lane) (start seed r) run :=
      Run.all_of_each hinv (start_inv seed r) h
    exact hall.mono fun s hs => hs.sound
  · refine (h.with_invariant hinv (start_inv seed r)).mono fun s a hs => ?_
    exact ⟨hs.2.forward a, hs.1.basedOn a hs.2⟩

/-! ## Two concrete runs -/

/-- A pool. -/
def somePool : PoolId := ⟨⟨1⟩, ⟨"r"⟩⟩

/-- A receiver that has bound lane 0 to the Region of the pool. -/
def someReceiver : FreshReceiver somePool.region where
  handler := ⟨CkfConsumer.new.assignLane 0 ⟨"r"⟩, 0⟩
  lane := 0
  bound := by decide
  retired := rfl

/-- One block is stored. -/
def stores (hash : BlockHash) : Label :=
  .event .ascending (.stored ⟨1, 0⟩ [hash] none []) ⟨⟨"r"⟩, ⟨"i"⟩⟩

/-- A snapshot and the delta after it arrive in order. -/
theorem in_order_safe_run :
    Run.All (step Xxh3.short somePool) (Sound 0) (start 0 someReceiver)
      [.barrier, .deliver 0, stores 1, .flush, .deliver 1] := by
  refine (in_order_safe Xxh3.short 0 somePool someReceiver _ ?_).1
  refine ⟨trivial, ?_, trivial, ?_, ?_, trivial⟩
  · intro e j _ hpos
    exact absurd hpos (by simp [step, start])
  · exact Finset.empty_subset _
  · intro e j _ hpos
    have hj : 0 = j := Option.some.inj hpos
    subst hj
    split <;> omega

/-- A snapshot and two deltas are published. -/
def lossyRun : List Label := [.barrier, stores 1, .flush, stores 2, .flush]

/-- The state after publishing; then the snapshot and the second delta arrive. -/
@[irreducible] def lossy : Delivery :=
  lossyRun.foldl (step Xxh3.short somePool) (start 0 someReceiver)

theorem lossy_inv : Inv somePool 0 lossy := by
  unfold lossy
  refine Run.foldl_invariant (P := Inv somePool 0) (C := InOrder)
    (fun _ a hs hin => step_inv hs a hin) (start_inv 0 someReceiver) ?_
  refine ⟨trivial, trivial, ?_, trivial, ?_, trivial⟩
  · show (_ : Finset BucketIdx) ⊆ _
    decide +kernel
  · show (_ : Finset BucketIdx) ⊆ _
    decide +kernel

/-- The buckets of the two stored blocks. -/
def observe (lane : Lane) : PackedBucket × PackedBucket :=
  (lane (bucketA Xxh3.short 1), lane (bucketA Xxh3.short 2))

/-- The lane has the second block and not the first, as no publication does. -/
theorem not_singlePublication_lossy :
    ¬ SinglePublication 0
      (step Xxh3.short somePool (step Xxh3.short somePool lossy (.deliver 0)) (.deliver 2)) := by
  intro hsingle
  have hlength : lossy.log.length = 3 := by decide +kernel
  obtain ⟨e0, e1, e2, hlog⟩ := List.length_eq_three.1 hlength
  have hbarrier : lossy.log.map (fun e => e.message.isBarrier) = [true, false, false] := by
    decide +kernel
  have hseen : lossy.log.map (fun e => observe e.after) =
      [(0, 0), (0x792F, 0), (0x792F, 0xE243)] := by decide +kernel
  have hcarried : lossy.log[2]?.map (fun e => (decide (bucketA Xxh3.short 1 ∈ e.carried),
      decide (bucketA Xxh3.short 2 ∈ e.carried))) = some (false, true) := by decide +kernel
  simp only [hlog, List.map_cons, List.map_nil, List.cons.injEq, and_true, observe,
    Prod.mk.injEq, List.getElem?_cons_succ, List.getElem?_cons_zero, Option.map_some,
    Option.some.injEq, decide_eq_false_iff_not, decide_eq_true_eq] at hbarrier hseen hcarried
  obtain ⟨hb0, _, hb2⟩ := hbarrier
  obtain ⟨⟨h01, h02⟩, ⟨_, h12⟩, ⟨h21, h22⟩⟩ := hseen
  obtain ⟨hc1, hc2⟩ := hcarried
  have hinv := lossy_inv
  obtain ⟨hfaith0, hpool0⟩ := hinv.faithful e0 (by simp [hlog])
  obtain ⟨hfaith2, hpool2⟩ := hinv.faithful e2 (by simp [hlog])
  -- the snapshot, then the second delta
  have hl0 : lossy.handler.consumer.laneOf e0.message.pool.region = some 0 := hpool0 ▸ hinv.bound
  obtain ⟨hlane0, hstatus0, _⟩ := MetadataGossipHandler.handle_spec hfaith0 hl0
  have hl2 : (lossy.handler.handle e0.message).consumer.laneOf e2.message.pool.region = some 0 := by
    rw [MetadataGossipHandler.handle_laneOf, hpool2]
    exact hinv.bound
  obtain ⟨hlane2, hstatus2, _⟩ := MetadataGossipHandler.handle_spec hfaith2 hl2
  simp only [step, hlog, List.getElem?_cons_succ, List.getElem?_cons_zero, SinglePublication,
    hstatus2, hb2, hstatus0, hb0, if_true, Bool.false_eq_true, if_false, forall_const, hlane2,
    hlane0, hfaith0.patch_barrier hb0] at hsingle
  obtain ⟨e, hmem, heq⟩ := hsingle
  have heq1 := congrFun heq (bucketA Xxh3.short 1)
  have heq2 := congrFun heq (bucketA Xxh3.short 2)
  rw [hfaith2.writes, if_neg hc1, h01] at heq1
  rw [hfaith2.writes, if_pos hc2, h22] at heq2
  simp only [List.mem_cons, List.not_mem_nil, or_false] at hmem
  rcases hmem with rfl | rfl | rfl
  · rw [h02] at heq2
    exact absurd heq2 (by decide)
  · rw [h12] at heq2
    exact absurd heq2 (by decide)
  · rw [h21] at heq1
    exact absurd heq1 (by decide)

end Delivery

end HierKvGateway
