import HierKvGateway.Metadata.Holdings
import HierKvGateway.Metadata.RadixShape

/-!
# Metadata.ResetFence — late resets

A `Reset` carries a generation, and one with a smaller generation than the worker has had is
stale: it belongs to a life of the worker that is over. Neither the tree nor the producer looks at
generations, so a stale `Reset` clears what the worker has stored since.

* `Fence.ignored_iff`: stale resets do no harm exactly if each of them arrives when the worker
  holds no blocks, according to the events that came before it.
-/

namespace HierKvGateway

/-- The `Reset` an event is. -/
def KvCacheEvent.resets : KvCacheEvent → List (WorkerWithRank × BitVec 64)
  | .stored _ _ _ _ => []
  | .removed _ _ => []
  | .clear _ => []
  | .reset worker generation => [(worker, generation)]

namespace Fence

open Holdings (Fed feed)

/-- An event as it is delivered. A `Clear` visits the hashes in some order. -/
structure Arrival where
  event : KvCacheEvent
  order : IterOrder

/-- Tree and producer, and the `Reset`s applied so far. -/
structure State where
  index : TreeState × CkfProducer
  applied : List (WorkerWithRank × BitVec 64)

/-- No event has been delivered. -/
def start (seed : BitVec 64) : State := ⟨(.new, .withSeed seed), []⟩

/-- Both indexes take an event of the backend. -/
def arrive (H : Xxh3) (backend : BackendId) (s : State) (a : Arrival) : State where
  index := feed H s.index ⟨a.event, backend, a.order⟩
  applied := a.event.resets ++ s.applied

/-- A `Reset` of the same worker with a larger generation has been applied. -/
def Stale (applied : List (WorkerWithRank × BitVec 64)) (event : KvCacheEvent) : Prop :=
  ∃ worker generation later,
    event = .reset worker generation ∧ (worker, later) ∈ applied ∧ generation < later

/-- Nobody owns more or less than before. -/
structure SameOwnership (s s' : TreeState × CkfProducer) : Prop where
  tree : ∀ b p x, s'.1.Owns b (p ++ [x]) ↔ s.1.Owns b (p ++ [x])
  owners : ∀ hash, s'.2.owners hash = s.2.owners hash
  heldBy : ∀ b, s'.2.heldBy b = s.2.heldBy b

/-- If the event is a stale `Reset`, it changes no ownership. -/
def Ignored (H : Xxh3) (backend : BackendId) (s : State) (a : Arrival) : Prop :=
  Stale s.applied a.event → SameOwnership s.index (arrive H backend s a).index

/-- The blocks that the worker holds according to its events, and its `Reset`s. -/
abbrev Account := Holdings × List (WorkerWithRank × BitVec 64)

/-- Keep account of an event. -/
def account (backend : BackendId) (c : Account) (a : Arrival) : Account :=
  (c.1.applyEvent backend a.event, a.event.resets ++ c.2)

/-- If the event is a stale `Reset`, the worker holds no blocks when it arrives. -/
def NothingHeld (backend : BackendId) (c : Account) (a : Arrival) : Prop :=
  Stale c.2 a.event → c.1 backend = ∅

section Ignored

variable {H : Xxh3} {backend : BackendId} {s : State} {a : Arrival}

/-- Tree and producer agree, and nobody but the backend owns anything. -/
structure Single (backend : BackendId) (s : State) : Prop where
  ownership : CkfProducer.Ownership s.index.2.hashRefcount s.index.2.heldBy
  agree : Holdings.OwnersAgree s.index
  others : ∀ b, b ≠ backend → s.index.1.index.blocks b = ∅

theorem Single.blocks (h : Single backend s) (b : BackendId) (hash : BlockHash) :
    hash ∈ s.index.1.index.blocks b ↔ b ∈ s.index.2.owners hash := by
  rw [Holdings.mem_blocks_iff, h.agree b hash]

theorem single_start (seed : BitVec 64) : Single backend (start seed) := by
  constructor
  · exact (CkfProducer.withSeed_consistent seed).ownership
  · exact Holdings.ownersAgree_new seed
  · intro b _
    exact Set.eq_empty_iff_forall_notMem.2 fun x => TreeState.notMem_blocks_of_childless rfl x

theorem Single.step (h : Single backend s) (a : Arrival) : Single backend (arrive H backend s a) := by
  constructor
  · exact (CkfProducer.hashOps_ownership H a.order a.event backend h.ownership).2
  · -- no other backend could lose anything by a `Reset`
    apply (Holdings.agree_feed_iff h.ownership h.agree _).2
    unfold Holdings.ResetsAlone
    split
    · intro b hb hash hown
      have hempty := h.others b hb
      have hmem := (h.blocks b hash).2 hown
      rw [hempty] at hmem
      exact hmem
    · trivial
    · trivial
    · trivial
  · intro b hb
    have hblocks : (arrive H backend s a).index.1.index.blocks b =
        Holdings.applyEvent backend a.event s.index.1.index.blocks b :=
      congrFun (s.index.1.blocks_applyEvent backend a.event) b
    rw [hblocks, Holdings.applyEvent_of_ne hb]
    exact h.others b hb

/-- A `Reset` clears everything, so it changes nothing only if there is nothing. -/
theorem Single.sameOwnership_iff (h : Single backend s) {worker : WorkerWithRank}
    {generation : BitVec 64} (ha : a.event = .reset worker generation) :
    SameOwnership s.index (arrive H backend s a).index ↔ s.index.1.index.blocks backend = ∅ := by
  have harrive : (arrive H backend s a).index =
      ((KvOp.applyEvent (.reset worker generation) backend).applyTree s.index.1,
        s.index.2.resetInternal) := by
    unfold arrive feed
    rw [ha]
    rfl
  rw [harrive]
  constructor
  · intro hsame
    rw [Set.eq_empty_iff_forall_notMem]
    intro hash hmem
    -- a block it held would have lost its owner
    have hown := (h.blocks backend hash).1 hmem
    rw [← hsame.owners hash] at hown
    exact Finset.notMem_empty _ hown
  · intro hempty
    -- nothing is held by any backend, so there is nothing to clear
    have hnone : ∀ b, s.index.1.index.blocks b = ∅ := by
      intro b
      by_cases hb : b = backend
      · rw [hb]
        exact hempty
      · exact h.others b hb
    have howners : ∀ b hash, b ∉ s.index.2.owners hash := by
      intro b hash hown
      have hmem := (h.blocks b hash).2 hown
      rw [hnone b] at hmem
      exact hmem
    constructor
    case tree =>
      intro b p x
      rw [TreeState.owns_applyTree]
      have hnot : ¬s.index.1.Owns b (p ++ [x]) := by
        intro hown
        have hmem : x ∈ s.index.1.index.blocks b := ⟨p, TreeState.owns_iff.1 hown⟩
        rw [hnone b] at hmem
        exact hmem
      exact iff_of_false (fun hown => hnot hown.1) hnot
    case owners =>
      intro hash
      exact (Finset.eq_empty_of_forall_notMem fun b => howners b hash).symm
    case heldBy =>
      intro b
      apply Eq.symm
      apply Finset.eq_empty_of_forall_notMem
      intro hash hmem
      exact howners b hash ((h.ownership.index hash b).1 hmem)

theorem Single.ignored_iff_nothingHeld (h : Single backend s) (a : Arrival) :
    Ignored H backend s a ↔ NothingHeld backend (s.index.1.index.blocks, s.applied) a := by
  apply imp_congr_right
  rintro ⟨worker, generation, later, ha, -, -⟩
  exact h.sameOwnership_iff ha

/-- The account of the events is kept by the tree. -/
theorem account_arrive (s : State) (a : Arrival) :
    ((arrive H backend s a).index.1.index.blocks, (arrive H backend s a).applied) =
      account backend (s.index.1.index.blocks, s.applied) a :=
  Prod.ext (s.index.1.blocks_applyEvent backend a.event) rfl

end Ignored

/-- In every order of delivery, all stale `Reset`s leave the ownership alone exactly if each of
them comes when the worker, by its events so far, holds no blocks: whatever it has stored since
the last `Clear` or `Reset` has been removed. -/
theorem ignored_iff (H : Xxh3) (seed : BitVec 64) (backend : BackendId) (as : List Arrival) :
    Run.Each (arrive H backend) (Ignored H backend) (start seed) as ↔
      Run.Each (account backend) (NothingHeld backend) (fun _ => ∅, []) as := by
  have hstart : ((start seed).index.1.index.blocks, (start seed).applied) =
      ((fun _ => ∅, []) : Account) := by
    apply Prod.ext
    · funext b
      exact Set.eq_empty_iff_forall_notMem.2 fun x => TreeState.notMem_blocks_of_childless rfl x
    · rfl
  rw [Run.each_iff (J := Single backend) (fun s a h => h.step a)
    (fun s a h => h.ignored_iff_nothingHeld a) (single_start seed), ← hstart]
  exact Run.each_proj (fun s : State => (s.index.1.index.blocks, s.applied)) account_arrive _ as

/-- A worker is reset to generation 2 and stores a block. Then a `Reset` with generation 1
arrives. -/
def lateReset : List Arrival :=
  [⟨.reset ⟨1, 0⟩ 2, .ascending⟩, ⟨.stored ⟨1, 0⟩ [7] none [16], .ascending⟩,
    ⟨.reset ⟨1, 0⟩ 1, .ascending⟩]

/-- The block is lost. -/
theorem lateReset_not_ignored :
    ¬∀ (H : Xxh3) (seed : BitVec 64) (backend : BackendId) (as : List Arrival),
      Run.Each (arrive H backend) (Ignored H backend) (start seed) as := by
  intro h
  let b : BackendId := ⟨⟨"eu"⟩, ⟨"a"⟩⟩
  rcases h .short CkfProducer.defaultSeed b lateReset with ⟨-, -, hlate, -⟩
  have hsame := hlate ⟨⟨1, 0⟩, 1, 2, rfl, List.mem_cons_self, by decide⟩
  have howns : b ∈ (((lateReset.take 2).foldl (arrive .short b)
      (start CkfProducer.defaultSeed)).index.2.owners 7) := by
    decide +kernel
  have hgone : (((lateReset.take 2).foldl (arrive .short b)
      (start CkfProducer.defaultSeed)).index.2.owners 7) = ∅ := (hsame.owners 7).symm
  rw [hgone] at howns
  exact Finset.notMem_empty b howns

end Fence

end HierKvGateway
