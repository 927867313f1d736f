import HierKvGateway.Metadata.CkfOwnership
import HierKvGateway.Metadata.RadixTree
import HierKvGateway.Metadata.Xxh3

/-!
# Metadata.Holdings — local and published ownership

The tree serves the queries of its own gateway; the producer's owners decide what
other Regions see. Both are fed the same events. What an event should do is the
same for both, one set of blocks per backend (`Holdings`):

* the tree does it for every event (`TreeState.blocks_applyEvent`);
* the producer does it for every event but `Reset`, which empties the sets of
  all backends (`CkfProducer.holdings_applyEvent`, `CkfProducer.holdings_reset`).

So the two agree as long as a `Reset` finds no other backend with a block
(`Holdings.owners_agree_iff`).
-/

namespace HierKvGateway

/-- For each backend, the blocks it holds. -/
abbrev Holdings := BackendId → Set BlockHash

namespace Holdings

/-- An event concerns the blocks of its backend only. -/
def applyEvent (backend : BackendId) (event : KvCacheEvent) (I : Holdings) : Holdings :=
  match event with
  | .stored _ blockHashes _ _ => Function.update I backend {x | x ∈ I backend ∨ x ∈ blockHashes}
  | .removed _ blockHashes => Function.update I backend {x | x ∈ I backend ∧ x ∉ blockHashes}
  | .clear _ => Function.update I backend ∅
  | .reset _ _ => Function.update I backend ∅

variable {I : Holdings} {backend backend' : BackendId}

theorem applyEvent_of_ne (h : backend' ≠ backend) (event : KvCacheEvent) :
    I.applyEvent backend event backend' = I backend' := by
  cases event with
  | stored _ _ _ _ => exact Function.update_of_ne h _ _
  | removed _ _ => exact Function.update_of_ne h _ _
  | clear _ => exact Function.update_of_ne h _ _
  | reset _ _ => exact Function.update_of_ne h _ _

end Holdings

/-! ## The tree -/

namespace TreeState

/-- The tree does to the blocks of a backend what the event says. -/
theorem blocks_applyEvent (t : TreeState) (backend : BackendId) (event : KvCacheEvent) :
    (t.applyEvent backend event).index.blocks = Holdings.applyEvent backend event t.index.blocks := by
  funext b
  rw [index_applyEvent]
  by_cases hb : b = backend
  · subst hb
    ext x
    cases event with
    | stored _ blockHashes _ _ =>
      rw [Holdings.applyEvent, Function.update_self]
      exact PrefixIndex.mem_blocks_store
    | removed _ blockHashes =>
      rw [Holdings.applyEvent, Function.update_self]
      exact PrefixIndex.mem_blocks_remove
    | clear _ =>
      rw [Holdings.applyEvent, Function.update_self]
      exact iff_of_false PrefixIndex.mem_blocks_clear (Set.notMem_empty x)
    | reset _ _ =>
      rw [Holdings.applyEvent, Function.update_self]
      exact iff_of_false PrefixIndex.mem_blocks_clear (Set.notMem_empty x)
  · rw [PrefixIndex.blocks_applyEvent_of_ne hb, Holdings.applyEvent_of_ne hb]

end TreeState

/-! ## The producer -/

namespace CkfProducer

section Held

variable {H : Xxh3} {hash : BlockHash} {worker : BackendId} {p : CkfProducer}

theorem mem_heldBy_applyStored (ho : Ownership p.hashRefcount p.heldBy) (w : BackendId)
    (x : BlockHash) : x ∈ (applyStored H hash worker p).heldBy w ↔
      x ∈ p.heldBy w ∨ (w = worker ∧ x = hash) := by
  have hadd : x ∈ (addOwner hash worker p).heldBy w ↔
      x ∈ p.heldBy w ∨ (w = worker ∧ x = hash) := by
    rw [addOwner_heldBy]
    by_cases hw : w = worker
    · subst hw
      rw [Function.update_self, Finset.mem_insert]
      constructor
      · rintro (hx | hx)
        · exact Or.inr ⟨rfl, hx⟩
        · exact Or.inl hx
      · rintro (hx | ⟨_, hx⟩)
        · exact Or.inr hx
        · exact Or.inl hx
    · rw [Function.update_of_ne hw]
      constructor
      · exact Or.inl
      · rintro (hx | ⟨hx, _⟩)
        · exact hx
        · exact absurd hx hw
  rcases applyStored_cases H hash worker p with ⟨hown, hp⟩ | ⟨_, _, hp⟩ | ⟨_, hp⟩
  · -- listed already
    rw [hp]
    constructor
    · exact Or.inl
    · rintro (hx | ⟨rfl, rfl⟩)
      · exact hx
      · exact (ho.index x w).2 hown
  · rw [hp]
    exact hadd
  · -- the insertion changes the lane, not who owns what
    have hstep := insertFingerprint_laneStep H hash (addOwner hash worker p)
    have hheld : (insertFingerprint H hash (addOwner hash worker p)).1.heldBy w =
        (addOwner hash worker p).heldBy w := by
      rw [heldBy, heldBy, hstep.workerHashes]
    rw [hp, hheld]
    exact hadd

theorem mem_heldBy_applyRemoved (ho : Ownership p.hashRefcount p.heldBy) (w : BackendId)
    (x : BlockHash) : x ∈ (applyRemoved H hash worker p).heldBy w ↔
      x ∈ p.heldBy w ∧ ¬ (w = worker ∧ x = hash) := by
  rcases applyRemoved_cases H hash worker p with ⟨hown, hp⟩ | ⟨e, _, _, hp⟩
  · -- not listed
    rw [hp]
    constructor
    · intro hx
      refine ⟨hx, ?_⟩
      rintro ⟨rfl, rfl⟩
      exact hown ((ho.index x w).1 hx)
    · rintro ⟨hx, _⟩
      exact hx
  · rw [hp, dropOwner_heldBy, unlist_heldBy]
    by_cases hw : w = worker
    · subst hw
      rw [Function.update_self, Finset.mem_erase]
      constructor
      · rintro ⟨hne, hx⟩
        exact ⟨hx, fun h => hne h.2⟩
      · rintro ⟨hx, hne⟩
        exact ⟨fun h => hne ⟨rfl, h⟩, hx⟩
    · rw [Function.update_of_ne hw]
      constructor
      · intro hx
        exact ⟨hx, fun h => hw h.1⟩
      · rintro ⟨hx, _⟩
        exact hx

/-- A list of stored hashes. -/
theorem mem_heldBy_stored (hs : List BlockHash) (ho : Ownership p.hashRefcount p.heldBy)
    (w : BackendId) (x : BlockHash) :
    x ∈ (hs.foldl (fun p hash => applyStored H hash worker p) p).heldBy w ↔
      x ∈ p.heldBy w ∨ (w = worker ∧ x ∈ hs) := by
  induction hs generalizing p with
  | nil =>
    constructor
    · exact Or.inl
    · rintro (hx | ⟨_, hx⟩)
      · exact hx
      · exact absurd hx List.not_mem_nil
  | cons hash hs ih =>
    rw [List.foldl_cons, ih (applyStored_ownership ho), mem_heldBy_applyStored ho, or_assoc,
      ← and_or_left, List.mem_cons]

/-- A list of removed hashes. -/
theorem mem_heldBy_removed (hs : List BlockHash) (ho : Ownership p.hashRefcount p.heldBy)
    (w : BackendId) (x : BlockHash) :
    x ∈ (hs.foldl (fun p hash => applyRemoved H hash worker p) p).heldBy w ↔
      x ∈ p.heldBy w ∧ ¬ (w = worker ∧ x ∈ hs) := by
  induction hs generalizing p with
  | nil =>
    constructor
    · intro hx
      exact ⟨hx, fun h => List.not_mem_nil h.2⟩
    · rintro ⟨hx, _⟩
      exact hx
  | cons hash hs ih =>
    rw [List.foldl_cons, ih (applyRemoved_ownership ho), mem_heldBy_applyRemoved ho, and_assoc,
      ← not_or, ← and_or_left, List.mem_cons]

end Held

variable {H : Xxh3} {p : CkfProducer}

/-- The blocks each backend holds. -/
def holdings (p : CkfProducer) : Holdings := fun b => {x | x ∈ p.heldBy b}

/-- The producer does what the event says, a `Reset` apart. -/
theorem holdings_applyEvent (ho : Ownership p.hashRefcount p.heldBy) (order : IterOrder)
    (backend : BackendId) {event : KvCacheEvent} (h : ∀ worker generation,
      event ≠ .reset worker generation) :
    (applyEvent H order event backend p).holdings = Holdings.applyEvent backend event p.holdings := by
  funext b
  ext x
  cases event with
  | stored worker blockHashes parentHash numBlockTokens =>
    refine (mem_heldBy_stored blockHashes ho b x).trans ?_
    by_cases hb : b = backend
    · subst hb
      rw [Holdings.applyEvent, Function.update_self]
      exact or_congr_right (and_iff_right rfl)
    · rw [Holdings.applyEvent_of_ne hb]
      exact or_iff_left fun hx => hb hx.1
  | removed worker blockHashes =>
    refine (mem_heldBy_removed blockHashes ho b x).trans ?_
    by_cases hb : b = backend
    · subst hb
      rw [Holdings.applyEvent, Function.update_self]
      exact and_congr_right' (not_congr (and_iff_right rfl))
    · rw [Holdings.applyEvent_of_ne hb]
      exact and_iff_left fun hx => hb hx.1
  | clear worker =>
    obtain ⟨_, hheld, _⟩ := clear_spec H order worker backend ho
    show x ∈ (applyEvent H order (.clear worker) backend p).heldBy b ↔ _
    rw [hheld]
    by_cases hb : b = backend
    · subst hb
      rw [Holdings.applyEvent, Function.update_self, Function.update_self]
      exact iff_of_false (Finset.notMem_empty x) (Set.notMem_empty x)
    · rw [Holdings.applyEvent_of_ne hb, Function.update_of_ne hb]
      exact Iff.rfl
  | reset worker generation => exact absurd rfl (h worker generation)

/-- A `Reset` empties the sets of all backends. -/
theorem holdings_reset (order : IterOrder) (backend : BackendId) (worker : WorkerWithRank)
    (generation : BitVec 64) :
    (applyEvent H order (.reset worker generation) backend p).holdings = fun _ => ∅ := by
  funext b
  ext x
  exact iff_of_false (Finset.notMem_empty x) (Set.notMem_empty x)

end CkfProducer

/-! ## Both fed the same events -/

namespace Holdings

/-- An event of a backend. A `Clear` visits the backend's hashes in some order. -/
structure Fed where
  event : KvCacheEvent
  backend : BackendId
  order : IterOrder

/-- Tree and producer take an event. -/
def feed (H : Xxh3) (s : TreeState × CkfProducer) (f : Fed) : TreeState × CkfProducer :=
  (s.1.applyEvent f.backend f.event, s.2.applyEvent H f.order f.event f.backend)

/-- A backend is an owner of a hash in the producer exactly when it owns some
node of the tree with that hash. -/
def OwnersAgree (s : TreeState × CkfProducer) : Prop :=
  ∀ b h, b ∈ s.2.owners h ↔ ∃ p rank, (b, rank) ∈ s.1.ownersAt (p ++ [h])

/-- A `Reset` comes when no other backend owns anything. -/
def ResetsAlone (s : TreeState × CkfProducer) (f : Fed) : Prop :=
  match f.event with
  | .reset _ _ => ∀ b, b ≠ f.backend → ∀ h, b ∉ s.2.owners h
  | .stored _ _ _ _ => True
  | .removed _ _ => True
  | .clear _ => True

section Agreement

variable {H : Xxh3} {s : TreeState × CkfProducer}

theorem mem_blocks_iff {t : TreeState} {b : BackendId} {h : BlockHash} :
    h ∈ t.index.blocks b ↔ ∃ p rank, (b, rank) ∈ t.ownersAt (p ++ [h]) := by
  constructor
  · rintro ⟨p, hp⟩
    exact ⟨p, 0, TreeState.mem_index.1 hp⟩
  · rintro ⟨p, rank, hp⟩
    exact ⟨p, List.append_ne_nil_of_right_ne_nil p (List.cons_ne_nil h []), (b, rank), hp, rfl⟩

/-- Agreement, as an equation between the two sets of blocks of each backend. -/
theorem ownersAgree_iff (ho : CkfProducer.Ownership s.2.hashRefcount s.2.heldBy) :
    OwnersAgree s ↔ s.2.holdings = s.1.index.blocks := by
  have hown : ∀ b h, h ∈ s.2.holdings b ↔ b ∈ s.2.owners h := fun b h => ho.index h b
  constructor
  · intro hagree
    funext b
    ext h
    rw [hown, hagree b h, mem_blocks_iff]
  · intro heq b h
    rw [← hown, heq, mem_blocks_iff]

/-- An event keeps the agreement exactly when it is not a `Reset` that wipes out
another backend. -/
theorem agree_feed_iff (ho : CkfProducer.Ownership s.2.hashRefcount s.2.heldBy)
    (h : OwnersAgree s) (f : Fed) : OwnersAgree (feed H s f) ↔ ResetsAlone s f := by
  obtain ⟨event, backend, order⟩ := f
  have ho' : CkfProducer.Ownership (feed H s ⟨event, backend, order⟩).2.hashRefcount
      (feed H s ⟨event, backend, order⟩).2.heldBy :=
    (CkfProducer.hashOps_ownership H order event backend ho).2
  have hsame := (ownersAgree_iff ho).1 h
  have htree : (feed H s ⟨event, backend, order⟩).1.index.blocks =
      s.2.holdings.applyEvent backend event := by
    rw [hsame]
    exact s.1.blocks_applyEvent backend event
  rw [ownersAgree_iff ho', htree]
  cases event with
  | stored worker blockHashes parentHash numBlockTokens =>
    exact iff_of_true (CkfProducer.holdings_applyEvent ho order backend (fun _ _ => nofun)) trivial
  | removed worker blockHashes =>
    exact iff_of_true (CkfProducer.holdings_applyEvent ho order backend (fun _ _ => nofun)) trivial
  | clear worker =>
    exact iff_of_true (CkfProducer.holdings_applyEvent ho order backend (fun _ _ => nofun)) trivial
  | reset worker generation =>
    have hreset : (feed H s ⟨.reset worker generation, backend, order⟩).2.holdings = fun _ => ∅ :=
      CkfProducer.holdings_reset (H := H) order backend worker generation
    rw [hreset, applyEvent]
    constructor
    · -- the sets of the others must have been empty already
      intro hempty b hb x hx
      have hb' := congrFun hempty b
      rw [Function.update_of_ne hb] at hb'
      have hmem : x ∈ s.2.holdings b := (ho.index x b).2 hx
      rw [← hb'] at hmem
      exact hmem
    · -- a `Reset` leaves nobody anything, and the others had nothing
      intro halone
      funext b
      by_cases hb : b = backend
      · subst hb
        rw [Function.update_self]
      · rw [Function.update_of_ne hb]
        ext x
        exact iff_of_false (Set.notMem_empty x) fun hx => halone b hb x ((ho.index x b).1 hx)

theorem ownersAgree_new (seed : BitVec 64) :
    OwnersAgree (TreeState.new, CkfProducer.withSeed seed) := by
  refine (ownersAgree_iff (CkfProducer.withSeed_consistent seed).ownership).2 ?_
  funext b
  ext x
  refine iff_of_false (Finset.notMem_empty x) ?_
  rintro ⟨p, hp⟩
  rw [TreeState.index_new] at hp
  exact Set.notMem_empty _ hp

end Agreement

/-- Tree and producer agree on the owners of every hash after every prefix of a
sequence of events, exactly when each `Reset` in it comes at a time when no other
backend owns anything. -/
theorem owners_agree_iff (H : Xxh3) (seed : BitVec 64) (fs : List Fed) :
    Run.All (feed H) OwnersAgree (TreeState.new, CkfProducer.withSeed seed) fs ↔
      Run.Each (feed H) ResetsAlone (TreeState.new, CkfProducer.withSeed seed) fs := by
  refine Run.all_iff_each (D := fun _ _ => True)
    (J := fun s => CkfProducer.Ownership s.2.hashRefcount s.2.heldBy)
    (fun s f ho _ => ?_) (fun s f ho _ hagree => agree_feed_iff ho hagree f)
    (CkfProducer.withSeed_consistent seed).ownership (ownersAgree_new seed)
    (Run.each_of_forall (fun _ _ => trivial) _ _)
  exact (CkfProducer.hashOps_ownership H f.order f.event f.backend ho).2

/-- A backend stores a block and another one is reset. -/
def resetByOther : List Fed :=
  [⟨.stored ⟨1, 0⟩ [1] none [], ⟨⟨"r1"⟩, ⟨"i1"⟩⟩, .ascending⟩,
    ⟨.reset ⟨2, 0⟩ 1, ⟨⟨"r1"⟩, ⟨"i2"⟩⟩, .ascending⟩]

/-- The tree keeps the block, the producer has forgotten it. -/
theorem not_ownersAgree_resetByOther :
    ¬ Run.All (feed .short) OwnersAgree (TreeState.new, CkfProducer.new) resetByOther := by
  rintro ⟨_, _, hagree⟩
  have htree : ((⟨⟨"r1"⟩, ⟨"i1"⟩⟩, 0) : Owner) ∈
      (resetByOther.foldl (feed .short) (TreeState.new, CkfProducer.new)).1.ownersAt [1] := by
    decide +kernel
  have hproducer : (⟨⟨"r1"⟩, ⟨"i1"⟩⟩ : BackendId) ∈
      (resetByOther.foldl (feed .short) (TreeState.new, CkfProducer.new)).2.owners 1 :=
    (hagree _ 1).2 ⟨[], 0, htree⟩
  exact Finset.notMem_empty _ hproducer

end Holdings

end HierKvGateway
