import HierKvGateway.Lib.Trie
import HierKvGateway.Core.KvEvent
import Mathlib.Algebra.GroupWithZero.Nat
import Mathlib.Data.Finset.Card

/-!
# Metadata.RadixTree — the exact index of block ownership

The tree held by the worker thread of `radix_tree.rs`. A node stands for a block
after a prefix of blocks and records the `(backend, rank)` pairs that hold it.

* `Stored` walks its hashes from the root and adds the owner to every node of
  that path;
* `Removed` takes the owner away from every node of the whole tree whose hash is
  listed, whatever its prefix;
* `Clear`, `Reset` and the removal of a backend take all its ranks away.

The last two reclaim the nodes that are left without owners and children.

What the tree is for is stated by `PrefixIndex`: for each backend, the set of
block sequences it holds. `TreeState.index_applyEvent` and
`TreeState.index_removeBackend` are the refinement, and
`TreeState.le_findMatches_iff` the meaning of a query.
-/

namespace HierKvGateway

/-- Node ownership granularity: a `(backend, rank)` pair. -/
abbrev Owner := BackendId × BitVec 32

/-- The data of a node: its block hash, the pairs that hold it, and a cache of
their number. The root has hash 0. -/
structure NodeData where
  hash : BlockHash
  owners : Finset Owner
  refCount : Nat
  counted : refCount = owners.card

namespace NodeData

/-- A node nobody owns. -/
def new (hash : BlockHash) : NodeData := ⟨hash, ∅, 0, rfl⟩

def addOwner (owner : Owner) (d : NodeData) : NodeData :=
  if h : owner ∈ d.owners then d
  else
    { d with
      owners := insert owner d.owners
      refCount := d.refCount + 1
      counted := by rw [Finset.card_insert_of_notMem h, d.counted] }

def removeOwner (owner : Owner) (d : NodeData) : NodeData :=
  if h : owner ∈ d.owners then
    { d with
      owners := d.owners.erase owner
      refCount := d.refCount - 1
      counted := by rw [Finset.card_erase_of_mem h, d.counted] }
  else d

/-- Drop every rank of a backend. -/
def removeBackend (backend : BackendId) (d : NodeData) : NodeData :=
  let kept := d.owners.filter fun o => o.1 ≠ backend
  let removed := d.owners.card - kept.card
  { d with
    owners := kept
    refCount := d.refCount - removed
    counted := by
      have hle : kept.card ≤ d.owners.card := Finset.card_le_card (Finset.filter_subset _ _)
      have hcount := d.counted
      omega }

def isOwnedBy (backend : BackendId) (d : NodeData) : Bool := decide (∃ o ∈ d.owners, o.1 = backend)

def hasOwner (d : NodeData) : Bool := decide d.owners.Nonempty

/-- The reference count says that no owner is left. -/
def unowned (d : NodeData) : Bool := d.refCount == 0

@[simp] theorem addOwner_hash (owner : Owner) (d : NodeData) : (d.addOwner owner).hash = d.hash := by
  unfold addOwner
  split <;> rfl

@[simp] theorem removeOwner_hash (owner : Owner) (d : NodeData) :
    (d.removeOwner owner).hash = d.hash := by
  unfold removeOwner
  split <;> rfl

@[simp] theorem addOwner_owners (owner : Owner) (d : NodeData) :
    (d.addOwner owner).owners = insert owner d.owners := by
  unfold addOwner
  split
  · rename_i h
    exact (Finset.insert_eq_of_mem h).symm
  · rfl

@[simp] theorem removeOwner_owners (owner : Owner) (d : NodeData) :
    (d.removeOwner owner).owners = d.owners.erase owner := by
  unfold removeOwner
  split
  · rfl
  · rename_i h
    exact (Finset.erase_eq_of_notMem h).symm

theorem owners_of_unowned {d : NodeData} (h : d.unowned = true) : d.owners = ∅ := by
  have hzero : d.refCount = 0 := by simpa [unowned] using h
  rw [← Finset.card_eq_zero, ← d.counted, hzero]

end NodeData

/-- A tree node: its data and its children, indexed by block hash. -/
abbrev Node := Trie BlockHash NodeData

/-- What every node below the root satisfies: it has the hash it is indexed
under, and its owners have rank 0, the only rank events are recorded with. -/
structure NodeOk (hash : BlockHash) (d : NodeData) : Prop where
  hash : d.hash = hash
  rank : ∀ o ∈ d.owners, o.2 = 0

/-- Tree state held by the worker thread. -/
structure TreeState where
  root : Node
  /-- All backends seen. -/
  backends : Finset BackendId
  wf : root.WF
  nodes : root.All NodeOk

namespace TreeState

/-- The empty tree. -/
def new : TreeState := ⟨.leaf (.new 0), ∅, .leaf, .leaf⟩

/-- Remove an owner from the node if its hash is listed. -/
def removeListed (owner : Owner) (hashes : List BlockHash) (d : NodeData) : NodeData :=
  if d.hash ∈ hashes then d.removeOwner owner else d

section NodeOk

variable {hash : BlockHash} {d : NodeData} {backend : BackendId} {hashes : List BlockHash}

theorem nodeOk_new (hash : BlockHash) : NodeOk hash (.new hash) :=
  ⟨rfl, fun _ ho => absurd ho (Finset.notMem_empty _)⟩

theorem nodeOk_addOwner (h : NodeOk hash d) : NodeOk hash (d.addOwner (backend, 0)) where
  hash := by rw [NodeData.addOwner_hash, h.hash]
  rank o ho := by
    rw [NodeData.addOwner_owners, Finset.mem_insert] at ho
    rcases ho with rfl | ho
    · rfl
    · exact h.rank o ho

theorem nodeOk_removeListed (h : NodeOk hash d) :
    NodeOk hash (removeListed (backend, 0) hashes d) := by
  unfold removeListed
  split
  · refine ⟨by rw [NodeData.removeOwner_hash, h.hash], fun o ho => ?_⟩
    rw [NodeData.removeOwner_owners] at ho
    exact h.rank o (Finset.mem_of_mem_erase ho)
  · exact h

theorem nodeOk_removeBackend (h : NodeOk hash d) : NodeOk hash (d.removeBackend backend) :=
  ⟨h.hash, fun o ho => h.rank o (Finset.mem_of_mem_filter o ho)⟩

end NodeOk

/-- Add the owner to every node on the path of the hashes. -/
def applyStored (backend : BackendId) (hashes : List BlockHash) (t : TreeState) : TreeState :=
  { t with
    root := t.root.grow NodeData.new (NodeData.addOwner (backend, 0)) hashes
    wf := t.wf.grow hashes
    nodes := t.nodes.grow nodeOk_new (fun _ _ => nodeOk_addOwner) hashes }

/-- Remove the owner from every node below the root whose hash is listed. -/
def applyRemoved (backend : BackendId) (hashes : List BlockHash) (t : TreeState) : TreeState :=
  { t with
    root := t.root.sweepBelow (removeListed (backend, 0) hashes) NodeData.unowned
    wf := t.wf.sweepBelow
    nodes := t.nodes.sweepBelow t.wf fun _ _ => nodeOk_removeListed }

/-- Forget a backend and all it owns. -/
def clearBackend (backend : BackendId) (t : TreeState) : TreeState where
  root := t.root.sweep (NodeData.removeBackend backend) NodeData.unowned
  backends := t.backends.erase backend
  wf := t.wf.sweep
  nodes := t.nodes.sweep t.wf fun _ _ => nodeOk_removeBackend

/-- Apply an event. It always succeeds. -/
def applyEvent (backend : BackendId) (event : KvCacheEvent) (t : TreeState) : TreeState :=
  match event with
  | .stored _ blockHashes _ _ =>
    { t with backends := insert backend t.backends }.applyStored backend blockHashes
  | .removed _ blockHashes => t.applyRemoved backend blockHashes
  | .clear _ => t.clearBackend backend
  | .reset _ _ => t.clearBackend backend

/-- Remove all ownership of a backend. -/
def removeBackend (backend : BackendId) (t : TreeState) : TreeState := t.clearBackend backend

/-- The number of leading hashes on whose path every node is owned by the
backend. -/
def findMatches (hashes : List BlockHash) (backend : BackendId) (t : TreeState) : Nat :=
  t.root.walk (NodeData.isOwnedBy backend) hashes

/-- For each backend, the number of its owners on the path of the hashes, up to
the first node nobody owns; backends with none are not listed. -/
def findAllMatches (hashes : List BlockHash) (t : TreeState) (backend : BackendId) : Nat :=
  let path := (t.root.along hashes).takeWhile NodeData.hasOwner
  (path.map fun d => (d.owners.filter fun o => o.1 = backend).card).sum

/-- Worker thread statistics. -/
structure RadixStats where
  totalNodes : Nat := 0
  totalBlocks : Nat := 0
  backends : Nat := 0
  depth : Nat := 0
deriving DecidableEq, Repr

mutual

/-- Nodes, owners and maximum depth of a subtree whose root has the given depth. -/
def statsRecursive (depth : Nat) : Node → Nat × Nat × Nat
  | .node d cs =>
    let (n, b, m) := statsChildren (depth + 1) cs
    (1 + n, d.owners.card + b, max depth m)

/-- The same for a list of children. -/
def statsChildren (depth : Nat) : List (Σ _ : BlockHash, Node) → Nat × Nat × Nat
  | [] => (0, 0, 0)
  | ⟨_, c⟩ :: cs =>
    let (n, b, m) := statsRecursive depth c
    let (n', b', m') := statsChildren depth cs
    (n + n', b + b', max m m')

end

/-- The statistics of the tree; the root itself is not counted. -/
def stats (t : TreeState) : RadixStats :=
  let (nodes, blocks, depth) := statsChildren 1 t.root.children
  ⟨nodes, blocks, t.backends.card, depth⟩

/-! ## Owners after an event -/

/-- The owners recorded at the end of a block sequence; none if there is no such
node. -/
def ownersAt (t : TreeState) (p : List BlockHash) : Finset Owner := t.root.get (·.owners) ∅ p

section Owners

variable (t : TreeState) (backend : BackendId) (hashes p : List BlockHash) (x : BlockHash)

theorem ownersAt_applyStored :
    (t.applyStored backend hashes).ownersAt (p ++ [x]) =
      if p ++ [x] <+: hashes then insert (backend, 0) (t.ownersAt (p ++ [x]))
      else t.ownersAt (p ++ [x]) := by
  simp only [ownersAt, applyStored, Trie.get, Trie.find?_grow]
  split
  · cases t.root.find? (p ++ [x]) <;> simp [NodeData.new]
  · rfl

theorem ownersAt_applyRemoved :
    (t.applyRemoved backend hashes).ownersAt (p ++ [x]) =
      if x ∈ hashes then (t.ownersAt (p ++ [x])).erase (backend, 0)
      else t.ownersAt (p ++ [x]) := by
  have hsweep : (t.root.sweep (removeListed (backend, 0) hashes) _).get NodeData.owners ∅ (p ++ [x])
      = _ := Trie.get_sweep (fun _ => NodeData.owners_of_unowned) t.wf (p ++ [x])
  have hbelow : (t.applyRemoved backend hashes).ownersAt (p ++ [x]) =
      t.root.get (fun d => (removeListed (backend, 0) hashes d).owners) ∅ (p ++ [x]) := by
    rw [← hsweep]
    simp only [ownersAt, applyRemoved, Trie.get, Trie.find?_sweepBelow]
  rw [hbelow, ownersAt, Trie.get, Trie.get]
  cases hfind : t.root.find? (p ++ [x]) with
  | none => simp
  | some d =>
    -- the node has the hash it is indexed under
    have hhash := (t.nodes p x d hfind).hash
    simp only [Option.map_some, Option.getD_some, removeListed, hhash]
    split
    · exact NodeData.removeOwner_owners _ _
    · rfl

theorem ownersAt_clearBackend :
    (t.clearBackend backend).ownersAt p = (t.ownersAt p).filter fun o => o.1 ≠ backend := by
  have hsweep : (t.root.sweep (NodeData.removeBackend backend) _).get NodeData.owners ∅ p = _ :=
    Trie.get_sweep (fun _ => NodeData.owners_of_unowned) t.wf p
  rw [ownersAt, clearBackend, hsweep, ownersAt, Trie.get, Trie.get]
  cases t.root.find? p <;> rfl

/-- Owners have rank 0. -/
theorem rank_of_mem_ownersAt {o : Owner} (h : o ∈ t.ownersAt (p ++ [x])) : o.2 = 0 := by
  rw [ownersAt, Trie.get] at h
  cases hfind : t.root.find? (p ++ [x]) with
  | none => simp [hfind] at h
  | some d =>
    rw [hfind] at h
    exact (t.nodes p x d hfind).rank o h

end Owners

end TreeState

/-! ## What the tree is for -/

/-- For each backend, the block sequences it holds. -/
abbrev PrefixIndex := BackendId → Set (List BlockHash)

namespace PrefixIndex

/-- All prefixes of a sequence become held, the empty one apart. -/
def store (backend : BackendId) (hashes : List BlockHash) (I : PrefixIndex) : PrefixIndex :=
  Function.update I backend (I backend ∪ {p | p ≠ [] ∧ p <+: hashes})

/-- Every sequence that ends in one of the blocks is given up. -/
def remove (backend : BackendId) (hashes : List BlockHash) (I : PrefixIndex) : PrefixIndex :=
  Function.update I backend {p ∈ I backend | ∀ x ∈ p.getLast?, x ∉ hashes}

/-- Everything is given up. -/
def clear (backend : BackendId) (I : PrefixIndex) : PrefixIndex := Function.update I backend ∅

def applyEvent (backend : BackendId) (event : KvCacheEvent) (I : PrefixIndex) : PrefixIndex :=
  match event with
  | .stored _ blockHashes _ _ => I.store backend blockHashes
  | .removed _ blockHashes => I.remove backend blockHashes
  | .clear _ => I.clear backend
  | .reset _ _ => I.clear backend

/-- The blocks a backend holds after any prefix. -/
def blocks (I : PrefixIndex) (backend : BackendId) : Set BlockHash := {x | ∃ p, p ++ [x] ∈ I backend}

variable {I : PrefixIndex} {backend backend' : BackendId} {hashes : List BlockHash} {x : BlockHash}

theorem mem_blocks_store :
    x ∈ (I.store backend hashes).blocks backend ↔ x ∈ I.blocks backend ∨ x ∈ hashes := by
  simp only [blocks, store, Function.update_self, Set.mem_ofPred_eq, Set.mem_union]
  constructor
  · rintro ⟨p, hp | ⟨_, q, hq⟩⟩
    · exact Or.inl ⟨p, hp⟩
    · exact Or.inr (by simp [← hq])
  · rintro (⟨p, hp⟩ | hx)
    · exact ⟨p, Or.inl hp⟩
    · -- the block ends a prefix of the sequence
      obtain ⟨p, q, rfl⟩ := List.append_of_mem hx
      exact ⟨p, Or.inr ⟨by simp, q, by simp⟩⟩

theorem mem_blocks_remove :
    x ∈ (I.remove backend hashes).blocks backend ↔ x ∈ I.blocks backend ∧ x ∉ hashes := by
  simp only [blocks, remove, Function.update_self, Set.mem_ofPred_eq]
  constructor
  · rintro ⟨p, hp, hlast⟩
    exact ⟨⟨p, hp⟩, hlast x (by simp)⟩
  · rintro ⟨⟨p, hp⟩, hx⟩
    exact ⟨p, hp, by simpa using hx⟩

theorem mem_blocks_clear : x ∉ (I.clear backend).blocks backend := by
  simp [blocks, clear]

/-- The other backends hold what they held. -/
theorem blocks_clear_of_ne (h : backend' ≠ backend) :
    (I.clear backend).blocks backend' = I.blocks backend' := by
  rw [blocks, clear, Function.update_of_ne h, blocks]

theorem blocks_applyEvent_of_ne (h : backend' ≠ backend) (event : KvCacheEvent) :
    (I.applyEvent backend event).blocks backend' = I.blocks backend' := by
  cases event with
  | stored _ blockHashes _ _ => rw [applyEvent, blocks, store, Function.update_of_ne h, blocks]
  | removed _ blockHashes => rw [applyEvent, blocks, remove, Function.update_of_ne h, blocks]
  | clear _ => exact blocks_clear_of_ne h
  | reset _ _ => exact blocks_clear_of_ne h

end PrefixIndex

namespace TreeState

/-- The sequences each backend holds according to the tree. -/
def index (t : TreeState) : PrefixIndex := fun backend =>
  {p | p ≠ [] ∧ ∃ o ∈ t.ownersAt p, o.1 = backend}

variable {t : TreeState} {backend : BackendId} {hashes : List BlockHash}

theorem index_new : new.index = fun _ => ∅ := by
  funext b
  ext p
  refine iff_of_false ?_ (Set.notMem_empty p)
  rintro ⟨hp, o, ho, _⟩
  obtain ⟨k, p, rfl⟩ := List.exists_cons_of_ne_nil hp
  exact absurd ho (Finset.notMem_empty o)

theorem nil_notMem_index (backend : BackendId) : [] ∉ t.index backend := fun h => h.1 rfl

/-- A backend holds a sequence when it owns the node at its end, with rank 0. -/
theorem mem_index {p : List BlockHash} {x : BlockHash} :
    p ++ [x] ∈ t.index backend ↔ (backend, 0) ∈ t.ownersAt (p ++ [x]) := by
  constructor
  · rintro ⟨_, ⟨b, rank⟩, ho, hb⟩
    have hrank : rank = 0 := t.rank_of_mem_ownersAt p x ho
    have hb : b = backend := hb
    rwa [← hb, ← hrank]
  · intro h
    exact ⟨by simp, (backend, 0), h, rfl⟩

/-- The index after an operation, read off the owners of the nodes. -/
theorem index_eq_of_owners {I : PrefixIndex} (hnil : ∀ b, [] ∉ I b)
    (h : ∀ b p x, (b, 0) ∈ t.ownersAt (p ++ [x]) ↔ p ++ [x] ∈ I b) : t.index = I := by
  funext b
  ext p
  rcases List.eq_nil_or_concat p with rfl | ⟨p, x, rfl⟩
  · exact iff_of_false (nil_notMem_index b) (hnil b)
  · rw [List.concat_eq_append, mem_index, h]

/-- Nobody holds anything in a tree without nodes. -/
theorem notMem_blocks_of_childless (h : t.root.children = []) (x : BlockHash) :
    x ∉ t.index.blocks backend := by
  rintro ⟨p, _, o, ho, _⟩
  obtain ⟨k, q, hq⟩ := List.exists_cons_of_ne_nil (List.append_ne_nil_of_right_ne_nil p (by simp : [x] ≠ []))
  rw [hq, ownersAt, Trie.get, Trie.find?_cons, Trie.child, h] at ho
  exact Finset.notMem_empty o ho

theorem index_applyStored :
    (t.applyStored backend hashes).index = t.index.store backend hashes := by
  refine index_eq_of_owners (fun b => ?_) fun b p x => ?_
  · by_cases hb : b = backend
    · subst hb
      simp [PrefixIndex.store, nil_notMem_index]
    · simp [PrefixIndex.store, hb, nil_notMem_index]
  · rw [ownersAt_applyStored]
    by_cases hb : b = backend
    · subst hb
      rw [PrefixIndex.store, Function.update_self, Set.mem_union, mem_index]
      split
      · rename_i hpre
        simp [hpre]
      · rename_i hpre
        simp [hpre]
    · rw [PrefixIndex.store, Function.update_of_ne hb, mem_index]
      split <;> simp [hb]

theorem index_applyRemoved :
    (t.applyRemoved backend hashes).index = t.index.remove backend hashes := by
  refine index_eq_of_owners (fun b => ?_) fun b p x => ?_
  · by_cases hb : b = backend
    · subst hb
      simp [PrefixIndex.remove, nil_notMem_index]
    · simp [PrefixIndex.remove, hb, nil_notMem_index]
  · rw [ownersAt_applyRemoved]
    by_cases hb : b = backend
    · subst hb
      have hmem : p ++ [x] ∈ t.index.remove b hashes b ↔ p ++ [x] ∈ t.index b ∧ x ∉ hashes := by
        simp [PrefixIndex.remove]
      rw [hmem, mem_index]
      split
      · rename_i hx
        simp [hx]
      · rename_i hx
        simp [hx]
    · rw [PrefixIndex.remove, Function.update_of_ne hb, mem_index]
      split <;> simp [hb]

theorem index_clearBackend : (t.clearBackend backend).index = t.index.clear backend := by
  refine index_eq_of_owners (fun b => ?_) fun b p x => ?_
  · by_cases hb : b = backend
    · subst hb
      simp [PrefixIndex.clear]
    · simp [PrefixIndex.clear, hb, nil_notMem_index]
  · rw [ownersAt_clearBackend, Finset.mem_filter]
    by_cases hb : b = backend
    · subst hb
      simp [PrefixIndex.clear]
    · rw [PrefixIndex.clear, Function.update_of_ne hb, mem_index]
      simp [hb]

/-- The tree refines the index of held sequences. -/
theorem index_applyEvent (event : KvCacheEvent) :
    (t.applyEvent backend event).index = t.index.applyEvent backend event := by
  cases event with
  | stored _ blockHashes _ _ => exact index_applyStored
  | removed _ blockHashes => exact index_applyRemoved
  | clear _ => exact index_clearBackend
  | reset _ _ => exact index_clearBackend

theorem index_removeBackend : (t.removeBackend backend).index = t.index.clear backend :=
  index_clearBackend

/-- A query counts the leading blocks up to which the backend holds the sequence. -/
theorem le_findMatches_iff {n : Nat} :
    n ≤ t.findMatches hashes backend ↔
      n ≤ hashes.length ∧ ∀ j < n, hashes.take (j + 1) ∈ t.index backend := by
  rw [findMatches, Trie.le_walk_iff]
  refine and_congr_right fun hn => forall₂_congr fun j hj => ?_
  -- the index holds no empty sequences, so this one must not be empty
  have hne : hashes.take (j + 1) ≠ [] := by
    rw [Ne, List.take_eq_nil_iff]
    rintro (h | rfl)
    · omega
    · simp only [List.length_nil] at hn
      omega
  have hindex : hashes.take (j + 1) ∈ t.index backend ↔
      ∃ o ∈ t.ownersAt (hashes.take (j + 1)), o.1 = backend := and_iff_right hne
  rw [hindex, ownersAt, Trie.get]
  cases t.root.find? (hashes.take (j + 1)) with
  | none => simp
  | some d => simp [NodeData.isOwnedBy]

/-- The two queries agree as far as they can: what the batched query counts for a
backend is at least its own prefix. -/
theorem findMatches_le_findAllMatches :
    t.findMatches hashes backend ≤ t.findAllMatches hashes backend := by
  rw [findMatches, Trie.walk_eq_along, findAllMatches]
  induction t.root.along hashes with
  | nil => exact Nat.le_refl 0
  | cons d ds ih =>
    by_cases hd : d.isOwnedBy backend = true
    · obtain ⟨o, ho, hb⟩ := of_decide_eq_true hd
      have hne : d.hasOwner = true := decide_eq_true ⟨o, ho⟩
      have hpos : 0 < (d.owners.filter fun o => o.1 = backend).card :=
        Finset.card_pos.2 ⟨o, Finset.mem_filter.2 ⟨ho, hb⟩⟩
      rw [List.takeWhile_cons_of_pos hd, List.takeWhile_cons_of_pos hne, List.length_cons,
        List.map_cons, List.sum_cons]
      omega
    · rw [List.takeWhile_cons_of_neg hd]
      exact Nat.zero_le _

end TreeState

end HierKvGateway
