import HierKvGateway.Lib.Saturating
import HierKvGateway.Metadata.KvIndex

/-!
# Metadata.RadixShape — what every reachable tree looks like

Calls of `apply_event` and `remove_backend` in any order, from the empty tree. Removals prune
nodes from the leaves up, and a node that nobody owns may stay for the sake of the nodes below it.

* `TreeState.WellShaped`: the counters are right, children are stored under their own hashes,
  nobody owns the root, and every leaf has an owner;
* `TreeState.shape_and_ownership`: so it is in every reachable state, where moreover every call
  changes ownership as it should, and no more, and a counter of 32 bits suffices for a node with
  fewer than 2^32 - 1 owners.
-/

namespace HierKvGateway

/-- A call on the tree. -/
def KvOp.applyTree (t : TreeState) : KvOp → TreeState
  | .applyEvent event backend => t.applyEvent backend event
  | .removeBackend backend => t.removeBackend backend

namespace TreeState

/-- The tree after calls. -/
def run (ops : List KvOp) : TreeState := ops.foldl KvOp.applyTree .new

/-- A backend owns the node at the end of a path. -/
def Owns (t : TreeState) (b : BackendId) (p : List BlockHash) : Prop :=
  ∃ n, t.root.at? p = some n ∧ ∃ o ∈ n.data.owners, o.1 = b

/-- The structure of a tree. -/
structure WellShaped (t : TreeState) : Prop where
  counted : ∀ p n, t.root.at? p = some n → n.data.refCount = n.data.owners.card
  keyed : ∀ p n x c, t.root.at? p = some n → n.child x = some c → c.data.hash = x
  root : t.root.data.owners = ∅
  leaves : ∀ p x n, t.root.at? (p ++ [x]) = some n → n.children = [] → n.data.owners.Nonempty

end TreeState

/-- Whether a backend owns the node for block `x` after a path `p` once a call is done, given
whether it did before. -/
def KvOp.OwnsAfter (b : BackendId) (p : List BlockHash) (x : BlockHash) (before : Prop) :
    KvOp → Prop
  | .applyEvent (.stored _ hashes _ _) backend => before ∨ b = backend ∧ p ++ [x] <+: hashes
  | .applyEvent (.removed _ hashes) backend => before ∧ ¬(b = backend ∧ x ∈ hashes)
  | .applyEvent (.clear _) backend => before ∧ b ≠ backend
  | .applyEvent (.reset _ _) backend => before ∧ b ≠ backend
  | .removeBackend backend => before ∧ b ≠ backend

/-! ## The counter

`ref_count` has 32 bits and saturates. It is the number of owners, which the model counts without
a bound, as long as a node does not have 2^32 owners. -/

namespace NodeData

/-- The counter of a node as the source stores it. -/
def refCountU32 (d : NodeData) : BitVec 32 := BitVec.ofNat 32 d.refCount

/-- With the counter of the source a node is changed, and found to be unowned, as it is here. -/
structure FitsU32 (d : NodeData) : Prop where
  addOwner : ∀ owner, (d.addOwner owner).refCountU32 =
    if owner ∈ d.owners then d.refCountU32 else Saturating.succ d.refCountU32
  removeOwner : ∀ owner, (d.removeOwner owner).refCountU32 =
    if owner ∈ d.owners then Saturating.sub d.refCountU32 1 else d.refCountU32
  removeBackend : ∀ backend, (d.removeBackend backend).refCountU32 =
    Saturating.sub d.refCountU32
      (BitVec.ofNat 32 (d.owners.card - (d.removeBackend backend).owners.card))
  unowned : d.refCountU32 = 0 ↔ d.unowned = true

theorem fitsU32 {d : NodeData} (h : d.owners.card < 2 ^ 32 - 1) : d.FitsU32 := by
  have hcount := d.counted
  have hfits : d.refCount < 2 ^ 32 := by omega
  constructor
  case addOwner =>
    intro owner
    unfold NodeData.addOwner refCountU32
    split
    · rfl
    · exact Saturating.ofNat_succ (by omega)
  case removeOwner =>
    intro owner
    unfold NodeData.removeOwner refCountU32
    split
    · rename_i hmem
      have hpos := Finset.card_pos.2 ⟨owner, hmem⟩
      exact Saturating.ofNat_sub hfits (by omega)
    · rfl
  case removeBackend =>
    intro backend
    refine Saturating.ofNat_sub hfits ?_
    rw [hcount]
    exact Nat.sub_le _ _
  case unowned =>
    unfold refCountU32 NodeData.unowned
    rw [Saturating.ofNat_eq_zero_iff hfits, beq_iff_eq]

/-! ## The structure -/

theorem unowned_addOwner (owner : Owner) (d : NodeData) : (d.addOwner owner).unowned = false := by
  rw [Bool.eq_false_iff]
  intro h
  have hempty := owners_of_unowned h
  rw [addOwner_owners] at hempty
  exact Finset.insert_ne_empty owner d.owners hempty

end NodeData

namespace TreeState

section Structure

variable {t : TreeState}

/-- What the structure needs of a tree beyond what every tree has: nobody owns the root, and
removals have pruned all they should. -/
structure Pruned (t : TreeState) : Prop where
  root : t.root.data.owners = ∅
  tidy : t.root.Tidy NodeData.unowned

theorem pruned_new : Pruned new := ⟨rfl, .leaf⟩

theorem Pruned.clearBackend (h : Pruned t) (backend : BackendId) :
    Pruned (t.clearBackend backend) := by
  constructor
  · show (t.root.sweep (NodeData.removeBackend backend) NodeData.unowned).data.owners = ∅
    rw [Trie.data_sweep]
    show t.root.data.owners.filter _ = ∅
    rw [h.root, Finset.filter_empty]
  · exact Trie.Tidy.sweep t.wf

/-- One call keeps it; only storing relies on how it was before. -/
theorem Pruned.step (h : Pruned t) (op : KvOp) : Pruned (op.applyTree t) := by
  cases op with
  | applyEvent event backend =>
    cases event with
    | stored worker hashes parent tokens =>
      -- the path starts below the root, and its last node gets an owner
      constructor
      · show (t.root.grow NodeData.new (NodeData.addOwner (backend, 0)) hashes).data.owners = ∅
        rw [Trie.data_grow]
        exact h.root
      · exact h.tidy.grow (NodeData.unowned_addOwner (backend, 0)) hashes
    | removed worker hashes =>
      constructor
      · exact h.root
      · exact Trie.Tidy.sweepBelow t.wf
    | clear worker => exact h.clearBackend backend
    | reset worker generation => exact h.clearBackend backend
  | removeBackend backend => exact h.clearBackend backend

theorem Pruned.wellShaped (h : Pruned t) : WellShaped t := by
  constructor
  case counted =>
    intro p n _
    exact n.data.counted
  case keyed =>
    intro p n x c hn hc
    have hfind : t.root.find? (p ++ [x]) = some c.data := by
      rw [Trie.find?_eq_at?, Trie.at?_snoc, hn, Option.bind_some, hc]
      rfl
    exact (t.nodes p x c.data hfind).hash
  case root => exact h.root
  case leaves =>
    intro p x n hn hleaf
    have halive := h.tidy.at? hn hleaf
    by_contra hempty
    rw [Finset.not_nonempty_iff_eq_empty] at hempty
    have hzero : n.data.refCount = 0 := by
      rw [n.data.counted, hempty, Finset.card_empty]
    unfold NodeData.unowned at halive
    rw [hzero] at halive
    exact absurd halive (by decide)

end Structure

/-! ## Ownership -/

section Ownership

variable {t : TreeState} {b : BackendId} {p : List BlockHash} {x : BlockHash}

/-- The owners of nodes, seen through the index of held sequences. -/
theorem owns_iff : t.Owns b (p ++ [x]) ↔ p ++ [x] ∈ t.index b := by
  have hne : p ++ [x] ≠ [] := List.append_ne_nil_of_right_ne_nil p (List.cons_ne_nil x [])
  have hindex : p ++ [x] ∈ t.index b ↔ ∃ o ∈ t.ownersAt (p ++ [x]), o.1 = b := and_iff_right hne
  rw [hindex]
  unfold Owns ownersAt Trie.get
  rw [Trie.find?_eq_at?]
  cases t.root.at? (p ++ [x]) with
  | none => simp
  | some n => simp

theorem owns_applyTree (op : KvOp) :
    (op.applyTree t).Owns b (p ++ [x]) ↔ op.OwnsAfter b p x (t.Owns b (p ++ [x])) := by
  rw [owns_iff, owns_iff]
  have hclear (backend : BackendId) :
      p ++ [x] ∈ (t.index.clear backend) b ↔ p ++ [x] ∈ t.index b ∧ b ≠ backend := by
    unfold PrefixIndex.clear
    by_cases hb : b = backend
    · subst hb
      simp
    · simp [hb]
  cases op with
  | applyEvent event backend =>
    unfold KvOp.applyTree
    rw [index_applyEvent]
    cases event with
    | stored worker hashes parent tokens =>
      unfold PrefixIndex.applyEvent PrefixIndex.store KvOp.OwnsAfter
      by_cases hb : b = backend
      · subst hb
        simp
      · simp [hb]
    | removed worker hashes =>
      unfold PrefixIndex.applyEvent PrefixIndex.remove KvOp.OwnsAfter
      by_cases hb : b = backend
      · subst hb
        simp
      · simp [hb]
    | clear worker => exact hclear backend
    | reset worker generation => exact hclear backend
  | removeBackend backend =>
    unfold KvOp.applyTree
    rw [index_removeBackend]
    exact hclear backend

end Ownership

/-- After any calls, and for any further call. -/
theorem shape_and_ownership (ops : List KvOp) :
    WellShaped (run ops) ∧
      (∀ (op : KvOp) (b : BackendId) (p : List BlockHash) (x : BlockHash),
        (op.applyTree (run ops)).Owns b (p ++ [x]) ↔
          op.OwnsAfter b p x ((run ops).Owns b (p ++ [x]))) ∧
      ∀ p n, (run ops).root.at? p = some n → n.data.owners.card < 2 ^ 32 - 1 →
        n.data.FitsU32 := by
  refine ⟨?_, ?_, fun p n _ hcard => NodeData.fitsU32 hcard⟩
  · have hpruned : Pruned (run ops) :=
      Run.foldl_preserves (P := Pruned) (fun t op h => h.step op) pruned_new ops
    exact hpruned.wellShaped
  · intro op b p x
    exact owns_applyTree op

end TreeState

end HierKvGateway
