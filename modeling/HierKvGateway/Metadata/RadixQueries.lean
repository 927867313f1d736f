import HierKvGateway.Lib.LeadingRun
import HierKvGateway.Metadata.RadixShape

/-!
# Metadata.RadixQueries — the two queries of the tree, and blocks reported in parts

`find_matches` follows the path of one backend and stops at the first node it does not own.
`find_all_matches` counts all backends in one walk and stops at the first node nobody owns. So it
also counts what a backend owns behind a node it does not own.

* `TreeState.queries_agree`: the two agree where this does not happen, and nowhere else;
* `TreeState.parts_iff`: blocks reported in several events that name their parent are not found
  behind it, since a path is always taken from the root.
-/

namespace HierKvGateway

namespace TreeState

section Paths

variable {t : TreeState} {b : BackendId} {p : List BlockHash}

theorem owns_iff_find? :
    t.Owns b p ↔ ∃ d, t.root.find? p = some d ∧ d.isOwnedBy b = true := by
  unfold Owns NodeData.isOwnedBy
  rw [Trie.find?_eq_at?]
  cases t.root.at? p with
  | none => simp
  | some n => simp

theorem exists_owns_iff :
    (∃ b', t.Owns b' p) ↔ ∃ d, t.root.find? p = some d ∧ d.hasOwner = true := by
  unfold NodeData.hasOwner
  constructor
  · rintro ⟨b', hb'⟩
    rcases owns_iff_find?.1 hb' with ⟨d, hd, howned⟩
    rcases of_decide_eq_true howned with ⟨o, ho, -⟩
    exact ⟨d, hd, decide_eq_true ⟨o, ho⟩⟩
  · rintro ⟨d, hd, howner⟩
    rcases of_decide_eq_true howner with ⟨o, ho⟩
    exact ⟨o.1, owns_iff_find?.2 ⟨d, hd, decide_eq_true ⟨o, ho, rfl⟩⟩⟩

end Paths

/-! ## Two walks -/

/-- If every node of the path before one that the backend owns has an owner, the backend owns
them all. -/
def Gapless (t : TreeState) (hashes : List BlockHash) (b : BackendId) : Prop :=
  ∀ p x q, hashes = p ++ x :: q → (∀ r, r ≠ [] → r <+: p → ∃ b', t.Owns b' r) →
    t.Owns b (p ++ [x]) → ∀ r, r ≠ [] → r <+: p → t.Owns b r

section Walks

variable {t : TreeState} {b : BackendId} {hashes : List BlockHash}

/-- The owners of a node have rank 0, so a backend counts once. -/
theorem card_owners {d : NodeData} (hd : ∀ o ∈ d.owners, o.2 = 0) :
    (d.owners.filter fun o => o.1 = b).card = if d.isOwnedBy b = true then 1 else 0 := by
  unfold NodeData.isOwnedBy
  split
  · rename_i howned
    rcases of_decide_eq_true howned with ⟨o, ho, hb⟩
    rw [Finset.card_eq_one]
    refine ⟨o, ?_⟩
    ext o'
    rw [Finset.mem_filter, Finset.mem_singleton]
    constructor
    · rintro ⟨ho', hb'⟩
      apply Prod.ext
      · rw [hb', hb]
      · rw [hd o' ho', hd o ho]
    · rintro rfl
      exact ⟨ho, hb⟩
  · rename_i howned
    rw [Finset.card_eq_zero, Finset.filter_eq_empty_iff]
    intro o ho hb
    exact howned (decide_eq_true ⟨o, ho, hb⟩)

theorem findAllMatches_eq_tally :
    t.findAllMatches hashes b =
      LeadingRun.tally (NodeData.isOwnedBy b) NodeData.hasOwner (t.root.along hashes) := by
  have hrank : ∀ d ∈ t.root.along hashes, ∀ o ∈ d.owners, o.2 = 0 := by
    intro d hd o ho
    rcases Trie.mem_along.1 hd with ⟨p, hne, -, hfind⟩
    rcases List.eq_nil_or_concat p with rfl | ⟨p, x, rfl⟩
    · exact absurd rfl hne
    · rw [List.concat_eq_append] at hfind
      exact (t.nodes p x d hfind).rank o ho
  unfold findAllMatches LeadingRun.tally
  dsimp only
  have hscan : ∀ d ∈ (t.root.along hashes).takeWhile NodeData.hasOwner,
      ∀ o ∈ d.owners, o.2 = 0 :=
    fun d hd => hrank d (List.takeWhile_subset _ hd)
  generalize (t.root.along hashes).takeWhile NodeData.hasOwner = scan at hscan
  induction scan with
  | nil => rfl
  | cons d ds ih =>
    have hd := card_owners (b := b) (hscan d List.mem_cons_self)
    have hds := ih fun e he => hscan e (List.mem_cons_of_mem d he)
    rw [List.map_cons, List.sum_cons, List.countP_cons, hd, hds, Nat.add_comm]

theorem findMatches_eq_lead :
    t.findMatches hashes b = LeadingRun.lead (NodeData.isOwnedBy b) (t.root.along hashes) :=
  Trie.walk_eq_along t.root hashes

/-- The gaps of a path are those of the nodes along it. -/
theorem gapless_along :
    LeadingRun.Gapless (NodeData.isOwnedBy b) NodeData.hasOwner (t.root.along hashes) ↔
      t.Gapless hashes b := by
  constructor
  · rintro h p x q rfl howner hown r hne hr
    rcases owns_iff_find?.1 hown with ⟨d, hd, howned⟩
    rcases Trie.along_of_find? hd q with ⟨after, heq⟩
    rcases exists_owns_iff.1 (howner r hne hr) with ⟨e, he, -⟩
    refine owns_iff_find?.2 ⟨e, he, ?_⟩
    apply h (t.root.along p) d after heq _ howned e (Trie.mem_along.2 ⟨r, hne, hr, he⟩)
    intro y hy
    rcases Trie.mem_along.1 hy with ⟨s, hsne, hs, hfind⟩
    rcases exists_owns_iff.1 (howner s hsne hs) with ⟨y', hy', howner'⟩
    rw [hfind] at hy'
    rw [Option.some.inj hy']
    exact howner'
  · intro h before d after heq hbefore howned e he
    rcases Trie.along_split heq with ⟨p, x, q, hhashes, rfl, hd⟩
    have howner : ∀ r, r ≠ [] → r <+: p → ∃ b', t.Owns b' r := by
      intro r hne hr
      have hexists : ∃ e, t.root.find? r = some e := by
        rcases hr with ⟨s, rfl⟩
        rw [List.append_assoc] at hd
        exact Trie.find?_of_append hd
      rcases hexists with ⟨e, he⟩
      exact exists_owns_iff.2 ⟨e, he, hbefore e (Trie.mem_along.2 ⟨r, hne, hr, he⟩)⟩
    rcases Trie.mem_along.1 he with ⟨r, hne, hr, hfind⟩
    have hown := h p x q hhashes howner (owns_iff_find?.2 ⟨d, hd, howned⟩) r hne hr
    rcases owns_iff_find?.1 hown with ⟨e', he', howned'⟩
    rw [hfind] at he'
    rw [Option.some.inj he']
    exact howned'

theorem agree_iff_gapless :
    t.findAllMatches hashes b = t.findMatches hashes b ↔ t.Gapless hashes b := by
  rw [findAllMatches_eq_tally, findMatches_eq_lead, ← gapless_along]
  apply LeadingRun.tally_eq_lead_iff
  intro d hd
  rcases of_decide_eq_true hd with ⟨o, ho, -⟩
  exact decide_eq_true ⟨o, ho⟩

end Walks

/-! ## Runs without gaps -/

/-- Whoever owns a node owns all nodes before it. -/
def Closed (t : TreeState) : Prop :=
  ∀ b p q, t.Owns b p → q ≠ [] → q <+: p → t.Owns b q

end TreeState

/-- Blocks are removed together with all that the backend owns behind them. -/
def KvOp.RemovesBehind (t : TreeState) : KvOp → Prop
  | .applyEvent (.removed _ hashes) backend =>
    ∀ p x q y, x ∈ hashes → t.Owns backend (p ++ x :: q ++ [y]) → y ∈ hashes
  | _ => True

namespace TreeState

variable {t : TreeState}

theorem Closed.gapless (h : t.Closed) (hashes : List BlockHash) (b : BackendId) :
    t.Gapless hashes b := by
  intro p x q _ _ hown r hne hr
  exact h b (p ++ [x]) r hown hne (hr.trans (List.prefix_append p [x]))

theorem closed_new : new.Closed := by
  intro b p q hown hne hq
  rcases List.eq_nil_or_concat p with rfl | ⟨p, x, rfl⟩
  · exact absurd (List.prefix_nil.1 hq) hne
  · rw [List.concat_eq_append, owns_iff, index_new] at hown
    exact absurd hown (Set.notMem_empty _)

theorem Closed.step (h : t.Closed) {op : KvOp} (hop : op.RemovesBehind t) :
    (op.applyTree t).Closed := by
  intro b p q hown hne hq
  rcases List.eq_nil_or_concat q with rfl | ⟨q, x, rfl⟩
  · exact absurd rfl hne
  rcases List.eq_nil_or_concat p with rfl | ⟨p, y, rfl⟩
  · exact absurd (List.prefix_nil.1 hq) hne
  rw [List.concat_eq_append] at hown hq hne ⊢
  rw [List.concat_eq_append] at hq
  rw [owns_applyTree] at hown ⊢
  cases op with
  | applyEvent event backend =>
    cases event with
    | stored worker hashes parent tokens =>
      rcases hown with hold | ⟨hb, hpath⟩
      · exact Or.inl (h b _ _ hold hne hq)
      · exact Or.inr ⟨hb, hq.trans hpath⟩
    | removed worker hashes =>
      rcases hown with ⟨hold, hkept⟩
      refine ⟨h b _ _ hold hne hq, ?_⟩
      rintro ⟨rfl, hx⟩
      apply hkept
      refine ⟨rfl, ?_⟩
      -- the removed block is the last one, or the last one is behind it
      rcases hq with ⟨rest, hrest⟩
      rcases List.eq_nil_or_concat rest with rfl | ⟨rest, z, rfl⟩
      · rw [List.append_nil] at hrest
        rwa [← (List.append_inj' hrest rfl).2 |> List.singleton_inj.1]
      · rw [List.concat_eq_append, ← List.append_assoc] at hrest
        have hz : z = y := List.singleton_inj.1 (List.append_inj' hrest rfl).2
        rw [← hrest, hz] at hold
        apply hop q x rest y hx
        rw [← List.append_cons] at hold
        exact hold
    | clear worker => exact ⟨h b _ _ hown.1 hne hq, hown.2⟩
    | reset worker generation => exact ⟨h b _ _ hown.1 hne hq, hown.2⟩
  | removeBackend backend => exact ⟨h b _ _ hown.1 hne hq, hown.2⟩

/-- In every reachable state, the two queries agree for a sequence of blocks and a backend exactly
if there is no gap. In a run in which blocks are removed with all that is behind them, they always
agree. -/
theorem queries_agree (ops : List KvOp) :
    (∀ hashes b, (run ops).findAllMatches hashes b = (run ops).findMatches hashes b ↔
      (run ops).Gapless hashes b) ∧
    (Run.Each KvOp.applyTree (fun t op => op.RemovesBehind t) new ops →
      Run.All KvOp.applyTree (fun t => ∀ hashes b,
        t.findAllMatches hashes b = t.findMatches hashes b) new ops) := by
  constructor
  · intro hashes b
    exact agree_iff_gapless
  · intro hops
    have hclosed : Run.All KvOp.applyTree Closed new ops :=
      Run.all_of_each (P := Closed) (C := fun t op => op.RemovesBehind t)
        (fun t op h hop => h.step hop) closed_new hops
    apply hclosed.mono
    intro t h hashes b
    exact agree_iff_gapless.2 (h.gapless hashes b)

/-- Two backends store blocks 1 and 2, and one of them gives up block 1. It still counts as having
a block of the sequence, but its prefix is empty. -/
theorem queries_differ :
    ¬∀ (ops : List KvOp) (hashes : List BlockHash) (b : BackendId),
      (run ops).findAllMatches hashes b = (run ops).findMatches hashes b := by
  intro h
  let a : BackendId := ⟨⟨"eu"⟩, ⟨"a"⟩⟩
  let b : BackendId := ⟨⟨"eu"⟩, ⟨"b"⟩⟩
  have hbad := h [.applyEvent (.stored ⟨0, 0⟩ [1, 2] none [16, 16]) a,
    .applyEvent (.stored ⟨0, 0⟩ [1, 2] none [16, 16]) b,
    .applyEvent (.removed ⟨0, 0⟩ [1]) b] [1, 2] b
  exact absurd hbad (by decide +kernel)

/-! ## Blocks reported in parts -/

/-- Events for consecutive parts of a sequence, each naming the last block before it as parent. -/
def chain (worker : WorkerWithRank) (tokens : List BlockHash → List (BitVec 64)) :
    Option BlockHash → List (List BlockHash) → List KvCacheEvent
  | _, [] => []
  | parent, part :: parts =>
    .stored worker part parent (tokens part) :: chain worker tokens part.getLast? parts

/-- The tree after events of one backend. -/
def applyEvents (backend : BackendId) (events : List KvCacheEvent) (t : TreeState) : TreeState :=
  events.foldl (fun t event => t.applyEvent backend event) t

/-- No query tells two trees apart. -/
def SameAnswers (t t' : TreeState) : Prop :=
  ∀ hashes b, t.findMatches hashes b = t'.findMatches hashes b ∧
    t.findAllMatches hashes b = t'.findAllMatches hashes b

section Parts

variable {t : TreeState} {worker : WorkerWithRank} {tokens : List BlockHash → List (BitVec 64)}
  {backend : BackendId}

/-- Every part is a path from the root, whatever its parent. -/
theorem owns_chain {b : BackendId} {p : List BlockHash} {x : BlockHash}
    (parent : Option BlockHash) (parts : List (List BlockHash)) :
    (t.applyEvents backend (chain worker tokens parent parts)).Owns b (p ++ [x]) ↔
      t.Owns b (p ++ [x]) ∨ b = backend ∧ ∃ part ∈ parts, p ++ [x] <+: part := by
  induction parts generalizing t parent with
  | nil =>
    show t.Owns b (p ++ [x]) ↔ _
    simp
  | cons part parts ih =>
    have hstep : (t.applyEvents backend (chain worker tokens parent (part :: parts))).Owns b
        (p ++ [x]) ↔ _ := ih part.getLast?
    have hpart : (t.applyEvent backend (.stored worker part parent (tokens part))).Owns b
        (p ++ [x]) ↔ t.Owns b (p ++ [x]) ∨ b = backend ∧ p ++ [x] <+: part :=
      owns_applyTree (.applyEvent (.stored worker part parent (tokens part)) backend)
    rw [hstep, hpart, List.exists_mem_cons_iff]
    tauto

/-- A query finds the block behind a path only if the node is owned. -/
theorem owns_of_findMatches {b : BackendId} {p : List BlockHash} {x : BlockHash}
    {q : List BlockHash} (h : p.length < t.findMatches (p ++ x :: q) b) : t.Owns b (p ++ [x]) := by
  have howned := (le_findMatches_iff.1 h).2 p.length (Nat.lt_succ_self _)
  rw [List.take_length_add_append, List.take_succ_cons, List.take_zero] at howned
  exact owns_iff.2 howned

theorem findMatches_stored (hashes : List BlockHash) (parent : Option BlockHash)
    (counts : List (BitVec 64)) :
    (t.applyEvent backend (.stored worker hashes parent counts)).findMatches hashes backend =
      hashes.length := by
  apply Nat.le_antisymm
  · exact (le_findMatches_iff.1 (Nat.le_refl _)).1
  · rw [le_findMatches_iff]
    refine ⟨Nat.le_refl _, ?_⟩
    intro j hj
    have hheld : (t.applyEvent backend (.stored worker hashes parent counts)).index backend =
        t.index backend ∪ {p | p ≠ [] ∧ p <+: hashes} := by
      rw [index_applyEvent]
      exact Function.update_self ..
    rw [hheld]
    refine Or.inr ⟨?_, List.take_prefix (j + 1) hashes⟩
    intro hnil
    have hlen := congrArg List.length hnil
    rw [List.length_take, List.length_nil] at hlen
    omega

/-- In two parts or more, the whole sequence is not found: nobody owns the path that continues the
first part. -/
theorem not_sameAnswers_parts {first second : List BlockHash} {rest : List (List BlockHash)}
    (hfirst : first ≠ []) (hsecond : second ≠ [])
    (hdistinct : (first :: second :: rest).flatten.Nodup)
    (hnew : ∀ p x, x ∈ (first :: second :: rest).flatten → t.root.at? (p ++ [x]) = none) :
    ¬SameAnswers (t.applyEvents backend (chain worker tokens none (first :: second :: rest)))
      (t.applyEvent backend (.stored worker (first :: second :: rest).flatten none
        (tokens (first :: second :: rest).flatten))) := by
  intro h
  rcases List.exists_cons_of_ne_nil hfirst with ⟨y, ys, hys⟩
  rcases List.exists_cons_of_ne_nil hsecond with ⟨x, xs, rfl⟩
  have hflat : (first :: (x :: xs) :: rest).flatten = first ++ x :: (xs ++ rest.flatten) := rfl
  rw [hflat] at h hdistinct hnew
  -- the whole sequence is found after one event
  have hfound := (h (first ++ x :: (xs ++ rest.flatten)) backend).1
  rw [findMatches_stored, List.length_append, List.length_cons] at hfound
  have hown := owns_of_findMatches (t := t.applyEvents backend
    (chain worker tokens none (first :: (x :: xs) :: rest))) (b := backend) (p := first)
    (x := x) (q := xs ++ rest.flatten) (by omega)
  rw [owns_chain] at hown
  rcases hown with ⟨n, hn, -⟩ | ⟨-, part, hpart, hbefore⟩
  · rw [hnew first x (List.mem_append_right first List.mem_cons_self)] at hn
    exact absurd hn (Option.some_ne_none n).symm
  · rcases List.mem_cons.1 hpart with rfl | hlater
    · have hlength := hbefore.length_le
      rw [List.length_append, List.length_singleton] at hlength
      omega
    · -- a later part does not have the first block
      have hy : y ∈ first := by
        rw [hys]
        exact List.mem_cons_self
      have hmem : y ∈ ((x :: xs) :: rest).flatten :=
        List.mem_flatten.2 ⟨part, hlater, hbefore.subset (List.mem_append_left [x] hy)⟩
      exact (List.nodup_append.1 hdistinct).2.2 y hy y hmem rfl

/-- New blocks, reported in parts, become paths of their own from the root. Queries cannot tell
this from one event with all blocks exactly if there is at most one part. -/
theorem parts_iff (t : TreeState) (worker : WorkerWithRank)
    (tokens : List BlockHash → List (BitVec 64)) (backend : BackendId)
    (parts : List (List BlockHash)) (hne : ∀ part ∈ parts, part ≠ [])
    (hdistinct : parts.flatten.Nodup)
    (hnew : ∀ p x, x ∈ parts.flatten → t.root.at? (p ++ [x]) = none) :
    (∀ b p x, (t.applyEvents backend (chain worker tokens none parts)).Owns b (p ++ [x]) ↔
      t.Owns b (p ++ [x]) ∨ b = backend ∧ ∃ part ∈ parts, p ++ [x] <+: part) ∧
    (SameAnswers (t.applyEvents backend (chain worker tokens none parts))
        (t.applyEvent backend (.stored worker parts.flatten none (tokens parts.flatten))) ↔
      parts.length ≤ 1) := by
  refine ⟨fun b p x => owns_chain none parts, ?_⟩
  constructor
  · intro h
    rcases parts with _ | ⟨first, _ | ⟨second, rest⟩⟩
    case nil => exact Nat.zero_le 1
    case cons.nil => exact Nat.le_refl 1
    case cons.cons =>
      have hfirst := hne first List.mem_cons_self
      have hsecond := hne second (List.mem_cons_of_mem first List.mem_cons_self)
      exact absurd h (not_sameAnswers_parts hfirst hsecond hdistinct hnew)
  · intro hlen
    rcases parts with _ | ⟨part, _ | ⟨second, rest⟩⟩
    case nil => exact fun hashes b => ⟨rfl, rfl⟩
    case cons.nil =>
      rw [List.flatten_cons, List.flatten_nil, List.append_nil]
      exact fun hashes b => ⟨rfl, rfl⟩
    case cons.cons =>
      rw [List.length_cons, List.length_cons] at hlen
      omega

/-- Two parts of one block each in an empty tree. -/
theorem parts_iff_two_blocks :
    ¬SameAnswers
      (new.applyEvents ⟨⟨"eu"⟩, ⟨"a"⟩⟩ (chain ⟨0, 0⟩ (fun _ => [16]) none [[1], [2]]))
      (new.applyEvent ⟨⟨"eu"⟩, ⟨"a"⟩⟩ (.stored ⟨0, 0⟩ [1, 2] none [16])) := by
  intro h
  have hlen := (parts_iff new ⟨0, 0⟩ (fun _ => [16]) ⟨⟨"eu"⟩, ⟨"a"⟩⟩ [[1], [2]] (by decide)
    (by decide) (fun p x _ => Trie.at?_leaf _ p x)).2.1 h
  exact absurd hlen (by decide)

/-- In two parts of one block each, the second block is not found behind the first. -/
theorem parts_not_transparent :
    ¬∀ (t : TreeState) (worker : WorkerWithRank) (tokens : List BlockHash → List (BitVec 64))
      (backend : BackendId) (parts : List (List BlockHash)),
      (∀ part ∈ parts, part ≠ []) → parts.flatten.Nodup →
      (∀ p x, x ∈ parts.flatten → t.root.at? (p ++ [x]) = none) →
      SameAnswers (t.applyEvents backend (chain worker tokens none parts))
        (t.applyEvent backend (.stored worker parts.flatten none (tokens parts.flatten))) := by
  intro h
  let a : BackendId := ⟨⟨"eu"⟩, ⟨"a"⟩⟩
  have hsame := h new ⟨0, 0⟩ (fun _ => [16]) a [[1], [2]] (by decide) (by decide)
    (fun p x _ => Trie.at?_leaf _ p x)
  exact absurd (hsame [1, 2] a).1 (by decide +kernel)

end Parts

end TreeState

end HierKvGateway
