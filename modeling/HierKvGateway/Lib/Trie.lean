import Mathlib.Data.List.Sigma

/-!
# Lib.Trie — prefix trees with data at every node

A trie maps key sequences to nodes: the children of a node are an association
list from keys to tries. There are three operations:

* `grow` walks along a key sequence, creates the missing nodes and edits every
  node it enters;
* `sweep` edits every node of a tree and drops, bottom-up, the dead nodes that
  have no children left;
* `walk` counts the leading keys of a sequence whose nodes exist and pass a test.

Each of them is described by what it does to `find?`, the data found at the end
of a key sequence, so that their users never look at the tree itself. A swept
tree may have lost nodes; `get` reads a default there, which is what a dead node
would have shown. What is lost are the dead nodes at the ends of the tree: none is
left by a sweep, and none is made by growing (`Tidy`).
-/

/-- A node with its data, and its children under their keys. -/
inductive Trie (κ δ : Type) where
  | node (data : δ) (children : List (Σ _ : κ, Trie κ δ))

namespace Trie

variable {κ δ γ : Type}

/-- The data of the root node. -/
def data : Trie κ δ → δ
  | node d _ => d

/-- The children of the root node. -/
def children : Trie κ δ → List (Σ _ : κ, Trie κ δ)
  | node _ cs => cs

@[simp] theorem data_node (d : δ) (cs : List (Σ _ : κ, Trie κ δ)) : (node d cs).data = d := rfl

@[simp] theorem children_node (d : δ) (cs : List (Σ _ : κ, Trie κ δ)) :
    (node d cs).children = cs := rfl

/-- No two children of a node have the same key, at every node. -/
inductive WF : Trie κ δ → Prop
  | node {d : δ} {cs : List (Σ _ : κ, Trie κ δ)} (keys : cs.NodupKeys)
      (child : ∀ k t, ⟨k, t⟩ ∈ cs → WF t) : WF (node d cs)

/-- A single node. -/
def leaf (d : δ) : Trie κ δ := node d []

theorem WF.leaf {d : δ} : (leaf d : Trie κ δ).WF := .node List.nodupKeys_nil (by simp)

section Lookup

variable [DecidableEq κ]

/-- The child under a key. -/
def child (t : Trie κ δ) (k : κ) : Option (Trie κ δ) := t.children.dlookup k

/-- The data at the end of a key sequence. -/
def find? : Trie κ δ → List κ → Option δ
  | t, [] => some t.data
  | t, k :: p => (t.child k).bind fun c => c.find? p

/-- A view of the data at the end of a key sequence, or a default where there is
no node. -/
def get (view : δ → γ) (default : γ) (t : Trie κ δ) (p : List κ) : γ :=
  ((t.find? p).map view).getD default

@[simp] theorem find?_nil (t : Trie κ δ) : t.find? [] = some t.data := rfl

theorem find?_cons (t : Trie κ δ) (k : κ) (p : List κ) :
    t.find? (k :: p) = (t.child k).bind fun c => c.find? p := rfl

theorem WF.child {t c : Trie κ δ} {k : κ} (h : t.WF) (hc : t.child k = some c) : c.WF := by
  cases h with
  | node _ hwf => exact hwf k c (List.of_mem_dlookup hc)

end Lookup

/-! ## Walking a key sequence -/

section Walk

variable [DecidableEq κ]

/-- The number of leading keys whose nodes exist and pass the test. -/
def walk (p : δ → Bool) : Trie κ δ → List κ → Nat
  | _, [] => 0
  | t, k :: ks =>
    match t.child k with
    | none => 0
    | some c => if p c.data then c.walk p ks + 1 else 0

/-- The data of the nodes entered on the way along a key sequence. -/
def along : Trie κ δ → List κ → List δ
  | _, [] => []
  | t, k :: ks =>
    match t.child k with
    | none => []
    | some c => c.data :: c.along ks

theorem walk_eq_along {p : δ → Bool} (t : Trie κ δ) (ks : List κ) :
    t.walk p ks = ((t.along ks).takeWhile p).length := by
  induction ks generalizing t with
  | nil => rfl
  | cons k ks ih =>
    rw [walk, along]
    cases t.child k with
    | none => rfl
    | some c =>
      dsimp only
      split
      · rename_i hp
        rw [List.takeWhile_cons_of_pos hp, List.length_cons, ih]
      · rename_i hp
        rw [List.takeWhile_cons_of_neg hp, List.length_nil]

/-- The walk gets `n` keys far when every node it enters exists and passes. -/
theorem le_walk_iff {p : δ → Bool} {t : Trie κ δ} {ks : List κ} {n : Nat} :
    n ≤ t.walk p ks ↔
      n ≤ ks.length ∧ ∀ j, j < n → ∃ d, t.find? (ks.take (j + 1)) = some d ∧ p d = true := by
  induction ks generalizing t n with
  | nil => simp +contextual [walk]
  | cons k ks ih =>
    rcases n with _ | n
    · simp
    · rw [walk]
      cases hc : t.child k with
      | none =>
        -- the walk ends here, and the first node it would need is missing
        refine iff_of_false (by simp) fun h => ?_
        obtain ⟨d, hd, _⟩ := h.2 0 (by omega)
        rw [List.take_succ_cons, find?_cons, hc] at hd
        simp at hd
      | some c =>
        -- below `t` the keys are looked up in the child
        have hstep : ∀ j, t.find? ((k :: ks).take (j + 1)) = c.find? (ks.take j) := by
          intro j
          rw [List.take_succ_cons, find?_cons, hc, Option.bind_some]
        simp only [hstep, List.length_cons, Nat.add_le_add_iff_right]
        by_cases hp : p c.data = true
        · rw [if_pos hp, Nat.add_le_add_iff_right, ih]
          refine and_congr_right fun _ => ?_
          constructor
          · intro h j hj
            rcases j with _ | j
            · exact ⟨c.data, by rw [List.take_zero, find?_nil], hp⟩
            · exact h j (by omega)
          · intro h j hj
            exact h (j + 1) (by omega)
        · rw [if_neg hp]
          refine iff_of_false (by omega) fun h => ?_
          obtain ⟨d, hd, hpd⟩ := h.2 0 (by omega)
          rw [List.take_zero, find?_nil, Option.some_inj] at hd
          exact hp (hd ▸ hpd)

/-- A node entered on the way is the end of a shorter way. -/
theorem along_split {t : Trie κ δ} {ks : List κ} {before after : List δ} {d : δ}
    (h : t.along ks = before ++ d :: after) :
    ∃ p x q, ks = p ++ x :: q ∧ t.along p = before ∧ t.find? (p ++ [x]) = some d := by
  induction ks generalizing t before with
  | nil =>
    exact absurd h.symm (List.append_ne_nil_of_right_ne_nil before (List.cons_ne_nil d after))
  | cons k ks ih =>
    rw [along] at h
    cases hc : t.child k with
    | none =>
      rw [hc] at h
      exact absurd h.symm (List.append_ne_nil_of_right_ne_nil before (List.cons_ne_nil d after))
    | some c =>
      rw [hc] at h
      rcases List.cons_eq_append_iff.1 h with ⟨rfl, heq⟩ | ⟨before', rfl, heq⟩
      · -- the first node
        refine ⟨[], k, ks, rfl, rfl, ?_⟩
        rw [List.nil_append, find?_cons, hc, Option.bind_some, find?_nil, (List.cons.inj heq).1]
      · rcases ih heq with ⟨p, x, q, rfl, hp, hd⟩
        refine ⟨k :: p, x, q, rfl, ?_, ?_⟩
        · rw [along, hc, ← hp]
        · rw [List.cons_append, find?_cons, hc, Option.bind_some, hd]

theorem along_of_find? {t : Trie κ δ} {p : List κ} {x : κ} {d : δ}
    (h : t.find? (p ++ [x]) = some d) (q : List κ) :
    ∃ after, t.along (p ++ x :: q) = t.along p ++ d :: after := by
  induction p generalizing t with
  | nil =>
    rw [List.nil_append, find?_cons] at h
    rcases Option.bind_eq_some_iff.1 h with ⟨c, hc, hd⟩
    refine ⟨c.along q, ?_⟩
    show t.along (x :: q) = d :: c.along q
    rw [along, hc, ← Option.some.inj hd]
  | cons k p ih =>
    rw [List.cons_append, find?_cons] at h
    rcases Option.bind_eq_some_iff.1 h with ⟨c, hc, hd⟩
    rcases ih hd with ⟨after, heq⟩
    refine ⟨after, ?_⟩
    rw [List.cons_append, along, along, hc]
    exact congrArg (c.data :: ·) heq

theorem mem_along {t : Trie κ δ} {ks : List κ} {d : δ} :
    d ∈ t.along ks ↔ ∃ p, p ≠ [] ∧ p <+: ks ∧ t.find? p = some d := by
  constructor
  · intro h
    rcases List.append_of_mem h with ⟨before, after, heq⟩
    rcases along_split heq with ⟨p, x, q, rfl, -, hd⟩
    refine ⟨p ++ [x], List.append_ne_nil_of_right_ne_nil p (List.cons_ne_nil x []), ⟨q, ?_⟩, hd⟩
    rw [List.append_assoc, List.singleton_append]
  · rintro ⟨p, hne, ⟨q, rfl⟩, hd⟩
    rcases List.eq_nil_or_concat p with rfl | ⟨p, x, rfl⟩
    · exact absurd rfl hne
    · rw [List.concat_eq_append] at hd ⊢
      rcases along_of_find? hd q with ⟨after, heq⟩
      rw [List.append_assoc, List.singleton_append, heq]
      exact List.mem_append_right _ List.mem_cons_self

end Walk

/-! ## Growing a path -/

section Grow

variable [DecidableEq κ] (new : κ → δ) (edit : δ → δ)

/-- Edit the data of the root node. -/
def mapData : Trie κ δ → Trie κ δ
  | node d cs => node (edit d) cs

/-- Walk along a key sequence, creating the missing nodes and editing every node
below the root that is entered. -/
def grow : List κ → Trie κ δ → Trie κ δ
  | [], t => t
  | k :: ks, t =>
    let c := (t.child k).getD (leaf (new k))
    node t.data (t.children.kinsert k (grow ks (c.mapData edit)))

variable {new edit}

omit [DecidableEq κ] in
@[simp] theorem data_mapData (t : Trie κ δ) : (t.mapData edit).data = edit t.data := by
  cases t
  rfl

theorem child_mapData (t : Trie κ δ) (k : κ) : (t.mapData edit).child k = t.child k := by
  cases t
  rfl

omit [DecidableEq κ] in
theorem WF.mapData {t : Trie κ δ} (h : t.WF) : (t.mapData edit).WF := by
  cases h with
  | node hkeys hchild => exact .node hkeys hchild

/-- The children of a grown node, by key. -/
theorem child_grow_cons (t : Trie κ δ) (k k' : κ) (ks : List κ) :
    (t.grow new edit (k :: ks)).child k' =
      if k' = k then some ((((t.child k).getD (.leaf (new k))).mapData edit).grow new edit ks)
      else t.child k' := by
  by_cases hk : k' = k
  · subst hk
    rw [if_pos rfl]
    exact List.dlookup_kinsert t.children
  · rw [if_neg hk]
    exact List.dlookup_kinsert_ne hk

@[simp] theorem data_grow (t : Trie κ δ) (ks : List κ) : (t.grow new edit ks).data = t.data := by
  cases ks with
  | nil => rfl
  | cons k ks => rfl

theorem WF.grow {t : Trie κ δ} (h : t.WF) (ks : List κ) : (t.grow new edit ks).WF := by
  induction ks generalizing t with
  | nil => exact h
  | cons k ks ih =>
    have hc : ((t.child k).getD (.leaf (new k))).WF := by
      cases hck : t.child k with
      | none => exact WF.leaf
      | some c => exact h.child hck
    cases h with
    | @node d cs hkeys hchild =>
      refine .node (List.kinsert_nodupKeys k _ hkeys) fun k' c hmem => ?_
      rcases List.mem_cons.1 hmem with heq | hmem
      · -- the child on the path
        cases heq
        exact ih hc.mapData
      · exact hchild k' c ((List.kerase_sublist k cs).subset hmem)

/-- The nodes on the path are edited, and created first where they were missing;
the others are as before. -/
theorem find?_grow (t : Trie κ δ) (ks p : List κ) (k : κ) :
    (t.grow new edit ks).find? (p ++ [k]) =
      if p ++ [k] <+: ks then some (edit ((t.find? (p ++ [k])).getD (new k)))
      else t.find? (p ++ [k]) := by
  induction ks generalizing t p with
  | nil => simp [grow]
  | cons k₀ ks ih =>
    rcases p with _ | ⟨q₀, q⟩
    · -- the first node of the path
      rw [List.nil_append, find?_cons, child_grow_cons, find?_cons]
      by_cases hk : k = k₀
      · subst hk
        rw [if_pos rfl, if_pos (by simp)]
        cases t.child k <;> simp [leaf]
      · rw [if_neg hk, if_neg (by simp [hk])]
    · rw [List.cons_append, find?_cons, child_grow_cons, find?_cons]
      by_cases hk : q₀ = k₀
      · -- one key further
        subst hk
        have hsame : ∀ c : Trie κ δ, (c.mapData edit).find? (q ++ [k]) = c.find? (q ++ [k]) := by
          intro c
          cases q <;> simp only [List.nil_append, List.cons_append, find?_cons, child_mapData]
        have hleaf : (leaf (new q₀)).find? (q ++ [k]) = none := by
          cases q <;> rfl
        simp only [if_pos, Option.bind_some, ih, hsame, List.prefix_cons_inj]
        cases t.child q₀ with
        | none => rw [Option.getD_none, hleaf, Option.bind_none]
        | some c => rw [Option.getD_some, Option.bind_some]
      · rw [if_neg hk, if_neg fun h => hk (List.cons_prefix_cons.1 h).1]

end Grow

/-! ## Sweeping a tree -/

section Sweep

variable (edit : δ → δ) (dead : δ → Bool)

/-- A dead node without children is to be dropped by its parent. -/
def reclaimable (t : Trie κ δ) : Bool := dead t.data && t.children.isEmpty

mutual

/-- Edit every node and drop the reclaimable children, bottom-up. -/
def sweep : Trie κ δ → Trie κ δ
  | node d cs => node (edit d) (sweepChildren cs)

/-- Sweep every child and drop those that have become reclaimable. -/
def sweepChildren : List (Σ _ : κ, Trie κ δ) → List (Σ _ : κ, Trie κ δ)
  | [] => []
  | ⟨k, t⟩ :: cs =>
    let t' := sweep t
    if t'.reclaimable dead then sweepChildren cs else ⟨k, t'⟩ :: sweepChildren cs

end

variable {edit dead}

@[simp] theorem data_sweep (t : Trie κ δ) : (t.sweep edit dead).data = edit t.data := by
  cases t
  rfl

theorem mem_sweepChildren {cs : List (Σ _ : κ, Trie κ δ)} {k : κ} {t' : Trie κ δ}
    (h : ⟨k, t'⟩ ∈ sweepChildren edit dead cs) : ∃ t, ⟨k, t⟩ ∈ cs ∧ t' = t.sweep edit dead := by
  induction cs with
  | nil => cases h
  | cons head cs ih =>
    obtain ⟨k₀, t₀⟩ := head
    rw [sweepChildren] at h
    split at h
    · obtain ⟨t, hmem, ht⟩ := ih h
      exact ⟨t, List.mem_cons_of_mem _ hmem, ht⟩
    · rcases List.mem_cons.1 h with heq | h
      · cases heq
        exact ⟨t₀, List.mem_cons_self, rfl⟩
      · obtain ⟨t, hmem, ht⟩ := ih h
        exact ⟨t, List.mem_cons_of_mem _ hmem, ht⟩

theorem keys_sweepChildren (cs : List (Σ _ : κ, Trie κ δ)) :
    (sweepChildren edit dead cs).keys.Sublist cs.keys := by
  induction cs with
  | nil => exact .slnil
  | cons head cs ih =>
    obtain ⟨k, t⟩ := head
    rw [sweepChildren]
    split
    · exact ih.cons k
    · exact ih.cons_cons k

theorem WF.sweep {t : Trie κ δ} (h : t.WF) : (t.sweep edit dead).WF := by
  induction h with
  | @node d cs hkeys _ ih =>
    refine .node (List.Nodup.sublist (keys_sweepChildren cs) hkeys) fun k t' hmem => ?_
    obtain ⟨t, ht, rfl⟩ := mem_sweepChildren hmem
    exact ih k t ht

variable [DecidableEq κ]

/-- The children of a swept node, by key. -/
theorem dlookup_sweepChildren {cs : List (Σ _ : κ, Trie κ δ)} (h : cs.NodupKeys) (k : κ) :
    (sweepChildren edit dead cs).dlookup k =
      ((cs.dlookup k).map (Trie.sweep edit dead)).filter fun t => !t.reclaimable dead := by
  induction cs with
  | nil => rfl
  | cons head cs ih =>
    obtain ⟨k₀, t₀⟩ := head
    obtain ⟨hnot, hcs⟩ := List.nodupKeys_cons.1 h
    rw [sweepChildren]
    by_cases hk : k = k₀
    · subst hk
      rw [List.dlookup_cons_eq]
      split
      · rename_i hdead
        -- no other child has this key
        have hnone : (sweepChildren edit dead cs).dlookup k = none :=
          List.dlookup_eq_none.2 fun hmem => hnot ((keys_sweepChildren cs).subset hmem)
        rw [hnone, Option.map_some, Option.filter_some, hdead]
        rfl
      · rename_i halive
        rw [List.dlookup_cons_eq, Option.map_some, Option.filter_some,
          Bool.eq_false_iff.2 halive]
        rfl
    · rw [List.dlookup_cons_ne _ _ hk]
      split
      · exact ih hcs
      · rw [List.dlookup_cons_ne _ _ hk]
        exact ih hcs

theorem child_sweep {t : Trie κ δ} (h : t.WF) (k : κ) :
    (t.sweep edit dead).child k =
      ((t.child k).map (Trie.sweep edit dead)).filter fun c => !c.reclaimable dead := by
  cases h with
  | node hkeys _ => exact dlookup_sweepChildren hkeys k

/-- Every node of a swept tree is an edited node of the tree. -/
theorem find?_sweep_some {t : Trie κ δ} (h : t.WF) {p : List κ} {d' : δ}
    (hd : (t.sweep edit dead).find? p = some d') : ∃ d, t.find? p = some d ∧ d' = edit d := by
  induction p generalizing t with
  | nil =>
    rw [find?_nil, data_sweep, Option.some_inj] at hd
    exact ⟨t.data, rfl, hd.symm⟩
  | cons k p ih =>
    rw [find?_cons, child_sweep h] at hd
    obtain ⟨c', hc', hd⟩ := Option.bind_eq_some_iff.1 hd
    obtain ⟨c, hc, rfl⟩ := Option.map_eq_some_iff.1 (Option.filter_eq_some_iff.1 hc').1
    obtain ⟨d, hfind, heq⟩ := ih (h.child hc) hd
    exact ⟨d, by rw [find?_cons, hc, Option.bind_some, hfind], heq⟩

/-- Seen through a view that does not tell dead data from a missing node, a sweep
edits every node and drops none. -/
theorem get_sweep {view : δ → γ} {default : γ} (hdead : ∀ d, dead d = true → view d = default)
    {t : Trie κ δ} (h : t.WF) (p : List κ) :
    (t.sweep edit dead).get view default p = t.get (fun d => view (edit d)) default p := by
  induction p generalizing t with
  | nil => simp [get]
  | cons k p ih =>
    have hcons : ∀ (v : δ → γ) (u : Trie κ δ),
        u.get v default (k :: p) = ((u.child k).map fun c => c.get v default p).getD default := by
      intro v u
      rw [get, find?_cons]
      cases u.child k <;> rfl
    rw [hcons, hcons, child_sweep h]
    cases hc : t.child k with
    | none => rfl
    | some c =>
      have hrec := ih (h.child hc)
      by_cases hr : (c.sweep edit dead).reclaimable dead = true
      · -- the child is dropped: nothing below it was visible
        obtain ⟨hd, hempty⟩ := Bool.and_eq_true_iff.1 hr
        have hnothing : (c.sweep edit dead).get view default p = default := by
          cases p with
          | nil => exact hdead _ hd
          | cons k' p' =>
            rw [get, find?_cons, child, List.isEmpty_iff.1 hempty]
            rfl
        rw [Option.map_some, Option.filter_some, hr, Option.map_some, Option.getD_some, ← hrec,
          hnothing]
        rfl
      · rw [Option.map_some, Option.filter_some, Option.map_some, Option.getD_some, ← hrec]
        simp [hr]

/-- Sweep the tree below the root node. -/
def sweepBelow (edit : δ → δ) (dead : δ → Bool) (t : Trie κ δ) : Trie κ δ :=
  node t.data (sweepChildren edit dead t.children)

theorem find?_sweepBelow (t : Trie κ δ) (p : List κ) (k : κ) :
    (t.sweepBelow edit dead).find? (p ++ [k]) = (t.sweep edit dead).find? (p ++ [k]) := by
  obtain ⟨d, cs⟩ := t
  cases p <;> rfl

omit [DecidableEq κ] in
theorem WF.sweepBelow {t : Trie κ δ} (h : t.WF) : (t.sweepBelow edit dead).WF := by
  have hsweep : (Trie.sweep edit dead _).WF := h.sweep
  cases h with
  | node _ _ =>
    cases hsweep with
    | node hkeys hchild => exact .node hkeys hchild

end Sweep

/-! ## A property of every node below the root -/

section All

variable [DecidableEq κ] {P : κ → δ → Prop} {new : κ → δ} {edit : δ → δ} {dead : δ → Bool}

/-- Every node below the root has `P` of its key and its data. -/
def All (P : κ → δ → Prop) (t : Trie κ δ) : Prop :=
  ∀ p k d, t.find? (p ++ [k]) = some d → P k d

theorem All.leaf {d : δ} : (leaf d).All P := by
  intro p k d' h
  cases p <;> cases h

theorem All.grow {t : Trie κ δ} (h : t.All P) (hnew : ∀ k, P k (new k))
    (hedit : ∀ k d, P k d → P k (edit d)) (ks : List κ) : (t.grow new edit ks).All P := by
  intro p k d hd
  rw [find?_grow] at hd
  split at hd
  · obtain rfl := Option.some_inj.1 hd
    refine hedit k _ ?_
    cases hfind : t.find? (p ++ [k]) with
    | none => exact hnew k
    | some d₀ => exact h p k d₀ hfind
  · exact h p k d hd

theorem All.sweep {t : Trie κ δ} (h : t.All P) (hwf : t.WF)
    (hedit : ∀ k d, P k d → P k (edit d)) : (t.sweep edit dead).All P := by
  intro p k d hd
  obtain ⟨d₀, hfind, rfl⟩ := find?_sweep_some hwf hd
  exact hedit k d₀ (h p k d₀ hfind)

theorem All.sweepBelow {t : Trie κ δ} (h : t.All P) (hwf : t.WF)
    (hedit : ∀ k d, P k d → P k (edit d)) : (t.sweepBelow edit dead).All P := by
  intro p k d hd
  rw [find?_sweepBelow] at hd
  exact h.sweep hwf hedit p k d hd

end All

/-! ## Nodes -/

section Nodes

variable [DecidableEq κ]

/-- The node at the end of a key sequence. -/
def at? : Trie κ δ → List κ → Option (Trie κ δ)
  | t, [] => some t
  | t, k :: p => (t.child k).bind fun c => c.at? p

theorem find?_eq_at? (t : Trie κ δ) (p : List κ) : t.find? p = (t.at? p).map data := by
  induction p generalizing t with
  | nil => rfl
  | cons k p ih =>
    rw [find?_cons, at?]
    cases t.child k with
    | none => rfl
    | some c => exact ih c

theorem at?_leaf (d : δ) (p : List κ) (k : κ) : (leaf d).at? (p ++ [k]) = none := by
  cases p with
  | nil => rfl
  | cons k' p => rfl

theorem at?_append (t : Trie κ δ) (p q : List κ) :
    t.at? (p ++ q) = (t.at? p).bind fun n => n.at? q := by
  induction p generalizing t with
  | nil => rfl
  | cons k p ih =>
    rw [List.cons_append, at?, at?]
    cases t.child k with
    | none => rfl
    | some c => exact ih c

/-- The nodes on the way to a node exist. -/
theorem find?_of_append {t : Trie κ δ} {p q : List κ} {d : δ} (h : t.find? (p ++ q) = some d) :
    ∃ e, t.find? p = some e := by
  rw [find?_eq_at?, at?_append] at h
  rw [find?_eq_at?]
  cases hn : t.at? p with
  | none =>
    rw [hn] at h
    exact absurd h.symm (Option.some_ne_none d)
  | some n => exact ⟨n.data, rfl⟩

theorem at?_snoc (t : Trie κ δ) (p : List κ) (k : κ) :
    t.at? (p ++ [k]) = (t.at? p).bind fun n => n.child k := by
  rw [at?_append]
  congr 1
  funext n
  rw [at?]
  cases n.child k with
  | none => rfl
  | some c => rfl

end Nodes

/-! ## Trees without dead leaves -/

/-- Below the root, a node without children is not dead. -/
inductive Tidy (dead : δ → Bool) : Trie κ δ → Prop
  | node {d : δ} {cs : List (Σ _ : κ, Trie κ δ)}
      (alive : ∀ k t, ⟨k, t⟩ ∈ cs → t.reclaimable dead = false)
      (child : ∀ k t, ⟨k, t⟩ ∈ cs → Tidy dead t) : Tidy dead (node d cs)

section Tidy

variable {dead : δ → Bool} {new : κ → δ} {edit : δ → δ}

theorem Tidy.leaf {d : δ} : (leaf d : Trie κ δ).Tidy dead :=
  .node (fun _ _ h => absurd h List.not_mem_nil) (fun _ _ h => absurd h List.not_mem_nil)

/-- A sweep leaves no dead leaves behind. -/
theorem Tidy.sweep {t : Trie κ δ} (hwf : t.WF) : (t.sweep edit dead).Tidy dead := by
  induction hwf with
  | @node d cs _ _ ih =>
    have hkept : ∀ (cs : List (Σ _ : κ, Trie κ δ)) k t',
        ⟨k, t'⟩ ∈ sweepChildren edit dead cs → t'.reclaimable dead = false := by
      intro cs k t' hmem
      induction cs with
      | nil => cases hmem
      | cons head cs ihcs =>
        obtain ⟨k₀, t₀⟩ := head
        rw [sweepChildren] at hmem
        split at hmem
        · exact ihcs hmem
        · rename_i halive
          rcases List.mem_cons.1 hmem with heq | hmem
          · cases heq
            exact Bool.eq_false_iff.2 halive
          · exact ihcs hmem
    constructor
    · exact hkept cs
    · intro k t' hmem
      rcases mem_sweepChildren hmem with ⟨t, ht, rfl⟩
      exact ih k t ht

theorem Tidy.sweepBelow {t : Trie κ δ} (hwf : t.WF) : (t.sweepBelow edit dead).Tidy dead := by
  have hsweep : (t.sweep edit dead).Tidy dead := Tidy.sweep hwf
  cases t with
  | node d cs =>
    cases hsweep with
    | node halive hchild => exact .node halive hchild

theorem Tidy.mapData {t : Trie κ δ} (h : t.Tidy dead) : (t.mapData edit).Tidy dead := by
  cases h with
  | node halive hchild => exact .node halive hchild

variable [DecidableEq κ]

theorem Tidy.of_child {t c : Trie κ δ} {k : κ} (h : t.Tidy dead) (hc : t.child k = some c) :
    c.reclaimable dead = false ∧ c.Tidy dead := by
  cases h with
  | node halive hchild =>
    have hmem := List.of_mem_dlookup hc
    exact ⟨halive k c hmem, hchild k c hmem⟩

/-- The nodes of a grown path are not dead if an edited node never is. -/
theorem Tidy.grow {t : Trie κ δ} (h : t.Tidy dead) (hedit : ∀ d, dead (edit d) = false)
    (ks : List κ) : (t.grow new edit ks).Tidy dead := by
  induction ks generalizing t with
  | nil => exact h
  | cons k ks ih =>
    have hc : ((t.child k).getD (.leaf (new k))).Tidy dead := by
      cases hck : t.child k with
      | none => exact Tidy.leaf
      | some c => exact (h.of_child hck).2
    have hedited : ((((t.child k).getD (.leaf (new k))).mapData edit).grow new edit ks).reclaimable
        dead = false := by
      unfold reclaimable
      rw [data_grow, data_mapData, hedit]
      rfl
    cases h with
    | @node d cs halive hchild =>
      have hstep : ∀ k' c, ⟨k', c⟩ ∈ (List.kinsert k
          ((((Trie.node d cs).child k).getD (.leaf (new k))).mapData edit |>.grow new edit ks) cs) →
          c.reclaimable dead = false ∧ c.Tidy dead := by
        intro k' c hmem
        rcases List.mem_cons.1 hmem with heq | hmem
        · cases heq
          exact ⟨hedited, ih hc.mapData⟩
        · have hold := (List.kerase_sublist k cs).subset hmem
          exact ⟨halive k' c hold, hchild k' c hold⟩
      exact .node (fun k' c hmem => (hstep k' c hmem).1) (fun k' c hmem => (hstep k' c hmem).2)

/-- A childless node below the root is not dead. -/
theorem Tidy.at? {t n : Trie κ δ} (h : t.Tidy dead) {p : List κ} {k : κ}
    (hn : t.at? (p ++ [k]) = some n) (hleaf : n.children = []) : dead n.data = false := by
  induction p generalizing t with
  | nil =>
    rw [List.nil_append, Trie.at?] at hn
    rcases Option.bind_eq_some_iff.1 hn with ⟨c, hc, heq⟩
    rcases Option.some.inj heq with rfl
    have halive := (h.of_child hc).1
    unfold reclaimable at halive
    rw [hleaf] at halive
    simpa using halive
  | cons k' p ih =>
    rw [List.cons_append, Trie.at?] at hn
    rcases Option.bind_eq_some_iff.1 hn with ⟨c, hc, heq⟩
    exact ih (h.of_child hc).2 heq

end Tidy

end Trie
