import Mathlib.Data.Nat.SuccPred
import HierKvGateway.Lib.Update
import HierKvGateway.Metadata.KvIndex

/-!
# Metadata.Overlap — what a lane says about the tree

A lane counts copies of fingerprints, the tree records owners per sequence of
blocks. Both are followed here along runs of operations, together with a tally of
how often each block was stored (`Agrees`). What a query of the lane can say about
the tree is `KvIndex.estimate_refines`: it knows the blocks a backend holds, but
not which blocks they follow.
-/

namespace HierKvGateway

namespace KvIndex

/-- Every write an operation performs, on whichever lane, meets `P`. -/
def EachWrite (H : Xxh3) (P : LocalLane → LocalCkf → LaneWrite → Prop) (k : KvIndex) : KvOp → Prop
  | .applyEvent e b =>
    match k.localCkf.assignLane b with
    | (c, some l) => Run.Each (LocalCkf.write H l) (P l) c e.laneWrites
    | (_, none) => True
  | .removeBackend _ => True

instance (H : Xxh3) (P : LocalLane → LocalCkf → LaneWrite → Prop)
    [∀ l c w, Decidable (P l c w)] (k : KvIndex) (op : KvOp) : Decidable (EachWrite H P k op) := by
  cases op with
  | applyEvent e b =>
    unfold EachWrite
    dsimp only
    split <;> infer_instance
  | removeBackend b => exact .isTrue trivial

theorem EachWrite.assigned {H : Xxh3} {P : LocalLane → LocalCkf → LaneWrite → Prop} {k : KvIndex}
    {e : KvCacheEvent} {b : BackendId} {l : LocalLane} {c : LocalCkf}
    (h : EachWrite H P k (.applyEvent e b)) (heq : k.localCkf.assignLane b = (c, some l)) :
    Run.Each (LocalCkf.write H l) (P l) c e.laneWrites := by
  rw [EachWrite, heq] at h
  exact h

/-- How often each backend has stored a block, less how often it has removed it,
since it was last cleared or removed. -/
def tally (n : BackendId → BlockHash → Nat) : KvOp → BackendId → BlockHash → Nat
  | .applyEvent e b => Function.update n b (e.laneWrites.foldl countWrite (n b))
  | .removeBackend b => Function.update n b 0

/-- A `Removed` event lists each of its blocks at least as often as the backend
has stored it. -/
def RemovesAll (n : BackendId → BlockHash → Nat) : KvOp → Prop
  | .applyEvent (.removed _ hs) b => ∀ x ∈ hs, n b x ≤ hs.count x
  | .applyEvent (.stored _ _ _ _) _ => True
  | .applyEvent (.clear _) _ => True
  | .applyEvent (.reset _ _) _ => True
  | .removeBackend _ => True

instance (n : BackendId → BlockHash → Nat) (op : KvOp) : Decidable (RemovesAll n op) :=
  match op with
  | .applyEvent (.removed _ hs) _ => List.decidableBAll _ hs
  | .applyEvent (.stored _ _ _ _) _ => .isTrue trivial
  | .applyEvent (.clear _) _ => .isTrue trivial
  | .applyEvent (.reset _ _) _ => .isTrue trivial
  | .removeBackend _ => .isTrue trivial

/-! ## What the lanes have to do with the tree -/

/-- Tree, projection and tally agree: the lane of a backend holds every block as
often as it is counted, and the blocks the tree records are counted. -/
structure Agrees (H : Xxh3) (S : Set BlockHash) (B : Finset BackendId) (k : KvIndex)
    (n : BackendId → BlockHash → Nat) : Prop where
  bound : k.localCkf.Bound
  lanes : ∀ b l, k.localCkf.backendLanes b = some l → b ∈ B
  counts : ∀ b l, k.localCkf.backendLanes b = some l → Counts H S (k.localCkf.lane l) (n b)
  unbound : ∀ b, k.localCkf.backendLanes b = none → n b = 0
  held : ∀ b, ∀ x ∈ k.radix.index.blocks b, x ∈ S ∧ 0 < n b x

/-- Every block the tree records for a backend is found in its lane. -/
def Found (H : Xxh3) (k : KvIndex) : Prop :=
  ∀ b l, k.localCkf.backendLanes b = some l →
    ∀ x ∈ k.radix.index.blocks b, laneContains H (k.localCkf.lane l) x = true

/-- A block the tree does not record for a backend is not counted. -/
def Exact (t : TreeState) (n : BackendId → BlockHash → Nat) : Prop :=
  ∀ b x, x ∉ t.index.blocks b → n b x = 0

section Tally

variable {n : Nat} {x : BlockHash} {hs : List BlockHash}

theorem foldl_countWrite (ws : List LaneWrite) (n : BlockHash → Nat) (x : BlockHash) :
    ws.foldl countWrite n x = ws.foldl (countOf x) (n x) := by
  induction ws generalizing n with
  | nil => rfl
  | cons w ws ih => exact ih (countWrite n w)

/-- Writes of one kind act on the tally of a block once for each time it is among them. -/
theorem foldl_countOf_map {w : BlockHash → LaneWrite} {g : Nat → Nat}
    (hhit : ∀ n, countOf x n (w x) = g n) (hmiss : ∀ h n, h ≠ x → countOf x n (w h) = n) :
    (hs.map w).foldl (countOf x) n = g^[hs.count x] n := by
  induction hs generalizing n with
  | nil => rfl
  | cons h hs ih =>
    rw [List.map_cons, List.foldl_cons, ih, List.count_cons]
    by_cases hx : h = x
    · subst hx
      rw [hhit, beq_self_eq_true, if_pos rfl]
      exact (Function.iterate_succ_apply g _ n).symm
    · rw [hmiss h n hx, if_neg (mt beq_iff_eq.1 hx), Nat.add_zero]

theorem foldl_count_insert :
    (hs.map LaneWrite.insert).foldl (countOf x) n = n + hs.count x := by
  rw [← Nat.succ_iterate]
  apply foldl_countOf_map
  · intro n
    rw [countOf, if_pos rfl]
  · intro h n hne
    rw [countOf, if_neg hne.symm, Nat.add_zero]

theorem foldl_count_delete :
    (hs.map LaneWrite.delete).foldl (countOf x) n = n - hs.count x := by
  rw [← Nat.pred_iterate]
  apply foldl_countOf_map
  · intro n
    rw [countOf, if_pos rfl, Nat.sub_one]
  · intro h n hne
    rw [countOf, if_neg hne.symm, Nat.sub_zero]

end Tally

section Event

variable {I : PrefixIndex} {b : BackendId} {e : KvCacheEvent} {n : Nat} {x : BlockHash}

theorem mem_hashes_of_mem_laneWrites {hash : BlockHash} {w : LaneWrite} (hw : w ∈ e.laneWrites)
    (h : w = .insert hash ∨ w = .delete hash) : hash ∈ e.hashes := by
  cases e with
  | stored _ hs _ _ =>
    obtain ⟨y, hy, rfl⟩ := List.mem_map.1 hw
    rcases h with h | h <;> cases h
    exact hy
  | removed _ hs =>
    obtain ⟨y, hy, rfl⟩ := List.mem_map.1 hw
    rcases h with h | h <;> cases h
    exact hy
  | clear _ =>
    obtain rfl := List.mem_singleton.1 hw
    rcases h with h | h <;> cases h
  | reset _ _ =>
    obtain rfl := List.mem_singleton.1 hw
    rcases h with h | h <;> cases h

/-- The writes of an event are about the hashes it lists. -/
theorem laneWrites_in {S : Set BlockHash} (h : ∀ y ∈ e.hashes, y ∈ S) :
    ∀ w ∈ e.laneWrites, w.In S := by
  intro w hw
  cases w with
  | insert hash => exact h hash (mem_hashes_of_mem_laneWrites hw (Or.inl rfl))
  | delete hash => exact h hash (mem_hashes_of_mem_laneWrites hw (Or.inr rfl))
  | clear => trivial

/-- A block is held after an event if it was held before or is now inserted, and
the event does not delete it. -/
theorem mem_blocks_applyEvent (h : x ∈ (I.applyEvent b e).blocks b) :
    (∀ w ∈ e.laneWrites, w ≠ .delete x ∧ w ≠ .clear) ∧
      (x ∈ I.blocks b ∨ .insert x ∈ e.laneWrites) := by
  cases e with
  | stored _ hs _ _ =>
    refine ⟨fun w hw => ?_, ?_⟩
    · obtain ⟨y, _, rfl⟩ := List.mem_map.1 hw
      exact ⟨nofun, nofun⟩
    · rcases PrefixIndex.mem_blocks_store.1 h with hold | hnew
      · exact Or.inl hold
      · exact Or.inr (List.mem_map_of_mem hnew)
  | removed _ hs =>
    obtain ⟨hold, hx⟩ := PrefixIndex.mem_blocks_remove.1 h
    refine ⟨fun w hw => ?_, Or.inl hold⟩
    obtain ⟨y, hy, rfl⟩ := List.mem_map.1 hw
    refine ⟨fun heq => hx ?_, nofun⟩
    cases heq
    exact hy
  | clear _ => exact absurd h PrefixIndex.mem_blocks_clear
  | reset _ _ => exact absurd h PrefixIndex.mem_blocks_clear

/-- If the blocks held were counted, those held after an event are counted. -/
theorem counted_event (hheld : x ∈ I.blocks b → 0 < n) (hx : x ∈ (I.applyEvent b e).blocks b) :
    0 < e.laneWrites.foldl (countOf x) n := by
  cases e with
  | stored _ hs _ _ =>
    rw [KvCacheEvent.laneWrites, foldl_count_insert]
    rcases PrefixIndex.mem_blocks_store.1 hx with hold | hnew
    · have hpos := hheld hold
      omega
    · have hpos := List.count_pos_iff.2 hnew
      omega
  | removed _ hs =>
    obtain ⟨hold, hx⟩ := PrefixIndex.mem_blocks_remove.1 hx
    rw [KvCacheEvent.laneWrites, foldl_count_delete, List.count_eq_zero.2 hx]
    exact hheld hold
  | clear _ => exact absurd hx PrefixIndex.mem_blocks_clear
  | reset _ _ => exact absurd hx PrefixIndex.mem_blocks_clear

/-- If no other block was counted, none is after an event that removes all copies
of what it removes. -/
theorem uncounted_event (hexact : x ∉ I.blocks b → n = 0)
    (hall : ∀ worker hs, e = .removed worker hs → x ∈ hs → n ≤ hs.count x)
    (hx : x ∉ (I.applyEvent b e).blocks b) : e.laneWrites.foldl (countOf x) n = 0 := by
  cases e with
  | stored _ hs _ _ =>
    have hnot : ¬ (x ∈ I.blocks b ∨ x ∈ hs) := fun h => hx (PrefixIndex.mem_blocks_store.2 h)
    rw [KvCacheEvent.laneWrites, foldl_count_insert, hexact fun h => hnot (Or.inl h),
      List.count_eq_zero.2 fun h => hnot (Or.inr h)]
  | removed worker hs =>
    rw [KvCacheEvent.laneWrites, foldl_count_delete]
    by_cases hmem : x ∈ hs
    · have hle := hall worker hs rfl hmem
      omega
    · have hnot : x ∉ I.blocks b := fun hold =>
        hx (PrefixIndex.mem_blocks_remove.2 ⟨hold, hmem⟩)
      rw [hexact hnot, Nat.zero_sub]
  | clear _ => rfl
  | reset _ _ => rfl

end Event

/-! ## One operation -/

section Step

variable {H : Xxh3} {S : Set BlockHash} {B : Finset BackendId} {k : KvIndex}
  {n : BackendId → BlockHash → Nat} {b : BackendId} {l : LocalLane}

/-- A backend without a lane holds nothing. -/
theorem Agrees.blocks_of_unbound (h : Agrees H S B k n) (hb : k.localCkf.backendLanes b = none) :
    ∀ x, x ∉ k.radix.index.blocks b := by
  intro x hx
  have hpos := (h.held b x hx).2
  rw [h.unbound b hb] at hpos
  exact absurd hpos (lt_irrefl 0)

/-- Assigning a lane changes nothing that queries can see. -/
theorem Agrees.assigned (h : Agrees H S B k n) {c : LocalCkf} (hb : b ∈ B)
    (ha : LocalCkf.Assigned b l k.localCkf c) : Agrees H S B ⟨k.radix, c⟩ n where
  bound := h.bound.assigned ha
  lanes b' m hm := by
    dsimp only at hm
    rw [ha.backendLanes] at hm
    rcases Function.update_cases hm with ⟨rfl, -⟩ | ⟨-, hm⟩
    · exact hb
    · exact h.lanes b' m hm
  counts b' m hm := by
    dsimp only at hm ⊢
    rw [ha.backendLanes] at hm
    rcases Function.update_cases hm with ⟨rfl, heq⟩ | ⟨-, hm⟩
    · -- the new lane is empty, and nothing was counted for its backend
      rcases Option.some.inj heq with rfl
      rw [ha.empty, h.unbound b' ha.fresh]
      intro x _
      exact laneCopies_empty
    · rw [h.bound.lane_of_assigned ha hm]
      exact h.counts b' m hm
  unbound b' hb' := by
    dsimp only at hb'
    rw [ha.backendLanes] at hb'
    rcases Function.update_cases hb' with ⟨-, hb'⟩ | ⟨-, hb'⟩
    · exact absurd hb' (Option.some_ne_none l)
    · exact h.unbound b' hb'
  held := h.held

theorem Found.assigned (h : Agrees H S B k n) (hf : Found H k) {c : LocalCkf}
    (ha : LocalCkf.Assigned b l k.localCkf c) : Found H ⟨k.radix, c⟩ := by
  intro b' m hm x hx
  dsimp only at hm hx ⊢
  rw [ha.backendLanes] at hm
  rcases Function.update_cases hm with ⟨rfl, -⟩ | ⟨-, hm⟩
  · exact absurd hx (h.blocks_of_unbound ha.fresh x)
  · rw [h.bound.lane_of_assigned ha hm]
    exact hf b' m hm x hx

/-- With at most sixteen backends an assignment gives the backend a lane. -/
theorem Agrees.assign (h : Agrees H S B k n) (hcard : B.card ≤ localLaneCount) (hb : b ∈ B) :
    ∃ l c, k.localCkf.assignLane b = (c, some l) ∧ c.backendLanes b = some l ∧
      Agrees H S B ⟨k.radix, c⟩ n ∧ (Found H k → Found H ⟨k.radix, c⟩) := by
  rcases LocalCkf.assignLane_cases b k.localCkf with ⟨l, hl, heq⟩ | ⟨l, c, ha, heq⟩ | ⟨hnone, hfree, _⟩
  · exact ⟨l, k.localCkf, heq, hl, h, id⟩
  · refine ⟨l, c, heq, ?_, h.assigned hb ha, fun hf => hf.assigned h ha⟩
    rw [ha.backendLanes, Function.update_self]
  · exact absurd hfree (h.bound.freeLane_ne_none hcard h.lanes hb hnone)

/-- The index after an event of a backend that has lane `l`. -/
def applied (H : Xxh3) (l : LocalLane) (e : KvCacheEvent) (b : BackendId) (k : KvIndex) : KvIndex :=
  ⟨k.radix.applyEvent b e, e.laneWrites.foldl (LocalCkf.write H l) k.localCkf⟩

theorem Agrees.applied (hS : NoCollision H S) (h : Agrees H S B k n)
    (hl : k.localCkf.backendLanes b = some l) {e : KvCacheEvent} (he : ∀ x ∈ e.hashes, x ∈ S)
    (hok : Run.Each (LocalCkf.write H l) (LocalCkf.InsertOk H l) k.localCkf e.laneWrites) :
    Agrees H S B (applied H l e b k) (tally n (.applyEvent e b)) := by
  have hact := h.bound.active_of_laneOf hl
  obtain ⟨hsame, hlane⟩ := LocalCkf.writes_spec (H := H) hact e.laneWrites
  have hokLane := LocalCkf.each_lane (fun _ _ ha hw => LocalCkf.insertOk_lane ha hw) hact hok
  refine ⟨h.bound.same hsame, fun b' m hm => ?_, fun b' m hm => ?_, fun b' hb' => ?_,
    fun b' x hx => ?_⟩
  · rw [KvIndex.applied, hsame.backendLanes] at hm
    exact h.lanes b' m hm
  · rw [KvIndex.applied, hsame.backendLanes] at hm
    rw [KvIndex.applied, tally]
    by_cases hb' : b' = b
    · subst hb'
      obtain rfl := Option.some_inj.1 (hm.symm.trans hl)
      rw [hlane, Function.update_self]
      exact (h.counts b' m hm).writes hS (laneWrites_in he) hokLane
    · -- another backend has another lane, which is not written to
      have hml : m ≠ l := by
        rintro rfl
        exact hb' (h.bound.injective hm hl)
      rw [hsame.lane m hml, Function.update_of_ne hb']
      exact h.counts b' m hm
  · rw [KvIndex.applied, hsame.backendLanes] at hb'
    have hbb : b' ≠ b := by
      rintro rfl
      rw [hl] at hb'
      exact absurd hb' (Option.some_ne_none l)
    rw [tally, Function.update_of_ne hbb]
    exact h.unbound b' hb'
  · rw [KvIndex.applied, TreeState.index_applyEvent] at hx
    rw [tally]
    by_cases hb' : b' = b
    · subst hb'
      rw [Function.update_self, foldl_countWrite]
      -- a block of the backend was there before, or the event stores it
      refine ⟨?_, counted_event (fun hold => (h.held b' x hold).2) hx⟩
      rcases (mem_blocks_applyEvent hx).2 with hold | hnew
      · exact (h.held b' x hold).1
      · exact he x (mem_hashes_of_mem_laneWrites hnew (Or.inl rfl))
    · rw [PrefixIndex.blocks_applyEvent_of_ne hb'] at hx
      rw [Function.update_of_ne hb']
      exact h.held b' x hx

theorem Found.applied (hS : NoCollision H S) (h : Agrees H S B k n) (hf : Found H k)
    (hl : k.localCkf.backendLanes b = some l) {e : KvCacheEvent} (he : ∀ x ∈ e.hashes, x ∈ S)
    (hroom : Run.Each (LocalCkf.write H l) (LocalCkf.InsertRoom H l) k.localCkf e.laneWrites) :
    Found H (applied H l e b k) := by
  have hact := h.bound.active_of_laneOf hl
  obtain ⟨hsame, hlane⟩ := LocalCkf.writes_spec (H := H) hact e.laneWrites
  have hroomLane := LocalCkf.each_lane (Q := HierKvGateway.InsertRoom H)
    (fun _ _ _ hw => hw) hact hroom
  intro b' m hm x hx
  rw [KvIndex.applied, hsame.backendLanes] at hm
  rw [KvIndex.applied, TreeState.index_applyEvent] at hx
  rw [KvIndex.applied]
  by_cases hb' : b' = b
  · subst hb'
    obtain rfl := Option.some_inj.1 (hm.symm.trans hl)
    obtain ⟨hkeep, hfrom⟩ := mem_blocks_applyEvent hx
    -- what the tree records is among the hashes that do not collide
    have hxS : x ∈ S := by
      rcases hfrom with hold | hnew
      · exact (h.held b' x hold).1
      · exact he x (mem_hashes_of_mem_laneWrites hnew (Or.inl rfl))
    rw [hlane]
    exact laneContains_writes hS (laneWrites_in he) hxS hroomLane hkeep
      (hfrom.imp_left (hf b' m hm x))
  · -- the lane of another backend is not written to
    have hml : m ≠ l := by
      rintro rfl
      exact hb' (h.bound.injective hm hl)
    rw [PrefixIndex.blocks_applyEvent_of_ne hb'] at hx
    rw [hsame.lane m hml]
    exact hf b' m hm x hx

/-- Removing a backend. -/
theorem Agrees.removed (h : Agrees H S B k n) (b : BackendId) :
    Agrees H S B (k.kvRemoveBackend b) (tally n (.removeBackend b)) := by
  have hheld : ∀ b', ∀ x ∈ (k.radix.removeBackend b).index.blocks b',
      x ∈ S ∧ 0 < tally n (.removeBackend b) b' x := by
    intro b' x hx
    rw [TreeState.index_removeBackend] at hx
    by_cases hb' : b' = b
    · subst hb'
      exact absurd hx PrefixIndex.mem_blocks_clear
    · rw [PrefixIndex.blocks_clear_of_ne hb'] at hx
      rw [tally, Function.update_of_ne hb']
      exact h.held b' x hx
  cases hl : k.localCkf.backendLanes b with
  | none =>
    -- a backend without a lane counts nothing, so nothing changes
    have hn : tally n (.removeBackend b) = n := by
      rw [tally, ← h.unbound b hl, Function.update_eq_self]
    refine ⟨?_, ?_, ?_, ?_, hheld⟩ <;>
      rw [kvRemoveBackend, LocalCkf.unassignLane_of_unbound hl]
    · exact h.bound
    · exact h.lanes
    · rw [hn]
      exact h.counts
    · rw [hn]
      exact h.unbound
  | some l =>
    have hu := LocalCkf.unassignLane_of_bound hl
    -- the bindings that remain are those of the other backends
    have hne : ∀ b' m, (k.kvRemoveBackend b).localCkf.backendLanes b' = some m →
        b' ≠ b ∧ k.localCkf.backendLanes b' = some m := by
      intro b' m hm
      rw [kvRemoveBackend, hu.backendLanes] at hm
      rcases Function.update_cases hm with ⟨-, hm⟩ | ⟨hb', hm⟩
      · exact absurd hm.symm (Option.some_ne_none m)
      · exact ⟨hb', hm⟩
    refine ⟨h.bound.unassigned hu, fun b' m hm => ?_, fun b' m hm => ?_, fun b' hb' => ?_, hheld⟩
    · exact h.lanes b' m (hne b' m hm).2
    · obtain ⟨hb', hm⟩ := hne b' m hm
      rw [kvRemoveBackend, h.bound.lane_of_unassigned hu hm hb', tally, Function.update_of_ne hb']
      exact h.counts b' m hm
    · rw [kvRemoveBackend, hu.backendLanes] at hb'
      rw [tally]
      by_cases hbb : b' = b
      · rw [hbb, Function.update_self]
      · rw [Function.update_of_ne hbb] at hb' ⊢
        exact h.unbound b' hb'

theorem Found.removed (h : Agrees H S B k n) (hf : Found H k) (b : BackendId) :
    Found H (k.kvRemoveBackend b) := by
  intro b' m hm x hx
  rw [kvRemoveBackend, TreeState.index_removeBackend] at hx
  rw [kvRemoveBackend] at hm ⊢
  by_cases hb' : b' = b
  · subst hb'
    exact absurd hx PrefixIndex.mem_blocks_clear
  rw [PrefixIndex.blocks_clear_of_ne hb'] at hx
  cases hl : k.localCkf.backendLanes b with
  | none =>
    rw [LocalCkf.unassignLane_of_unbound hl] at hm ⊢
    exact hf b' m hm x hx
  | some l =>
    have hu := LocalCkf.unassignLane_of_bound hl
    rw [hu.backendLanes, Function.update_of_ne hb'] at hm
    rw [h.bound.lane_of_unassigned hu hm hb']
    exact hf b' m hm x hx

end Step

/-! ## Runs -/

section Run

variable {H : Xxh3} {S : Set BlockHash} {B : Finset BackendId} {k : KvIndex}
  {n : BackendId → BlockHash → Nat} {op : KvOp}

/-- An operation of one of the backends `B` on blocks of `S`. -/
def Among (S : Set BlockHash) (B : Finset BackendId) (op : KvOp) : Prop :=
  op.backend ∈ B ∧ ∀ x ∈ op.hashes, x ∈ S

/-- The operations on the tree alone. -/
theorem apply_radix (k : KvIndex) (op : KvOp) :
    (KvOp.apply H k op).radix = match op with
      | .applyEvent e b => k.radix.applyEvent b e
      | .removeBackend b => k.radix.removeBackend b := by
  cases op with
  | applyEvent e b =>
    rw [KvOp.apply, kvApplyEvent]
    dsimp only
    split <;> rfl
  | removeBackend b => rfl

theorem kvApplyEvent_eq {e : KvCacheEvent} {b : BackendId} {l : LocalLane} {c : LocalCkf}
    (h : k.localCkf.assignLane b = (c, some l)) :
    k.kvApplyEvent H e b = applied H l e b ⟨k.radix, c⟩ := by
  rw [kvApplyEvent, h]
  rfl

/-- Every operation keeps tree, projection and tally in agreement, as long as
its insertions succeed. -/
theorem Agrees.step (hS : NoCollision H S) (hcard : B.card ≤ localLaneCount)
    (h : Agrees H S B k n) (hop : Among S B op) (hok : EachWrite H (LocalCkf.InsertOk H) k op) :
    Agrees H S B (KvOp.apply H k op) (tally n op) := by
  cases op with
  | applyEvent e b =>
    obtain ⟨hb, he⟩ : b ∈ B ∧ ∀ x ∈ e.hashes, x ∈ S := hop
    obtain ⟨l, c, heq, hl, hc, _⟩ := h.assign hcard hb
    rw [KvOp.apply, kvApplyEvent_eq heq]
    exact hc.applied hS hl he (hok.assigned heq)
  | removeBackend b => exact h.removed b

theorem Found.step (hS : NoCollision H S) (hcard : B.card ≤ localLaneCount)
    (h : Agrees H S B k n) (hf : Found H k) (hop : Among S B op)
    (hroom : EachWrite H (LocalCkf.InsertRoom H) k op) : Found H (KvOp.apply H k op) := by
  cases op with
  | applyEvent e b =>
    obtain ⟨hb, he⟩ : b ∈ B ∧ ∀ x ∈ e.hashes, x ∈ S := hop
    obtain ⟨l, c, heq, hl, hc, hfound⟩ := h.assign hcard hb
    rw [KvOp.apply, kvApplyEvent_eq heq]
    exact (hfound hf).applied hS hc hl he (hroom.assigned heq)
  | removeBackend b => exact hf.removed h b

theorem Exact.step (h : Exact k.radix n) (hall : RemovesAll n op) :
    Exact (KvOp.apply H k op).radix (tally n op) := by
  intro b' x hx
  rw [apply_radix] at hx
  cases op with
  | applyEvent e b =>
    dsimp only at hx
    rw [TreeState.index_applyEvent] at hx
    rw [tally]
    by_cases hb' : b' = b
    · subst hb'
      rw [Function.update_self, foldl_countWrite]
      -- a removal takes out every copy there is
      refine uncounted_event (h b' x) ?_ hx
      rintro worker hs rfl
      exact hall x
    · rw [PrefixIndex.blocks_applyEvent_of_ne hb'] at hx
      rw [Function.update_of_ne hb']
      exact h b' x hx
  | removeBackend b =>
    dsimp only at hx
    rw [TreeState.index_removeBackend] at hx
    rw [tally]
    by_cases hb' : b' = b
    · rw [hb', Function.update_self]
      rfl
    · rw [PrefixIndex.blocks_clear_of_ne hb'] at hx
      rw [Function.update_of_ne hb']
      exact h b' x hx

theorem agrees_new : Agrees H S B new 0 where
  bound := .new
  lanes _ _ := nofun
  counts _ _ := nofun
  unbound _ _ := rfl
  held b x hx := by
    obtain ⟨p, hp⟩ := hx
    rw [new, TreeState.index_new] at hp
    exact absurd hp (Set.notMem_empty _)

theorem exact_new : Exact new.radix 0 := fun _ _ _ => rfl

/-- An index with the tally of its operations. -/
abbrev Tallied := KvIndex × (BackendId → BlockHash → Nat)

/-- The index followed together with the tally. -/
def counted (H : Xxh3) (s : Tallied) (op : KvOp) : Tallied := (op.apply H s.1, tally s.2 op)

/-- The index at the end of a run, with the tally of its operations. -/
theorem foldl_counted (ops : List KvOp) :
    ops.foldl (counted H) (new, 0) = (run H ops, ops.foldl tally 0) :=
  Prod.ext (Run.foldl_proj Prod.fst (fun _ _ => rfl) _ _)
    (Run.foldl_proj Prod.snd (fun _ _ => rfl) _ _)

section Runs

variable {ops : List KvOp} (hS : NoCollision H S) (hcard : B.card ≤ localLaneCount)
  (hops : ∀ op ∈ ops, Among S B op)
  (hok : Run.Each (KvOp.apply H) (EachWrite H (LocalCkf.InsertOk H)) new ops)

include hS hcard hops hok

theorem agrees_run : Agrees H S B (run H ops) (ops.foldl tally 0) := by
  have hamong := Run.each_of_mem (f := counted H) hops (new, 0)
  have hokC := (Run.each_proj (f := counted H) Prod.fst (fun _ _ => rfl) (new, 0) ops).2 hok
  have hend := Run.foldl_invariant (P := fun s => Agrees H S B s.1 s.2)
    (fun s op h hC => h.step hS hcard hC.1 hC.2) agrees_new (hamong.and hokC)
  rwa [foldl_counted] at hend

theorem found_run (hroom : Run.Each (KvOp.apply H) (EachWrite H (LocalCkf.InsertRoom H)) new ops) :
    Found H (run H ops) := by
  have hamong := Run.each_of_mem (f := counted H) hops (new, 0)
  have hokC := (Run.each_proj (f := counted H) Prod.fst (fun _ _ => rfl) (new, 0) ops).2 hok
  have hroomC := (Run.each_proj (f := counted H) Prod.fst (fun _ _ => rfl) (new, 0) ops).2 hroom
  have hstart : Agrees H S B new 0 ∧ Found H new := ⟨agrees_new, fun _ _ => nofun⟩
  have hend := Run.foldl_invariant (P := fun s => Agrees H S B s.1 s.2 ∧ Found H s.1)
    (fun s op h hC => ⟨h.1.step hS hcard hC.1.1 hC.1.2, h.2.step hS hcard h.1 hC.1.1 hC.2⟩)
    hstart ((hamong.and hokC).and hroomC)
  rw [foldl_counted] at hend
  exact hend.2

end Runs

theorem exact_run {ops : List KvOp} (hall : Run.Each tally RemovesAll 0 ops) :
    Exact (run H ops).radix (ops.foldl tally 0) := by
  have hallC := (Run.each_proj (f := counted H) Prod.snd (fun _ _ => rfl) (new, 0) ops).2 hall
  have hend := Run.foldl_invariant (f := counted H) (P := fun s : Tallied => Exact s.1.radix s.2)
    (s := (new, 0)) (fun s op h hC => Exact.step h hC) exact_new hallC
  rwa [foldl_counted] at hend

end Run

/-! ## Queries -/

section Query

variable {H : Xxh3} {k : KvIndex} {b : BackendId} {l : LocalLane} {hashes : List BlockHash}

/-- A block is the last of the sequence up to it. -/
theorem take_succ_eq {j : Nat} (h : j < hashes.length) :
    hashes.take (j + 1) = hashes.take j ++ [hashes[j]] := List.take_succ_eq_append_getElem h

/-- Every block on the path a tree query counts is held. -/
theorem findMatches_le_prefixHits {hit : BlockHash → Bool}
    (h : ∀ x ∈ k.radix.index.blocks b, hit x = true) :
    k.radix.findMatches hashes b ≤ prefixHits hit hashes := by
  obtain ⟨hlen, hpath⟩ := TreeState.le_findMatches_iff.1 (le_refl (k.radix.findMatches hashes b))
  refine le_prefixHits_iff.2 ⟨hlen, fun x hx => ?_⟩
  obtain ⟨j, hj, rfl⟩ := List.mem_take_iff_getElem.1 hx
  have hlt : j < hashes.length := by omega
  have hheld := hpath j (by omega)
  rw [take_succ_eq hlt] at hheld
  exact h _ ⟨_, hheld⟩

/-- If the leading blocks that are held are held in the order of the query, the tree counts them. -/
theorem prefixHits_le_findMatches {hit : BlockHash → Bool}
    (h : ∀ p x, p ++ [x] <+: hashes → (∀ y ∈ p ++ [x], hit y = true) →
      p ++ [x] ∈ k.radix.index b) :
    prefixHits hit hashes ≤ k.radix.findMatches hashes b := by
  obtain ⟨hlen, hhits⟩ := le_prefixHits_iff.1 (le_refl (prefixHits hit hashes))
  refine TreeState.le_findMatches_iff.2 ⟨hlen, fun j hj => ?_⟩
  have hlt : j < hashes.length := by omega
  have hpre : hashes.take (j + 1) <+: hashes := List.take_prefix _ _
  have hheld : ∀ y ∈ hashes.take (j + 1), hit y = true := by
    intro y hy
    exact hhits y (List.take_subset_take_left hashes (by omega) hy)
  rw [take_succ_eq hlt] at hpre hheld ⊢
  exact h _ _ hpre hheld

/-- Leading blocks that the backend holds are held in the order of the query. -/
def HeldInOrder (k : KvIndex) (b : BackendId) (hashes : List BlockHash) : Prop :=
  ∀ p x, p ++ [x] <+: hashes → (∀ y ∈ p ++ [x], y ∈ k.radix.index.blocks b) →
    p ++ [x] ∈ k.radix.index b

/-- The leading blocks that are held are those the tree counts exactly if they are held in
order. -/
theorem prefixHits_eq_findMatches_iff {hit : BlockHash → Bool}
    (hhit : ∀ x ∈ hashes, hit x = true ↔ x ∈ k.radix.index.blocks b)
    (hblocks : ∀ x ∈ k.radix.index.blocks b, hit x = true) :
    prefixHits hit hashes = k.radix.findMatches hashes b ↔ HeldInOrder k b hashes := by
  constructor
  · intro heq p x hpre hheld
    have hlen : (p ++ [x]).length ≤ prefixHits hit hashes := by
      refine le_prefixHits_iff.2 ⟨hpre.length_le, fun y hy => ?_⟩
      rw [← List.prefix_iff_eq_take.1 hpre] at hy
      exact hblocks y (hheld y hy)
    rw [heq] at hlen
    obtain ⟨-, hpath⟩ := TreeState.le_findMatches_iff.1 hlen
    have htake : hashes.take (p.length + 1) = p ++ [x] := by
      rw [List.prefix_iff_eq_take.1 hpre, List.length_append, List.length_singleton]
    rw [← htake]
    exact hpath p.length (by simp)
  · intro horder
    refine le_antisymm (prefixHits_le_findMatches fun p x hpre hheld => ?_)
      (findMatches_le_prefixHits hblocks)
    refine horder p x hpre fun y hy => ?_
    exact (hhit y (hpre.subset hy)).1 (hheld y hy)

theorem kvFindLocalOverlap_of_lane (hbound : k.localCkf.Bound)
    (hl : k.localCkf.laneOf b = some l) :
    k.kvFindLocalOverlap H hashes b = prefixHits (laneContains H (k.localCkf.lane l)) hashes := by
  rw [kvFindLocalOverlap, hl]
  exact LocalCkf.estimateOverlap_active (hbound.active_of_laneOf hl) hashes

end Query

open Classical in
/-- What the lane of a backend says about the tree, after any sequence of
operations by at most sixteen backends whose insertions all succeed. The blocks
the backend holds have their fingerprints in the lane. If the insertions found
room in the primary buckets, a query never falls short of the tree; if moreover
every removal removes all copies, it counts the leading blocks that the backend
holds anywhere, and agrees with the tree exactly if these are held in the order
asked for. -/
theorem estimate_refines (H : Xxh3) {ops : List KvOp} {hashes : List BlockHash}
    {B : Finset BackendId} (hcard : B.card ≤ localLaneCount) (hops : ∀ op ∈ ops, op.backend ∈ B)
    (hS : NoCollision H {x | x ∈ ops.flatMap KvOp.hashes ∨ x ∈ hashes})
    (hok : Run.Each (KvOp.apply H) (EachWrite H (LocalCkf.InsertOk H)) new ops)
    {b : BackendId} {l : LocalLane} (hl : (run H ops).localCkf.laneOf b = some l) :
    (∀ x ∈ (run H ops).radix.index.blocks b, PairHolds H x ((run H ops).localCkf.lane l)) ∧
    (Run.Each (KvOp.apply H) (EachWrite H (LocalCkf.InsertRoom H)) new ops →
      (run H ops).radix.findMatches hashes b ≤ (run H ops).kvFindLocalOverlap H hashes b ∧
      (Run.Each tally RemovesAll 0 ops →
        (run H ops).kvFindLocalOverlap H hashes b =
          prefixHits (fun x => decide (x ∈ (run H ops).radix.index.blocks b)) hashes ∧
        ((run H ops).kvFindLocalOverlap H hashes b = (run H ops).radix.findMatches hashes b ↔
          HeldInOrder (run H ops) b hashes))) := by
  have hamong : ∀ op ∈ ops, Among {x | x ∈ ops.flatMap KvOp.hashes ∨ x ∈ hashes} B op :=
    fun op hop => ⟨hops op hop, fun x hx => Or.inl (List.mem_flatMap.2 ⟨op, hop, hx⟩)⟩
  have hagrees := agrees_run hS hcard hamong hok
  have hquery : (run H ops).kvFindLocalOverlap H hashes b = prefixHits _ hashes :=
    kvFindLocalOverlap_of_lane hagrees.bound hl
  have hcopies : ∀ x ∈ {x | x ∈ ops.flatMap KvOp.hashes ∨ x ∈ hashes},
      laneCopies H ((run H ops).localCkf.lane l) x = ops.foldl tally 0 b x := hagrees.counts b l hl
  constructor
  · intro x hx
    obtain ⟨hxS, hpos⟩ := hagrees.held b x hx
    rwa [← laneCopies_pos, hcopies x hxS]
  · intro hroom
    have hfound := found_run hS hcard hamong hok hroom b l hl
    rw [hquery]
    refine ⟨findMatches_le_prefixHits hfound, fun hall => ?_⟩
    have hcontains : ∀ x ∈ hashes, laneContains H ((run H ops).localCkf.lane l) x = true ↔
        x ∈ (run H ops).radix.index.blocks b := by
      intro x hx
      refine ⟨fun h => ?_, hfound x⟩
      -- a block that is found is counted, so the tree records it
      by_contra hnot
      have hzero := exact_run (H := H) hall b x hnot
      have hpos := laneCopies_pos.2 (pairHolds_of_contains h)
      rw [hcopies x (Or.inr hx), hzero] at hpos
      exact absurd hpos (lt_irrefl 0)
    have hsame : prefixHits (laneContains H ((run H ops).localCkf.lane l)) hashes =
        prefixHits (fun x => decide (x ∈ (run H ops).radix.index.blocks b)) hashes :=
      prefixHits_congr fun x hx => by rw [Bool.eq_iff_iff, hcontains x hx, decide_eq_true_iff]
    exact ⟨hsame, prefixHits_eq_findMatches_iff hcontains hfound⟩

/-! A lane forgets the order of blocks: after the sequence `1, 2` was stored, a
query for block 2 alone finds it, although the backend holds no sequence that
starts with it. -/

/-- The backend of the example. -/
def someBackend : BackendId := ⟨⟨"r1"⟩, ⟨"i1"⟩⟩

/-- Two blocks are stored. -/
def twoBlocks : List KvOp := [.applyEvent (.stored ⟨1, 0⟩ [1, 2] none []) someBackend]

/-- Asked for in the order stored, the two blocks are found by both structures. -/
theorem estimate_refines_twoBlocks :
    (∀ x ∈ (run .short twoBlocks).radix.index.blocks someBackend,
      PairHolds .short x ((run .short twoBlocks).localCkf.lane 0)) ∧
    (run .short twoBlocks).kvFindLocalOverlap .short [1, 2] someBackend =
      (run .short twoBlocks).radix.findMatches [1, 2] someBackend := by
  have hlist : ∀ x, x ∈ twoBlocks.flatMap KvOp.hashes ∨ x ∈ [1, 2] → x = 1 ∨ x = 2 := by
    intro x hx
    simpa [twoBlocks, KvOp.hashes, KvCacheEvent.hashes] using hx
  have hS : NoCollision .short {x | x ∈ twoBlocks.flatMap KvOp.hashes ∨ x ∈ [1, 2]} := by
    have h12 : ¬ SameClass .short 1 2 := by decide +kernel
    have h21 : ¬ SameClass .short 2 1 := by decide +kernel
    intro x hx y hy hclass
    rcases hlist x hx with rfl | rfl <;> rcases hlist y hy with rfl | rfl
    · rfl
    · exact absurd hclass h12
    · exact absurd hclass h21
    · rfl
  obtain ⟨hheld, hquery⟩ := estimate_refines .short (B := {someBackend}) (by decide +kernel)
    (by decide +kernel) hS (by decide +kernel) (b := someBackend) (l := 0) (by decide +kernel)
  refine ⟨hheld, ((hquery (by decide +kernel)).2 (by decide +kernel)).2.2 fun p x hp _ => ?_⟩
  have hpaths : (someBackend, 0) ∈ (run .short twoBlocks).radix.ownersAt [1] ∧
      (someBackend, 0) ∈ (run .short twoBlocks).radix.ownersAt [1, 2] := by
    decide +kernel
  rw [TreeState.mem_index]
  have hinits : p ++ [x] = [1] ∨ p ++ [x] = [1, 2] := by
    simpa using (List.mem_inits (p ++ [x]) [1, 2]).2 hp
  rcases hinits with h | h
  · exact h ▸ hpaths.1
  · exact h ▸ hpaths.2

theorem not_refines_tree :
    Run.Each (KvOp.apply .short) (EachWrite .short (LocalCkf.InsertOk .short)) new twoBlocks ∧
    fpOf .short 1 ≠ fpOf .short 2 ∧
    (run .short twoBlocks).localCkf.laneOf someBackend = some 0 ∧
    (run .short twoBlocks).localCkf.estimateOverlap .short [2] 0 ≠
      (run .short twoBlocks).radix.findMatches [2] someBackend := by
  decide +kernel

end KvIndex

end HierKvGateway
