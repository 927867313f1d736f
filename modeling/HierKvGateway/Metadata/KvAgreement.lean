import HierKvGateway.Metadata.KvCalls
import HierKvGateway.Metadata.Overlap

/-!
# Metadata.KvAgreement — concurrent events of one backend

The worker fixes an order of the events of a backend in the tree. Each call then
projects its own event, so the lane sees the events in whatever order the calls
resume. `KvCalls.agree_of_inOrder`: if the writes that concern a block happen in
the worker's order, tree and lane agree on the block once all calls have
returned.

The invariant (`Ordered`) compares two sequences of writes: those of all the
events executed so far, in the worker's order, and those still to be performed.
As far as the block is concerned the second is a suffix of the first, and the
lane has performed the rest.
-/

namespace HierKvGateway

/-- The write changes the number of copies of a block. -/
def LaneWrite.Touches (x : BlockHash) : LaneWrite → Prop
  | .insert hash => hash = x
  | .delete hash => hash = x
  | .clear => True

instance (x : BlockHash) : ∀ w : LaneWrite, Decidable (w.Touches x)
  | .insert hash => inferInstanceAs (Decidable (hash = x))
  | .delete hash => inferInstanceAs (Decidable (hash = x))
  | .clear => .isTrue trivial

/-- The writes of a list that concern a block. -/
def touching (x : BlockHash) (ws : List LaneWrite) : List LaneWrite := ws.filter fun w => w.Touches x

section Touching

variable {x : BlockHash} {w : LaneWrite} {ws ws' : List LaneWrite} {n : Nat}

theorem countOf_of_not_touches (h : ¬ w.Touches x) : countOf x n w = n := by
  cases w with
  | insert hash => rw [countOf, if_neg (Ne.symm h), Nat.add_zero]
  | delete hash => rw [countOf, if_neg (Ne.symm h), Nat.sub_zero]
  | clear => exact absurd trivial h

/-- Only the writes that concern a block count. -/
theorem foldl_countOf_touching :
    (touching x ws).foldl (countOf x) n = ws.foldl (countOf x) n := by
  induction ws generalizing n with
  | nil => rfl
  | cons w ws ih =>
    by_cases hw : w.Touches x
    · rw [touching, List.filter_cons_of_pos (by simpa using hw)]
      exact ih
    · rw [touching, List.filter_cons_of_neg (by simpa using hw), List.foldl_cons,
        countOf_of_not_touches hw]
      exact ih

theorem touching_append : touching x (ws ++ ws') = touching x ws ++ touching x ws' :=
  List.filter_append ws ws'

theorem touching_cons_pos (h : w.Touches x) : touching x (w :: ws) = w :: touching x ws :=
  List.filter_cons_of_pos (by simpa using h)

theorem touching_cons_neg (h : ¬ w.Touches x) : touching x (w :: ws) = touching x ws :=
  List.filter_cons_of_neg (by simpa using h)

theorem touching_eq_nil (h : ∀ w ∈ ws, ¬ w.Touches x) : touching x ws = [] :=
  List.filter_eq_nil_iff.2 fun w hw => by simpa using h w hw

/-- A block is counted at most as often as it is inserted. -/
theorem foldl_countOf_le : ws.foldl (countOf x) n ≤ n + ws.count (.insert x) := by
  induction ws generalizing n with
  | nil => exact Nat.le_refl n
  | cons w ws ih =>
    have hrest := ih (n := countOf x n w)
    rw [List.foldl_cons]
    have hw : countOf x n w ≤ n + if w = .insert x then 1 else 0 := by
      cases w with
      | insert hash =>
        by_cases hx : x = hash
        · subst hx
          simp [countOf]
        · simp [countOf, hx]
      | delete hash => exact le_trans (Nat.sub_le _ _) (Nat.le_add_right _ _)
      | clear => exact Nat.zero_le _
    rw [List.count_cons]
    simp only [beq_iff_eq]
    omega

/-- A write is performed out of the middle of those that remain. If it concerns the
block, nothing before it does. -/
theorem touching_perform {executed done pre post : List LaneWrite}
    (hdone : touching x executed = done ++ touching x (pre ++ (w :: ws ++ post)))
    (hpre : w.Touches x → touching x pre = []) :
    ∃ done', touching x executed = done' ++ touching x (pre ++ (ws ++ post)) ∧
      done'.foldl (countOf x) 0 = countOf x (done.foldl (countOf x) 0) w := by
  by_cases hw : w.Touches x
  · -- it is the oldest remaining write about the block
    refine ⟨done ++ [w], ?_, ?_⟩
    · simp only [hdone, touching_append, hpre hw, touching_cons_pos hw, List.nil_append,
        List.cons_append, List.append_assoc]
    · rw [List.foldl_append]
      rfl
  · refine ⟨done, ?_, ?_⟩
    · simp only [hdone, touching_append, touching_cons_neg hw]
    · rw [countOf_of_not_touches hw]

end Touching

namespace KvCalls

variable {ι : Type} [DecidableEq ι]

/-- The copies of a block in the lane of a backend; none without a lane. -/
def copiesOf (H : Xxh3) (c : LocalCkf) (b : BackendId) (x : BlockHash) : Nat :=
  match c.backendLanes b with
  | some l => laneCopies H (c.lane l) x
  | none => 0

/-- The writes of the events the worker has executed, in its order. -/
def executedWrites (ev : ι → KvCacheEvent) (s : KvCalls ι) : List LaneWrite :=
  s.log.flatMap fun i => (ev i).laneWrites

/-- The writes of these events that have not been performed. -/
def remainingWrites (s : KvCalls ι) : List LaneWrite := s.log.flatMap fun i => (s.phase i).rest

/-- The calls the worker executed before a given one. -/
def executedBefore (s : KvCalls ι) (i : ι) : List ι := s.log.takeWhile fun j => j ≠ i

/-- Writes that concern the block are performed in the worker's order: none while
a call executed earlier still has one to perform. -/
def InOrder (x : BlockHash) (s : KvCalls ι) : Label ι → Prop
  | .begin _ => True
  | .enqueue _ => True
  | .execute => True
  | .write i => ∀ w ∈ (s.phase i).rest.head?, w.Touches x →
      ∀ j ∈ s.executedBefore i, ∀ w' ∈ (s.phase j).rest, ¬ w'.Touches x

/-- An insertion returns `true`. -/
def InsertsOk (H : Xxh3) (s : KvCalls ι) : Label ι → Prop
  | .begin _ => True
  | .enqueue _ => True
  | .execute => True
  | .write i => ∀ l ∈ (s.phase i).lane, ∀ w ∈ (s.phase i).rest.head?,
      LocalCkf.InsertOk H l s.ckf w

instance decidableInOrder (x : BlockHash) (s : KvCalls ι) :
    ∀ l : Label ι, Decidable (InOrder x s l)
  | .begin _ => .isTrue trivial
  | .enqueue _ => .isTrue trivial
  | .execute => .isTrue trivial
  | .write _ => inferInstanceAs (Decidable (∀ w ∈ _, _ → ∀ j ∈ _, ∀ w' ∈ _, ¬ _))

instance decidableInsertsOk (H : Xxh3) (s : KvCalls ι) : ∀ l : Label ι, Decidable (InsertsOk H s l)
  | .begin _ => .isTrue trivial
  | .enqueue _ => .isTrue trivial
  | .execute => .isTrue trivial
  | .write _ => inferInstanceAs (Decidable (∀ l ∈ _, ∀ w ∈ _, _))

/-- Exactly one of the events stores the block, and lists it once. -/
def StoredOnce (ev : ι → KvCacheEvent) (x : BlockHash) : Prop :=
  ∃ i, (ev i).laneWrites.count (.insert x) = 1 ∧
    ∀ j, j ≠ i → LaneWrite.insert x ∉ (ev j).laneWrites

/-- The block is present in the lane of the backend. -/
def Present (H : Xxh3) (c : LocalCkf) (b : BackendId) (x : BlockHash) : Prop :=
  ∃ l, c.laneOf b = some l ∧ PairHolds H x (c.lane l)

/-- The calls: one event of backend `b` each. -/
def events (b : BackendId) (ev : ι → KvCacheEvent) (i : ι) : KvOp := .applyEvent (ev i) b

/-- The invariant of runs that perform the writes about `x` in order. -/
structure Ordered (H : Xxh3) (b : BackendId) (ev : ι → KvCacheEvent) (x : BlockHash)
    (s : KvCalls ι) : Prop where
  base : Inv (events b ev) s
  lanes : ∀ b' l, s.ckf.backendLanes b' = some l → b' = b
  given : ∀ i, s.phase i ≠ .start →
    ∃ l, (s.phase i).lane = some l ∧ s.ckf.backendLanes b = some l
  logged : ∀ i, i ∈ s.log ↔ ∃ lane ws, s.phase i = .projecting lane ws
  distinct : s.log.Nodup
  remaining : ∀ i, ∀ w ∈ (s.phase i).rest, w ∈ (ev i).laneWrites
  projected : ∃ done, touching x (executedWrites ev s) = done ++ touching x (remainingWrites s) ∧
    copiesOf H s.ckf b x = done.foldl (countOf x) 0
  held : x ∈ s.radix.index.blocks b → 0 < (executedWrites ev s).foldl (countOf x) 0
  unheld : x ∉ s.radix.index.blocks b → (executedWrites ev s).foldl (countOf x) 0 = 0

section Steps

variable {H : Xxh3} {b : BackendId} {ev : ι → KvCacheEvent} {x : BlockHash} {S : Set BlockHash}
  {s s' : KvCalls ι} {i : ι} {p : Phase}

theorem copiesOf_some {c : LocalCkf} {l : LocalLane} (h : c.backendLanes b = some l) :
    copiesOf H c b x = laneCopies H (c.lane l) x := by
  rw [copiesOf, h]

theorem copiesOf_none {c : LocalCkf} (h : c.backendLanes b = none) : copiesOf H c b x = 0 := by
  rw [copiesOf, h]

/-- A fresh lane is as empty as no lane. -/
theorem copiesOf_assigned {c c' : LocalCkf} {l : LocalLane} (h : LocalCkf.Assigned b l c c') :
    copiesOf H c' b x = copiesOf H c b x := by
  have hl : c'.backendLanes b = some l := by rw [h.backendLanes, Function.update_self]
  rw [copiesOf_none h.fresh, copiesOf_some hl, h.empty, laneCopies_empty]

omit [DecidableEq ι] in
theorem ordered_new : Ordered H b ev x new where
  base := inv_new
  lanes _ _ := nofun
  given _ h := absurd rfl h
  logged i := iff_of_false List.not_mem_nil (by rintro ⟨lane, ws, h⟩; cases h)
  distinct := List.nodup_nil
  remaining i w hw := absurd hw List.not_mem_nil
  projected := ⟨[], rfl, rfl⟩
  held hx := by
    obtain ⟨q, hq⟩ := hx
    rw [new, TreeState.index_new] at hq
    exact absurd hq (Set.notMem_empty _)
  unheld _ := rfl

/-- A call that has not been executed contributes no writes, whatever its phase. -/
theorem flatMap_rest_update {log : List ι} (hi : i ∉ log) :
    (log.flatMap fun j => (Function.update s.phase i p j).rest) =
      log.flatMap fun j => (s.phase j).rest := by
  refine List.flatMap_congr fun j hj => ?_
  have hji : j ≠ i := fun heq => hi (heq ▸ hj)
  rw [Function.update_of_ne hji]

/-! What the invariant says of every call survives a change of one call's phase. -/

theorem Ordered.given_update (h : Ordered H b ev x s)
    (hkeep : ∀ l, s.ckf.backendLanes b = some l → s'.ckf.backendLanes b = some l)
    (hgiven : ∃ l, p.lane = some l ∧ s'.ckf.backendLanes b = some l) :
    ∀ j, Function.update s.phase i p j ≠ .start →
      ∃ l, (Function.update s.phase i p j).lane = some l ∧ s'.ckf.backendLanes b = some l := by
  refine (Function.forall_update_iff s.phase fun _ q => q ≠ .start →
    ∃ l, q.lane = some l ∧ s'.ckf.backendLanes b = some l).2 ⟨fun _ => hgiven, ?_⟩
  intro j _ hj
  obtain ⟨l, hl, hb⟩ := h.given j hj
  exact ⟨l, hl, hkeep l hb⟩

theorem Ordered.logged_update (h : Ordered H b ev x s)
    (hi : i ∈ s'.log ↔ ∃ lane ws, p = .projecting lane ws)
    (hothers : ∀ j, j ≠ i → (j ∈ s'.log ↔ j ∈ s.log)) :
    ∀ j, j ∈ s'.log ↔ ∃ lane ws, Function.update s.phase i p j = .projecting lane ws := by
  refine (Function.forall_update_iff s.phase fun j q => j ∈ s'.log ↔
    ∃ lane ws, q = .projecting lane ws).2 ⟨hi, ?_⟩
  intro j hji
  exact (hothers j hji).trans (h.logged j)

theorem Ordered.remaining_update (h : Ordered H b ev x s)
    (hi : ∀ w ∈ p.rest, w ∈ (ev i).laneWrites) :
    ∀ j, ∀ w ∈ (Function.update s.phase i p j).rest, w ∈ (ev j).laneWrites :=
  (Function.forall_update_iff s.phase fun j q => ∀ w ∈ q.rest, w ∈ (ev j).laneWrites).2
    ⟨hi, fun j _ => h.remaining j⟩

/-- A step before the worker's answer: nothing is executed or projected. -/
theorem Ordered.advance (h : Ordered H b ev x s) (hbase : Inv (events b ev) s')
    (hradix : s'.radix = s.radix) (hlog : s'.log = s.log)
    (hphase : s'.phase = Function.update s.phase i p) (hi : i ∉ s.log)
    (hp : ∀ lane ws, p ≠ .projecting lane ws) (hrest : p.rest = [])
    (hlanes : ∀ b' l, s'.ckf.backendLanes b' = some l → b' = b)
    (hkeep : ∀ l, s.ckf.backendLanes b = some l → s'.ckf.backendLanes b = some l)
    (hgiven : ∃ l, p.lane = some l ∧ s'.ckf.backendLanes b = some l)
    (hcopies : copiesOf H s'.ckf b x = copiesOf H s.ckf b x) : Ordered H b ev x s' := by
  have hexec : executedWrites ev s' = executedWrites ev s := by rw [executedWrites, hlog, executedWrites]
  have hremain : remainingWrites s' = remainingWrites s := by
    rw [remainingWrites, hlog, hphase, flatMap_rest_update hi, remainingWrites]
  constructor
  · exact hbase
  · exact hlanes
  · rw [hphase]
    exact h.given_update hkeep hgiven
  · rw [hphase]
    refine h.logged_update (iff_of_false (hlog ▸ hi) ?_) fun j _ => by rw [hlog]
    rintro ⟨lane, ws, heq⟩
    exact hp lane ws heq
  · exact hlog ▸ h.distinct
  · rw [hphase]
    apply h.remaining_update
    rw [hrest]
    intro w hw
    exact absurd hw List.not_mem_nil
  · rw [hexec, hremain, hcopies]
    exact h.projected
  · rw [hexec, hradix]
    exact h.held
  · rw [hexec, hradix]
    exact h.unheld

omit [DecidableEq ι] in
/-- A call that is not projecting has not been executed. -/
theorem Ordered.notMem_log (h : Ordered H b ev x s) (hp : ∀ lane ws, s.phase i ≠ .projecting lane ws) :
    i ∉ s.log := by
  intro hi
  obtain ⟨lane, ws, hq⟩ := (h.logged i).1 hi
  exact hp lane ws hq

theorem Ordered.begin (h : Ordered H b ev x s) (hg : s.phase i = .start)
    (hbase : Inv (events b ev) (s.begin (events b ev) i)) :
    Ordered H b ev x (s.begin (events b ev) i) := by
  have hi : i ∉ s.log := h.notMem_log fun lane ws heq => by
    rw [hg] at heq
    cases heq
  have hstep := @begin_applyEvent ι _ (events b ev) s i (ev i) b rfl
  rcases LocalCkf.assignLane_cases b s.ckf with ⟨l, hl, heq⟩ | ⟨l, c, ha, heq⟩ | ⟨hnone, hfree, _⟩
  · -- the backend has its lane already
    rw [hstep, heq] at hbase ⊢
    exact h.advance hbase rfl rfl rfl hi (fun _ _ => nofun) rfl h.lanes (fun _ hm => hm)
      ⟨l, rfl, hl⟩ rfl
  · -- the first call to begin
    rw [hstep, heq] at hbase ⊢
    refine h.advance hbase rfl rfl rfl hi (fun _ _ => nofun) rfl (fun b' m hm => ?_)
      (fun m hm => ?_) ⟨l, rfl, ?_⟩ (copiesOf_assigned ha)
    · by_contra hb'
      have hm : c.backendLanes b' = some m := hm
      rw [ha.backendLanes, Function.update_of_ne hb'] at hm
      exact hb' (h.lanes b' m hm)
    · rw [ha.fresh] at hm
      cases hm
    · exact (congrFun ha.backendLanes b).trans (Function.update_self ..)
  · -- one backend never runs out of lanes
    refine absurd hfree (h.base.bound.freeLane_ne_none (B := {b}) ?_ ?_ ?_ hnone)
    · rw [Finset.card_singleton]
      exact Nat.le_add_left 1 15
    · intro b' l hl
      exact Finset.mem_singleton.2 (h.lanes b' l hl)
    · exact Finset.mem_singleton_self b

theorem Ordered.enqueue (h : Ordered H b ev x s) (hg : s.phase i = .assigned (s.phase i).lane)
    (hbase : Inv (events b ev) (s.enqueue i)) : Ordered H b ev x (s.enqueue i) := by
  have hi : i ∉ s.log := h.notMem_log fun lane ws heq => by
    rw [hg] at heq
    cases heq
  have hstart : s.phase i ≠ .start := by
    intro heq
    rw [hg] at heq
    cases heq
  exact h.advance hbase rfl rfl rfl hi (fun _ _ => nofun) rfl h.lanes (fun _ hm => hm)
    (h.given i hstart) rfl

/-- A block is inserted at most once by events executed at most once each. -/
theorem count_executed_le (hx : StoredOnce ev x) {log : List ι} (hlog : log.Nodup) :
    (log.flatMap fun i => (ev i).laneWrites).count (.insert x) ≤ 1 := by
  obtain ⟨i, hi, hothers⟩ := hx
  -- the events other than the one that stores the block do not count
  have hzero : ∀ js : List ι, i ∉ js →
      (js.flatMap fun j => (ev j).laneWrites).count (.insert x) = 0 := by
    intro js hjs
    refine List.count_eq_zero.2 fun hmem => ?_
    obtain ⟨j, hj, hw⟩ := List.mem_flatMap.1 hmem
    exact hothers j (fun heq => hjs (heq ▸ hj)) hw
  by_cases hmem : i ∈ log
  · obtain ⟨pre, post, rfl⟩ := List.append_of_mem hmem
    obtain ⟨_, hpost, hdisjoint⟩ := List.nodup_append.1 hlog
    have hpre : i ∉ pre := fun h => hdisjoint i h i List.mem_cons_self rfl
    rw [List.flatMap_append, List.flatMap_cons, List.count_append, List.count_append,
      hzero pre hpre, hzero post (List.nodup_cons.1 hpost).1, hi]
  · rw [hzero log hmem]
    exact Nat.zero_le 1

theorem Ordered.execute (hx : StoredOnce ev x) (h : Ordered H b ev x s) {q : List ι}
    (hq : s.channel = i :: q) (hbase : Inv (events b ev) (s.execute (events b ev))) :
    Ordered H b ev x (s.execute (events b ev)) := by
  obtain ⟨lane, hqueued⟩ := h.base.queued i (hq ▸ List.mem_cons_self)
  have hi : i ∉ s.log := h.notMem_log fun lane ws heq => by
    rw [hqueued] at heq
    cases heq
  obtain ⟨l, hlane, hbound⟩ := h.given i (by rw [hqueued]; exact nofun)
  have hstep := @execute_cons ι _ (events b ev) s i q hq
  rw [hlane] at hstep
  have hckf : (s.execute (events b ev)).ckf = s.ckf := by rw [hstep]; rfl
  have hradix : (s.execute (events b ev)).radix = s.radix.applyEvent b (ev i) := by rw [hstep]; rfl
  have hlog : (s.execute (events b ev)).log = s.log ++ [i] := by rw [hstep]; rfl
  have hphase : (s.execute (events b ev)).phase =
      Function.update s.phase i (.projecting (some l) (ev i).laneWrites) := by rw [hstep]; rfl
  generalize s.execute (events b ev) = s' at *
  -- both sequences of writes grow by the event
  have hexec : executedWrites ev s' = executedWrites ev s ++ (ev i).laneWrites := by
    rw [executedWrites, hlog, List.flatMap_append, List.flatMap_cons, List.flatMap_nil,
      List.append_nil, executedWrites]
  have hremain : remainingWrites s' = remainingWrites s ++ (ev i).laneWrites := by
    rw [remainingWrites, hlog, hphase, List.flatMap_append, flatMap_rest_update hi,
      List.flatMap_cons, List.flatMap_nil, List.append_nil, Function.update_self, remainingWrites]
    rfl
  constructor
  · exact hbase
  · rw [hckf]
    exact h.lanes
  · rw [hphase]
    exact h.given_update (fun m hm => hckf ▸ hm) ⟨l, rfl, hckf ▸ hbound⟩
  · rw [hphase]
    apply h.logged_update
    · rw [hlog]
      exact iff_of_true (List.mem_append_right _ (List.mem_singleton_self i)) ⟨_, _, rfl⟩
    · intro j hji
      rw [hlog, List.mem_append, List.mem_singleton, or_iff_left hji]
  · rw [hlog]
    exact h.distinct.append (List.nodup_singleton i) (List.disjoint_singleton.2 hi)
  · rw [hphase]
    exact h.remaining_update fun w hw => hw
  · obtain ⟨done, hdone, hcopies⟩ := h.projected
    refine ⟨done, ?_, ?_⟩
    · rw [hexec, hremain, touching_append, touching_append, hdone, List.append_assoc]
    · rw [hckf]
      exact hcopies
  · intro hmem
    rw [hradix, TreeState.index_applyEvent] at hmem
    rw [hexec, List.foldl_append]
    exact KvIndex.counted_event h.held hmem
  · intro hmem
    rw [hradix, TreeState.index_applyEvent] at hmem
    rw [hexec, List.foldl_append]
    refine KvIndex.uncounted_event h.unheld (fun worker hs _ hin => ?_) hmem
    -- the block has been stored at most once
    have hle : (executedWrites ev s).foldl (countOf x) 0 ≤ 0 + _ := foldl_countOf_le
    have hone := count_executed_le hx h.distinct
    have hpos := List.count_pos_iff.2 hin
    rw [executedWrites] at hle ⊢
    omega

/-- The calls executed before and after one of them. -/
theorem log_split (h : i ∈ s.log) : ∃ post, s.log = s.executedBefore i ++ i :: post := by
  have hdrop : ∀ log : List ι, i ∈ log → ∃ post, log.dropWhile (fun j => j ≠ i) = i :: post := by
    intro log hi
    induction log with
    | nil => cases hi
    | cons j log ih =>
      by_cases hji : j = i
      · subst hji
        exact ⟨log, List.dropWhile_cons_of_neg (by simp)⟩
      · obtain ⟨post, hpost⟩ := ih ((List.mem_cons.1 hi).resolve_left (Ne.symm hji))
        exact ⟨post, (List.dropWhile_cons_of_pos (by simpa using hji)).trans hpost⟩
  obtain ⟨post, hpost⟩ := hdrop s.log h
  refine ⟨post, ?_⟩
  rw [← hpost]
  exact List.takeWhile_append_dropWhile.symm

/-- The writes that remain, split at a call, before and after a change of its phase. -/
theorem remaining_split (hi : i ∈ s.log) (hnodup : s.log.Nodup) (hlog : s'.log = s.log)
    (hphase : s'.phase = Function.update s.phase i p) :
    ∃ post, remainingWrites s = ((s.executedBefore i).flatMap fun j => (s.phase j).rest) ++
        ((s.phase i).rest ++ post) ∧
      remainingWrites s' = ((s.executedBefore i).flatMap fun j => (s.phase j).rest) ++
        (p.rest ++ post) := by
  obtain ⟨post, hsplit⟩ := log_split hi
  obtain ⟨_, hcons, hdisjoint⟩ := List.nodup_append.1 (hsplit ▸ hnodup)
  have hbefore : i ∉ s.executedBefore i := fun h => hdisjoint i h i List.mem_cons_self rfl
  refine ⟨post.flatMap fun j => (s.phase j).rest, ?_, ?_⟩
  · rw [remainingWrites, hsplit, List.flatMap_append, List.flatMap_cons]
  · rw [remainingWrites, hlog, hsplit, hphase, List.flatMap_append, List.flatMap_cons,
      flatMap_rest_update hbefore, flatMap_rest_update (List.nodup_cons.1 hcons).1,
      Function.update_self]

/-- The lane of the backend counts the write. -/
theorem copiesOf_write (hS : NoCollision H S) {c : LocalCkf} {l : LocalLane} {w : LaneWrite}
    (hwS : w.In S) (hxS : x ∈ S) (hbound : c.backendLanes b = some l)
    (hactive : c.laneStatus l = .active) (hok : LocalCkf.InsertOk H l c w) :
    copiesOf H (c.write H l w) b x = countOf x (copiesOf H c b x) w := by
  have hbound' : (c.write H l w).backendLanes b = some l := by
    rw [(LocalCkf.write_sameBindings (H := H) hactive w).backendLanes, hbound]
  rw [copiesOf_some hbound', copiesOf_some hbound, LocalCkf.write_lane hactive]
  exact laneCopies_write hS hwS hxS (LocalCkf.insertOk_lane hactive hok)

theorem Ordered.write (hS : NoCollision H S) (hev : ∀ i, ∀ y ∈ (ev i).hashes, y ∈ S) (hxS : x ∈ S)
    (h : Ordered H b ev x s) (hg : (s.phase i).rest ≠ []) (hok : InsertsOk H s (.write i))
    (hord : InOrder x s (.write i)) (hbase : Inv (events b ev) (s.write H i)) :
    Ordered H b ev x (s.write H i) := by
  obtain ⟨e, b', l, w, ws, hcall, hphase, hbound, hactive⟩ := h.base.writing hg
  cases hcall
  have hsame := LocalCkf.write_sameBindings (H := H) hactive w
  have hmem : i ∈ s.log := (h.logged i).2 ⟨_, _, hphase⟩
  have hrest : (s.phase i).rest = w :: ws := by rw [hphase]; rfl
  have hlane : (s.phase i).lane = some l := by rw [hphase]; rfl
  -- the write is one of the event's, and the lane counts it
  have hwS : w.In S := KvIndex.laneWrites_in (hev i) w
    (h.remaining i w (hrest ▸ List.mem_cons_self))
  have hinsert : LocalCkf.InsertOk H l s.ckf w :=
    hok l (hlane ▸ rfl) w (hrest ▸ rfl)
  have hcopies := copiesOf_write hS hwS hxS hbound hactive hinsert
  have hstep := write_projecting (H := H) hphase
  have hckf : (s.write H i).ckf = s.ckf.write H l w := by rw [hstep]; rfl
  have hradix : (s.write H i).radix = s.radix := by rw [hstep]; rfl
  have hlog : (s.write H i).log = s.log := by rw [hstep]; rfl
  have hphase' : (s.write H i).phase = Function.update s.phase i (.projecting (some l) ws) := by
    rw [hstep]
    rfl
  generalize s.write H i = s' at *
  have hlanes : s'.ckf.backendLanes = s.ckf.backendLanes := by rw [hckf, hsame.backendLanes]
  have hexec : executedWrites ev s' = executedWrites ev s := by
    rw [executedWrites, hlog, executedWrites]
  constructor
  · exact hbase
  · rw [hlanes]
    exact h.lanes
  · rw [hphase']
    exact h.given_update (fun m hm => hlanes ▸ hm) ⟨l, rfl, hlanes ▸ hbound⟩
  · rw [hphase']
    exact h.logged_update (iff_of_true (hlog ▸ hmem) ⟨_, _, rfl⟩) fun j _ => by rw [hlog]
  · rw [hlog]
    exact h.distinct
  · rw [hphase']
    exact h.remaining_update fun v hv => h.remaining i v (hrest ▸ List.mem_cons_of_mem w hv)
  · obtain ⟨done, hdone, hcount⟩ := h.projected
    obtain ⟨post, hbefore, hafter⟩ := remaining_split hmem h.distinct hlog hphase'
    rw [hbefore, hrest] at hdone
    have hfirst : w.Touches x →
        touching x ((s.executedBefore i).flatMap fun j => (s.phase j).rest) = [] := by
      intro hw
      refine touching_eq_nil fun v hv => ?_
      obtain ⟨j, hj, hv⟩ := List.mem_flatMap.1 hv
      exact hord w (hrest ▸ rfl) hw j hj v hv
    obtain ⟨done', hdone', hcount'⟩ := touching_perform hdone hfirst
    refine ⟨done', ?_, ?_⟩
    · rw [hexec, hafter]
      exact hdone'
    · rw [hckf, hcopies, hcount, hcount']
  · rw [hexec, hradix]
    exact h.held
  · rw [hexec, hradix]
    exact h.unheld

omit [DecidableEq ι] in
/-- Events never unassign a lane. -/
theorem undisturbed_events (s : KvCalls ι) (l : Label ι) : Undisturbed (events b ev) s l := by
  cases l with
  | begin i => exact fun _ h => by cases h
  | enqueue _ => trivial
  | execute => trivial
  | write _ => trivial

theorem Ordered.step (hS : NoCollision H S) (hev : ∀ i, ∀ y ∈ (ev i).hashes, y ∈ S) (hxS : x ∈ S)
    (hx : StoredOnce ev x) (h : Ordered H b ev x s) (l : Label ι) (hg : guard l s)
    (hok : InsertsOk H s l) (hord : InOrder x s l) :
    Ordered H b ev x (update H (events b ev) l s) := by
  have hbase := h.base.step (H := H) l hg (undisturbed_events s l)
  cases l with
  | begin i => exact h.begin hg hbase
  | enqueue i => exact h.enqueue hg hbase
  | execute =>
    obtain ⟨i, q, hq⟩ := List.exists_cons_of_ne_nil hg
    exact h.execute hx hq hbase
  | write i => exact h.write hS hev hxS hg hok hord hbase

/-- The lane holds a block if it has copies of it. -/
theorem present_iff {c : LocalCkf} : Present H c b x ↔ 0 < copiesOf H c b x := by
  cases hb : c.backendLanes b with
  | none =>
    rw [copiesOf_none hb]
    refine iff_of_false ?_ (lt_irrefl 0)
    rintro ⟨l, hl, _⟩
    have hl : c.backendLanes b = some l := hl
    rw [hb] at hl
    cases hl
  | some l =>
    rw [copiesOf_some hb, laneCopies_pos]
    constructor
    · rintro ⟨m, hm, hholds⟩
      have hm : c.backendLanes b = some m := hm
      rw [hb, Option.some_inj] at hm
      exact hm ▸ hholds
    · intro hholds
      exact ⟨l, hb, hholds⟩

omit [DecidableEq ι] in
/-- A call that has returned has no writes left. -/
theorem rest_of_returned (h : (s.phase i).Returned) : (s.phase i).rest = [] := by
  cases hphase : s.phase i with
  | start | assigned | queued => rfl
  | projecting lane ws =>
    rw [hphase] at h
    exact h

omit [DecidableEq ι] in
/-- Once no write remains, the lane holds the block exactly if the tree does. -/
theorem Ordered.agree (h : Ordered H b ev x s) (hall : ∀ i, (s.phase i).Returned) :
    x ∈ s.radix.index.blocks b ↔ Present H s.ckf b x := by
  have hremain : remainingWrites s = [] :=
    List.flatMap_eq_nil_iff.2 fun i _ => rest_of_returned (hall i)
  obtain ⟨done, hdone, hcopies⟩ := h.projected
  have hempty : touching x ([] : List LaneWrite) = [] := rfl
  -- everything executed has been projected, so the lane has as many copies as were counted
  rw [hremain, hempty, List.append_nil] at hdone
  rw [← hdone, foldl_countOf_touching] at hcopies
  rw [present_iff, hcopies]
  constructor
  · exact h.held
  · intro hpos
    by_contra hnot
    rw [h.unheld hnot] at hpos
    exact absurd hpos (lt_irrefl 0)

end Steps

/-- Any number of events of one backend run concurrently; one of them stores a
block, once, and any number may remove or clear it. In every interleaving whose
insertions succeed and whose writes about the block happen in the order in which
the worker executed the events, the tree and the lane agree on the block once all
calls have returned. -/
theorem agree_of_inOrder (H : Xxh3) (b : BackendId) (ev : ι → KvCacheEvent) {x : BlockHash}
    (hS : NoCollision H {y | ∃ i, y ∈ (ev i).hashes}) (hx : StoredOnce ev x) :
    ∀ s, ((system H (events b ev)).restrict fun s l => InsertsOk H s l ∧ InOrder x s l).Reachable s →
      (∀ i, (s.phase i).Returned) → (x ∈ s.radix.index.blocks b ↔ Present H s.ckf b x) := by
  intro s hs hall
  have hxS : x ∈ {y | ∃ i, y ∈ (ev i).hashes} := by
    obtain ⟨i, hcount, _⟩ := hx
    have hpos : 0 < (ev i).laneWrites.count (.insert x) := by omega
    exact ⟨i, KvIndex.mem_hashes_of_mem_laneWrites (List.count_pos_iff.1 hpos) (Or.inl rfl)⟩
  have hordered : Ordered H b ev x s := by
    refine Lts.invariant (P := Ordered H b ev x)
      (S := (system H (events b ev)).restrict fun s l => InsertsOk H s l ∧ InOrder x s l) ?_ ?_ s hs
    · rintro _ rfl
      exact ordered_new
    · intro s l h hg
      exact h.step hS (fun i y hy => ⟨i, hy⟩) hxS hx l hg.1 hg.2.1 hg.2.2
  exact hordered.agree hall

/-! Two events of one backend, a block stored and the same block removed. The
worker executes them in this order. -/

def storeAndRemove : Fin 2 → KvCacheEvent
  | 0 => .stored ⟨1, 0⟩ [1] none []
  | 1 => .removed ⟨1, 0⟩ [1]

/-- Both commands are executed before either call resumes. -/
def bothExecuted : List (Label (Fin 2)) :=
  [.begin 0, .begin 1, .enqueue 0, .enqueue 1, .execute, .execute]

/-- The calls of the example. -/
abbrev twoEvents : Lts (KvCalls (Fin 2)) (Label (Fin 2)) :=
  system .short (events KvIndex.someBackend storeAndRemove)

/-- Projected in the worker's order, the block is gone from both structures. -/
theorem agree_of_inOrder_twoEvents :
    1 ∈ (twoEvents.run new (bothExecuted ++ [.write 0, .write 1])).radix.index.blocks
        KvIndex.someBackend ↔
      Present .short (twoEvents.run new (bothExecuted ++ [.write 0, .write 1])).ckf
        KvIndex.someBackend 1 := by
  have hS : NoCollision .short {y | ∃ i, y ∈ (storeAndRemove i).hashes} := by
    have hone : ∀ y, (∃ i, y ∈ (storeAndRemove i).hashes) → y = 1 := by
      rintro y ⟨i, hi⟩
      match i with
      | 0 => exact List.mem_singleton.1 hi
      | 1 => exact List.mem_singleton.1 hi
    intro y hy z hz _
    rw [hone y hy, hone z hz]
  have hx : StoredOnce storeAndRemove 1 := by
    refine ⟨0, by decide, fun j hj => ?_⟩
    match j with
    | 0 => exact absurd rfl hj
    | 1 => decide
  have henabled : (twoEvents.restrict fun s l => InsertsOk .short s l ∧ InOrder 1 s l).Enabled new
      (bothExecuted ++ [.write 0, .write 1]) := by
    unfold Lts.Enabled twoEvents system Lts.restrict
    decide +kernel
  have hreach := Lts.Reachable.run (.init rfl) henabled
  exact agree_of_inOrder .short KvIndex.someBackend storeAndRemove hS hx _ hreach (by decide +kernel)

/-- Projected in the other order, the tree has forgotten the block and the lane
keeps it. -/
theorem not_agree_reordered :
    twoEvents.Enabled new (bothExecuted ++ [.write 1, .write 0]) ∧
    Run.Each (fun s l => twoEvents.update l s) (InsertsOk .short) new
      (bothExecuted ++ [.write 1, .write 0]) ∧
    (∀ i, ((twoEvents.run new (bothExecuted ++ [.write 1, .write 0])).phase i).Returned) ∧
    ¬ (1 ∈ (twoEvents.run new (bothExecuted ++ [.write 1, .write 0])).radix.index.blocks
        KvIndex.someBackend ↔
      Present .short (twoEvents.run new (bothExecuted ++ [.write 1, .write 0])).ckf
        KvIndex.someBackend 1) := by
  refine ⟨?_, ?_, by decide +kernel, fun h => ?_⟩
  · unfold Lts.Enabled twoEvents system
    decide +kernel
  · unfold twoEvents system
    decide +kernel
  · have hroot : (twoEvents.run new (bothExecuted ++ [.write 1, .write 0])).radix.root.children.length
        = 0 := by
      decide +kernel
    refine TreeState.notMem_blocks_of_childless (List.length_eq_zero_iff.1 hroot) 1 (h.2 ?_)
    exact ⟨0, by decide +kernel, by decide +kernel⟩

end KvCalls

end HierKvGateway
