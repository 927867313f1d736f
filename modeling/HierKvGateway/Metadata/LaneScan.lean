import HierKvGateway.Lib.LastWrite
import HierKvGateway.Lib.LeadingRun
import HierKvGateway.Metadata.Overlap

/-!
# Metadata.LaneScan — all lanes in one scan

`estimate_all_overlaps` probes all active lanes hash by hash and stops at the first hash that no
lane has. For each lane it counts the hits up to there, while `estimate_overlap` stops at the first
miss of the lane.

* `LocalCkf.scan_agrees_iff`: the counts agree for a lane without late hits;
* `KvIndex.batch_keeps_iff`: the batched query of the index reads lanes only, so it loses the
  backends without a lane, for which the single query reads the tree.
-/

namespace HierKvGateway

namespace LocalCkf

/-- The active lanes, in order. -/
def activeLanes (c : LocalCkf) : List LocalLane :=
  (List.finRange localLaneCount).filter fun l => c.laneStatus l = .active

/-- Probe some lanes for one hash: the overlap of each lane that has it is raised by one. The flag
tells whether any lane has it. -/
def scanRow (H : Xxh3) (c : LocalCkf) (hash : BlockHash) (lanes : List LocalLane)
    (overlaps : LocalLane → Nat) : (LocalLane → Nat) × Bool :=
  lanes.foldl
    (fun s lane =>
      if laneContains H (c.lane lane) hash then
        (Function.update s.1 lane (s.1 lane + 1), true)
      else s)
    (overlaps, false)

/-- Probe the lanes for one hash after the other, up to one that no lane has. -/
def scan (H : Xxh3) (c : LocalCkf) (lanes : List LocalLane) :
    List BlockHash → (LocalLane → Nat) → LocalLane → Nat
  | [], overlaps => overlaps
  | hash :: hashes, overlaps =>
    let (overlaps, anyHit) := c.scanRow H hash lanes overlaps
    if anyHit then scan H c lanes hashes overlaps else overlaps

/-- The overlaps of all active lanes. -/
def estimateAllOverlaps (H : Xxh3) (hashes : List BlockHash) (c : LocalCkf) :
    List (LocalLane × Nat) :=
  let lanes := c.activeLanes
  if lanes.isEmpty then []
  else
    let overlaps := scan H c lanes hashes fun _ => 0
    lanes.map fun lane => (lane, overlaps lane)

/-- The backend bound to a lane, if any. -/
def backendOfLane (c : LocalCkf) (l : LocalLane) : Option BackendId := c.laneBackends l

/-- Some active lane has the hash. -/
def anyContains (H : Xxh3) (c : LocalCkf) (hash : BlockHash) : Bool :=
  c.activeLanes.any fun l => laneContains H (c.lane l) hash

/-- If each hash before one that the lane has is in some active lane, it is in this lane. -/
def NoLateHit (H : Xxh3) (c : LocalCkf) (hashes : List BlockHash) (l : LocalLane) : Prop :=
  LeadingRun.Gapless (laneContains H (c.lane l)) (c.anyContains H) hashes

section Scan

variable {H : Xxh3} {c : LocalCkf} {hash : BlockHash} {lanes : List LocalLane} {l : LocalLane}

theorem mem_activeLanes : l ∈ c.activeLanes ↔ c.laneStatus l = .active := by
  unfold activeLanes
  rw [List.mem_filter, decide_eq_true_iff]
  exact and_iff_right (List.mem_finRange l)

theorem nodup_activeLanes : c.activeLanes.Nodup := (List.nodup_finRange _).filter _

theorem any_scanRow (overlaps : LocalLane → Nat) :
    (c.scanRow H hash lanes overlaps).2 = lanes.any fun m => laneContains H (c.lane m) hash := by
  suffices h : ∀ s : (LocalLane → Nat) × Bool,
      (lanes.foldl (fun s lane =>
        if laneContains H (c.lane lane) hash then
          (Function.update s.1 lane (s.1 lane + 1), true)
        else s) s).2 = (s.2 || lanes.any fun m => laneContains H (c.lane m) hash) by
    exact (h (overlaps, false)).trans (Bool.false_or _)
  intro s
  induction lanes generalizing s with
  | nil => exact (Bool.or_false s.2).symm
  | cons lane lanes ih =>
    rw [List.foldl_cons, ih, List.any_cons]
    cases laneContains H (c.lane lane) hash with
    | true => simp
    | false => rfl

/-- A row raises the overlap of a lane at most once. -/
theorem scanRow_apply (hnodup : lanes.Nodup) (overlaps : LocalLane → Nat) :
    (c.scanRow H hash lanes overlaps).1 l =
      overlaps l + if l ∈ lanes ∧ laneContains H (c.lane l) hash = true then 1 else 0 := by
  suffices h : ∀ s : (LocalLane → Nat) × Bool,
      (lanes.foldl (fun s lane =>
        if laneContains H (c.lane lane) hash then
          (Function.update s.1 lane (s.1 lane + 1), true)
        else s) s).1 l =
        s.1 l + if l ∈ lanes ∧ laneContains H (c.lane l) hash = true then 1 else 0 by
    exact h (overlaps, false)
  intro s
  induction lanes generalizing s with
  | nil => simp
  | cons lane lanes ih =>
    rcases List.nodup_cons.1 hnodup with ⟨hnot, hrest⟩
    rw [List.foldl_cons, ih hrest]
    by_cases hl : l = lane
    · subst hl
      by_cases hhit : laneContains H (c.lane l) hash = true
      · simp [hhit, hnot]
      · simp [hhit]
    · by_cases hhit : laneContains H (c.lane lane) hash = true
      · simp [hhit, hl]
      · simp [hhit, hl]

/-- What the scan counts for one of its lanes. -/
theorem scan_eq_tally (hnodup : lanes.Nodup) (hl : l ∈ lanes) (hashes : List BlockHash)
    (overlaps : LocalLane → Nat) :
    scan H c lanes hashes overlaps l =
      overlaps l + LeadingRun.tally (laneContains H (c.lane l))
        (fun hash => lanes.any fun m => laneContains H (c.lane m) hash) hashes := by
  induction hashes generalizing overlaps with
  | nil => rfl
  | cons hash hashes ih =>
    have hrow : (c.scanRow H hash lanes overlaps).1 l =
        overlaps l + if laneContains H (c.lane l) hash = true then 1 else 0 := by
      rw [scanRow_apply hnodup]
      simp only [hl, true_and]
    unfold scan
    dsimp only
    rw [any_scanRow, LeadingRun.tally_cons]
    split
    · rw [ih, hrow]
      omega
    · -- no lane has the hash, this one included
      rename_i hany
      have hmiss : ¬laneContains H (c.lane l) hash = true := by
        intro hhit
        exact hany (List.any_eq_true.2 ⟨l, hl, hhit⟩)
      rw [hrow, if_neg hmiss]

theorem prefixHits_eq_lead (hit : BlockHash → Bool) (hashes : List BlockHash) :
    prefixHits hit hashes = LeadingRun.lead hit hashes := by
  induction hashes with
  | nil => rfl
  | cons hash hashes ih => rw [prefixHits, LeadingRun.lead_cons, ih]

/-- The pairs returned: one for each active lane. -/
theorem mem_estimateAllOverlaps {hashes : List BlockHash} {n : Nat} :
    (l, n) ∈ c.estimateAllOverlaps H hashes ↔
      c.laneStatus l = .active ∧
        n = LeadingRun.tally (laneContains H (c.lane l)) (c.anyContains H) hashes := by
  rw [← mem_activeLanes]
  unfold estimateAllOverlaps
  dsimp only
  split
  · rename_i hempty
    rw [List.isEmpty_iff.1 hempty]
    simp
  · rw [List.mem_map]
    constructor
    · rintro ⟨m, hm, heq⟩
      rcases Prod.mk.inj heq with ⟨rfl, rfl⟩
      refine ⟨hm, ?_⟩
      rw [scan_eq_tally nodup_activeLanes hm, Nat.zero_add]
      rfl
    · rintro ⟨hl, rfl⟩
      refine ⟨l, hl, ?_⟩
      rw [scan_eq_tally nodup_activeLanes hl, Nat.zero_add]
      rfl

theorem contains_any (hactive : c.laneStatus l = .active) (hash : BlockHash)
    (hhit : laneContains H (c.lane l) hash = true) : c.anyContains H hash = true :=
  List.any_eq_true.2 ⟨l, mem_activeLanes.2 hactive, hhit⟩

theorem estimateOverlap_eq_lead (hactive : c.laneStatus l = .active) (hashes : List BlockHash) :
    c.estimateOverlap H hashes l = LeadingRun.lead (laneContains H (c.lane l)) hashes := by
  rw [estimateOverlap_active hactive, prefixHits_eq_lead]

end Scan

/-- In every state, the scan returns one pair for each active lane. Its count is the overlap of the
lane exactly if the lane has no late hits. -/
theorem scan_agrees_iff (H : Xxh3) (c : LocalCkf) (hashes : List BlockHash) (l : LocalLane)
    (hactive : c.laneStatus l = .active) :
    (∃! n, (l, n) ∈ c.estimateAllOverlaps H hashes) ∧
      ∀ n, (l, n) ∈ c.estimateAllOverlaps H hashes →
        (n = c.estimateOverlap H hashes l ↔ c.NoLateHit H hashes l) := by
  constructor
  · refine ⟨_, mem_estimateAllOverlaps.2 ⟨hactive, rfl⟩, ?_⟩
    intro n hn
    exact (mem_estimateAllOverlaps.1 hn).2
  · intro n hn
    rw [(mem_estimateAllOverlaps.1 hn).2, estimateOverlap_eq_lead hactive]
    exact LeadingRun.tally_eq_lead_iff (contains_any hactive) hashes

/-- Two backends: the first has blocks 1 and 2, the second has block 2 only. -/
def lateHit : LocalCkf :=
  let c := (assignLane ⟨⟨"eu"⟩, ⟨"b"⟩⟩ (assignLane ⟨⟨"eu"⟩, ⟨"a"⟩⟩ new).1).1
  let c := (c.insert .short 1 0).1
  let c := (c.insert .short 2 0).1
  (c.insert .short 2 1).1

/-- The first lane has both blocks of a sequence; the second has the first block of another one,
which goes on with a block that no lane has. -/
theorem scan_agrees_both_lanes :
    lateHit.NoLateHit .short [1, 2] 0 ∧ lateHit.NoLateHit .short [2, 3, 1] 1 := by
  have hfirst := (scan_agrees_iff .short lateHit [1, 2] 0 (by decide +kernel)).2 2
    (by decide +kernel)
  have hsecond := (scan_agrees_iff .short lateHit [2, 3, 1] 1 (by decide +kernel)).2 1
    (by decide +kernel)
  exact ⟨hfirst.1 (by decide +kernel), hsecond.1 (by decide +kernel)⟩

/-- The second lane is said to have a block of the sequence, though its prefix is empty. -/
theorem scan_disagrees :
    ¬∀ (H : Xxh3) (c : LocalCkf) (hashes : List BlockHash) (l : LocalLane),
      c.laneStatus l = .active → ∀ n, (l, n) ∈ c.estimateAllOverlaps H hashes →
        n = c.estimateOverlap H hashes l := by
  intro h
  have hbad := h .short lateHit [1, 2] 1 (by decide +kernel) 1 (by decide +kernel)
  exact absurd hbad (by decide +kernel)

end LocalCkf

/-! ## The batched query of the index -/

namespace KvIndex

/-- Overlaps of all backends: one scan, with the backend of each lane looked up. -/
def kvFindAllLocalOverlap (H : Xxh3) (hashes : List BlockHash) (k : KvIndex) :
    BackendId → Option Nat :=
  let laneResults := k.localCkf.estimateAllOverlaps H hashes
  LastWrite.apply (fun _ => none) (laneResults.filterMap fun (lane, overlap) =>
    (k.localCkf.backendOfLane lane).map fun backend => (backend, overlap))

/-- What the single query finds for a backend, the batched one reports with a positive overlap. -/
def BatchKeeps (H : Xxh3) (k : KvIndex) (hashes : List BlockHash) (b : BackendId) : Prop :=
  0 < k.kvFindLocalOverlap H hashes b →
    ∃ n, k.kvFindAllLocalOverlap H hashes b = some n ∧ 0 < n

/-- The backend of an event has a lane, or some lane is not bound. -/
def LaneLeft (k : KvIndex) : KvOp → Prop
  | .applyEvent _ backend =>
    k.localCkf.laneOf backend ≠ none ∨ ∃ l, k.localCkf.backendOfLane l = none
  | .removeBackend _ => True

section Batch

variable {H : Xxh3} {k : KvIndex} {b : BackendId} {l : LocalLane} {hashes : List BlockHash}

/-- The batched query reports the backends with a lane. -/
theorem kvFindAllLocalOverlap_eq (hbound : k.localCkf.Bound) :
    k.kvFindAllLocalOverlap H hashes b =
      (k.localCkf.laneOf b).map fun l =>
        LeadingRun.tally (laneContains H (k.localCkf.lane l)) (k.localCkf.anyContains H)
          hashes := by
  have hpairs : ∀ b' n, (b', n) ∈ (k.localCkf.estimateAllOverlaps H hashes).filterMap
      (fun (lane, overlap) =>
        (k.localCkf.backendOfLane lane).map fun backend => (backend, overlap)) ↔
      ∃ l, k.localCkf.backendLanes b' = some l ∧
        n = LeadingRun.tally (laneContains H (k.localCkf.lane l)) (k.localCkf.anyContains H)
          hashes := by
    intro b' n
    rw [List.mem_filterMap]
    constructor
    · rintro ⟨⟨l, n'⟩, hmem, heq⟩
      rcases Option.map_eq_some_iff.1 heq with ⟨b'', hb, hpair⟩
      rcases Prod.mk.inj hpair with ⟨rfl, rfl⟩
      exact ⟨l, (hbound.inverse _ l).2 hb, (LocalCkf.mem_estimateAllOverlaps.1 hmem).2⟩
    · rintro ⟨l, hl, rfl⟩
      refine ⟨(l, _), LocalCkf.mem_estimateAllOverlaps.2 ⟨hbound.active_of_laneOf hl, rfl⟩, ?_⟩
      apply Option.map_eq_some_iff.2
      exact ⟨b', (hbound.inverse b' l).1 hl, rfl⟩
  -- no two lanes have the same backend, so no pair overwrites another
  ext n
  unfold kvFindAllLocalOverlap
  dsimp only
  rw [LastWrite.apply_empty_eq_some, hpairs, Option.map_eq_some_iff]
  · constructor
    · rintro ⟨l, hl, rfl⟩
      exact ⟨l, hl, rfl⟩
    · rintro ⟨l, hl, rfl⟩
      exact ⟨l, hl, rfl⟩
  · intro b' n n' hn hn'
    rcases (hpairs b' n).1 hn with ⟨l, hl, rfl⟩
    rcases (hpairs b' n').1 hn' with ⟨l', hl', rfl⟩
    rw [hl] at hl'
    rcases Option.some.inj hl' with rfl
    rfl

/-- A backend with a lane is not lost. -/
theorem batchKeeps_of_lane (hbound : k.localCkf.Bound) (hl : k.localCkf.laneOf b = some l) :
    BatchKeeps H k hashes b := by
  intro hpos
  rw [kvFindLocalOverlap_of_lane hbound hl, LocalCkf.prefixHits_eq_lead] at hpos
  refine ⟨_, ?_, Nat.lt_of_lt_of_le hpos (LeadingRun.lead_le_tally
    (LocalCkf.contains_any (hbound.active_of_laneOf hl)) hashes)⟩
  rw [kvFindAllLocalOverlap_eq hbound, hl]
  rfl

/-- A backend without a lane is not reported. -/
theorem notReported_of_unbound (hbound : k.localCkf.Bound) (hb : k.localCkf.laneOf b = none) :
    k.kvFindAllLocalOverlap H hashes b = none := by
  rw [kvFindAllLocalOverlap_eq hbound, hb]
  rfl

end Batch

/-! ## Runs with a lane for every backend -/

section Runs

variable {H : Xxh3} {k : KvIndex} {b : BackendId}

/-- An event of a backend that has lane `l`: the bindings stay. -/
theorem applied_bindings {e : KvCacheEvent} {l : LocalLane} (hbound : k.localCkf.Bound)
    (hl : k.localCkf.backendLanes b = some l) :
    LocalCkf.SameBindings l k.localCkf (applied H l e b k).localCkf :=
  (LocalCkf.writes_spec (hbound.active_of_laneOf hl) e.laneWrites).1

/-- The bindings after an operation: those of `assign_lane` or `unassign_lane` alone. -/
theorem bound_apply (h : k.localCkf.Bound) (op : KvOp) : (op.apply H k).localCkf.Bound := by
  cases op with
  | applyEvent e b =>
    have hassigned := h.assign b
    show (k.kvApplyEvent H e b).localCkf.Bound
    cases hlane : k.localCkf.assignLane b with
    | mk c lane =>
      rw [hlane] at hassigned
      cases lane with
      | none =>
        rw [kvApplyEvent, hlane]
        exact hassigned
      | some l =>
        have hl : c.backendLanes b = some l := by
          have hself : (k.localCkf.assignLane b).1.backendLanes b = some l := by
            apply LocalCkf.backendLanes_assignLane_self
            rw [hlane]
          rwa [hlane] at hself
        rw [kvApplyEvent_eq hlane]
        exact hassigned.same (applied_bindings (k := ⟨k.radix, c⟩) hassigned hl)
  | removeBackend b => exact h.unassign b

theorem bound_run (ops : List KvOp) : (run H ops).localCkf.Bound :=
  Run.foldl_preserves (P := fun k : KvIndex => k.localCkf.Bound) (fun _ op h => bound_apply h op)
    LocalCkf.Bound.new ops

/-- Backends without a lane hold nothing in the tree. -/
structure Laned (k : KvIndex) : Prop where
  bound : k.localCkf.Bound
  held : ∀ b, k.localCkf.backendLanes b = none → k.radix.index b = ∅

theorem laned_new : Laned new := by
  constructor
  · exact LocalCkf.Bound.new
  · intro b _
    exact congrFun TreeState.index_new b

theorem index_applyEvent_of_ne {t : TreeState} {b' : BackendId} (hne : b' ≠ b)
    (e : KvCacheEvent) : (t.applyEvent b e).index b' = t.index b' := by
  rw [TreeState.index_applyEvent]
  cases e with
  | stored worker hashes parent tokens => exact Function.update_of_ne hne _ _
  | removed worker hashes => exact Function.update_of_ne hne _ _
  | clear worker => exact Function.update_of_ne hne _ _
  | reset worker generation => exact Function.update_of_ne hne _ _

theorem Laned.step (h : Laned k) {op : KvOp} (hop : LaneLeft k op) : Laned (op.apply H k) := by
  refine ⟨bound_apply h.bound op, ?_⟩
  intro b' hb'
  cases op with
  | applyEvent e b =>
    have hassigned : ∃ l c, k.localCkf.assignLane b = (c, some l) ∧ c.Bound ∧
        c.backendLanes b = some l ∧
        ∀ b', c.backendLanes b' = none → k.localCkf.backendLanes b' = none := by
      have hkept := h.bound.assign b
      rcases LocalCkf.assignLane_cases b k.localCkf with
        ⟨l, hl, heq⟩ | ⟨l, c, ha, heq⟩ | ⟨hnone, hfull, -⟩
      · exact ⟨l, k.localCkf, heq, h.bound, hl, fun _ h => h⟩
      · refine ⟨l, c, heq, ?_, ?_, ?_⟩
        · rwa [heq] at hkept
        · rw [ha.backendLanes, Function.update_self]
        · intro b' hb'
          rw [ha.backendLanes] at hb'
          rcases Function.update_cases hb' with ⟨-, hsome⟩ | ⟨-, hb'⟩
          · exact absurd hsome (Option.some_ne_none l)
          · exact hb'
      · -- there was a lane left
        rcases hop with hlane | ⟨l, hfree⟩
        · exact absurd hnone hlane
        · exact absurd hfree (LocalCkf.freeLane_none hfull l)
    -- the event only adds to what its own backend holds, and that has a lane now
    rcases hassigned with ⟨l, c, heq, hc, hl, hback⟩
    have happly : (KvOp.applyEvent e b).apply H k = applied H l e b ⟨k.radix, c⟩ :=
      kvApplyEvent_eq heq
    rw [happly] at hb' ⊢
    rw [(applied_bindings (k := ⟨k.radix, c⟩) hc hl).backendLanes] at hb'
    have hne : b' ≠ b := by
      rintro rfl
      rw [hl] at hb'
      exact Option.some_ne_none l hb'
    exact (index_applyEvent_of_ne hne e).trans (h.held b' (hback b' hb'))
  | removeBackend b =>
    have hindex : ((KvOp.removeBackend b).apply H k).radix.index = k.radix.index.clear b :=
      TreeState.index_removeBackend
    rw [hindex]
    unfold PrefixIndex.clear
    by_cases hb : b' = b
    · rw [hb, Function.update_self]
    · rw [Function.update_of_ne hb]
      apply h.held
      rw [← LocalCkf.backendLanes_unassignLane_of_ne hb]
      exact hb'

/-- The tree has nothing to say of a backend that holds nothing. -/
theorem findMatches_of_index {t : TreeState} (h : t.index b = ∅) (hashes : List BlockHash) :
    t.findMatches hashes b = 0 := by
  by_contra hne
  have hheld := (TreeState.le_findMatches_iff.1 (Nat.pos_of_ne_zero hne)).2 0 (Nat.zero_lt_one)
  rw [h] at hheld
  exact hheld

theorem Laned.batchKeeps (h : Laned k) (hashes : List BlockHash) (b : BackendId) :
    BatchKeeps H k hashes b := by
  cases hb : k.localCkf.laneOf b with
  | some l => exact batchKeeps_of_lane h.bound hb
  | none =>
    intro hpos
    unfold kvFindLocalOverlap at hpos
    rw [hb] at hpos
    dsimp only at hpos
    rw [findMatches_of_index (h.held b hb)] at hpos
    exact absurd hpos (Nat.lt_irrefl 0)

end Runs

/-- In every reachable state, a backend that the single query finds is reported by the batched one
exactly if it has a lane. In a run in which there is always a lane left for the backend of an
event, no backend is lost in any state. -/
theorem batch_keeps_iff (H : Xxh3) (ops : List KvOp) :
    (∀ hashes b, 0 < (run H ops).kvFindLocalOverlap H hashes b →
      (BatchKeeps H (run H ops) hashes b ↔ (run H ops).localCkf.laneOf b ≠ none)) ∧
    (Run.Each (KvOp.apply H) LaneLeft new ops →
      Run.All (KvOp.apply H) (fun k => ∀ hashes b, BatchKeeps H k hashes b) new ops) := by
  constructor
  · intro hashes b hpos
    constructor
    · intro hkeeps hnone
      rcases hkeeps hpos with ⟨n, hn, -⟩
      rw [notReported_of_unbound (bound_run ops) hnone] at hn
      exact absurd hn.symm (Option.some_ne_none n)
    · intro hlane
      rcases Option.ne_none_iff_exists'.1 hlane with ⟨l, hl⟩
      exact batchKeeps_of_lane (bound_run ops) hl
  · intro hops
    have hlaned : Run.All (KvOp.apply H) Laned new ops :=
      Run.all_of_each (P := Laned) (C := LaneLeft) (fun k op h hop => h.step hop) laned_new hops
    exact hlaned.mono fun k h hashes b => h.batchKeeps hashes b

/-- Seventeen backends report a block each. -/
def seventeen : List KvOp :=
  (List.range 17).map fun i =>
    .applyEvent (.stored ⟨0, 0⟩ [1] none [16]) ⟨⟨"eu"⟩, ⟨String.ofList (List.replicate i 'b')⟩⟩

/-- The first backend. -/
theorem batch_keeps_first :
    0 < (run .short seventeen).kvFindLocalOverlap .short [1] ⟨⟨"eu"⟩, ⟨""⟩⟩ ∧
      BatchKeeps .short (run .short seventeen) [1] ⟨⟨"eu"⟩, ⟨""⟩⟩ := by
  have hpos : 0 < (run .short seventeen).kvFindLocalOverlap .short [1] ⟨⟨"eu"⟩, ⟨""⟩⟩ := by
    decide +kernel
  refine ⟨hpos, ((batch_keeps_iff .short seventeen).1 [1] ⟨⟨"eu"⟩, ⟨""⟩⟩ hpos).2 ?_⟩
  decide +kernel

/-- The last backend has no lane, and its block is found by the single query only. -/
theorem batch_loses :
    ¬∀ (H : Xxh3) (ops : List KvOp) (hashes : List BlockHash) (b : BackendId),
      BatchKeeps H (run H ops) hashes b := by
  intro h
  let b : BackendId := ⟨⟨"eu"⟩, ⟨"bbbbbbbbbbbbbbbb"⟩⟩
  have hpos : 0 < (run .short seventeen).kvFindLocalOverlap .short [1] b := by decide +kernel
  have hnone : (run .short seventeen).localCkf.laneOf b = none := by decide +kernel
  rcases h .short seventeen [1] b hpos with ⟨n, hn, -⟩
  rw [notReported_of_unbound (bound_run seventeen) hnone] at hn
  exact absurd hn.symm (Option.some_ne_none n)

end KvIndex

end HierKvGateway
