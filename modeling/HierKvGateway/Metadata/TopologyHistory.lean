import HierKvGateway.Lib.Run
import HierKvGateway.Metadata.TopologyGraph

/-!
# Metadata.TopologyHistory — latencies of removed Regions

The calls that change the topology graph, with the calls so far as a ghost.
`remove_region` says that it cleans up the latency entries of the Region too, and
takes the Region out of the table of Regions only: what was measured before the
removal is answered after it, and is back in use when the Region is added again.
-/

namespace HierKvGateway

/-- A call that changes the topology graph. -/
inductive TopologyOp where
  | addRegion (info : RegionInfo)
  | updateLatency (a b : RegionId) (estimate : LatencyEstimate)
  | removeRegion (region : RegionId)

namespace TopologyOp

/-- The call measures the latency between two Regions. -/
def Updates (a b : RegionId) : TopologyOp → Prop
  | .updateLatency x y _ => x = a ∧ y = b ∨ x = b ∧ y = a
  | _ => False

/-- Among the calls, latest first: the Region `a` was removed, and the latency
between `a` and `b` has not been updated since. -/
def RemovedSince (a b : RegionId) : List TopologyOp → Prop
  | [] => False
  | op :: earlier => op = .removeRegion a ∨ ¬ op.Updates a b ∧ RemovedSince a b earlier

end TopologyOp

/-- A topology graph and the calls made so far, the latest first. -/
structure TopologyHistory where
  graph : TopologyGraph
  calls : List TopologyOp

namespace TopologyHistory

/-- An empty graph. -/
def new : TopologyHistory := ⟨.new, []⟩

/-- One call. -/
def step (s : TopologyHistory) (op : TopologyOp) : TopologyHistory :=
  let graph :=
    match op with
    | .addRegion info => s.graph.addRegion info
    | .updateLatency a b estimate => s.graph.updateLatency a b estimate
    | .removeRegion region => s.graph.removeRegion region
  ⟨graph, op :: s.calls⟩

/-- Latency is symmetric, and infinite for a Region that was removed after the last
update. -/
structure Forgets (s : TopologyHistory) : Prop where
  symm : ∀ a b, s.graph.rttMs a b = s.graph.rttMs b a
  removed : ∀ a b, a ≠ b → TopologyOp.RemovedSince a b s.calls →
    s.graph.rttMs a b = F64.infinity

/-- The Regions that are removed have no latency entries but infinite ones. -/
def NoEntries (s : TopologyHistory) : TopologyOp → Prop
  | .removeRegion a =>
    ∀ b est, b ≠ a → s.graph.entries (a, b) = some est → est.rttP50Ms = F64.infinity
  | _ => True

/-! ## The matrix -/

/-- Both directions of a pair have the same entry. -/
def SymmEntries (t : TopologyGraph) : Prop := ∀ a b, t.entries (a, b) = t.entries (b, a)

section Matrix

variable {t : TopologyGraph} {a b x y : RegionId} {estimate : LatencyEstimate}

theorem SymmEntries.updateLatency (ht : SymmEntries t) (a b : RegionId)
    (estimate : LatencyEstimate) : SymmEntries (t.updateLatency a b estimate) := by
  intro x y
  rw [TopologyGraph.entries_updateLatency, LastWrite.apply_eq, LastWrite.apply_eq,
    TopologyGraph.valuesAt_latencyWrites_swap, ht x y]

/-- The latency between two Regions is that of the entry of either direction. -/
theorem SymmEntries.rttMs (ht : SymmEntries t) (hab : a ≠ b) :
    t.rttMs a b = ((t.entries (a, b)).map (·.rttP50Ms)).getD F64.infinity := by
  rw [TopologyGraph.rttMs, if_neg hab, ← ht a b, Option.or_self]
  cases t.entries (a, b) with
  | none => rfl
  | some est => rfl

theorem SymmEntries.rttMs_comm (ht : SymmEntries t) (a b : RegionId) :
    t.rttMs a b = t.rttMs b a := by
  by_cases hab : a = b
  · rw [hab]
  · rw [ht.rttMs hab, ht.rttMs (Ne.symm hab), ht a b]

/-- An update leaves the latency of other pairs. -/
theorem SymmEntries.rttMs_updateLatency (ht : SymmEntries t) (hab : a ≠ b)
    (h : ¬ (x = a ∧ y = b ∨ x = b ∧ y = a)) :
    (t.updateLatency x y estimate).rttMs a b = t.rttMs a b := by
  rw [(ht.updateLatency x y estimate).rttMs hab, ht.rttMs hab, TopologyGraph.updateLatency]
  split
  · rfl
  · have h₁ : (a, b) ≠ (x, y) := by
      rintro ⟨⟩
      exact h (Or.inl ⟨rfl, rfl⟩)
    have h₂ : (a, b) ≠ (y, x) := by
      rintro ⟨⟩
      exact h (Or.inr ⟨rfl, rfl⟩)
    dsimp only
    rw [Function.update_of_ne h₂, Function.update_of_ne h₁]

end Matrix

/-! ## One call -/

variable {s : TopologyHistory}

theorem new_symm : SymmEntries new.graph := fun _ _ => rfl

theorem step_symm (hs : SymmEntries s.graph) (op : TopologyOp) :
    SymmEntries (step s op).graph := by
  cases op with
  | addRegion info => exact hs
  | updateLatency a b estimate => exact hs.updateLatency a b estimate
  | removeRegion region => exact hs

theorem new_forgets : Forgets new := ⟨fun a b => new_symm.rttMs_comm a b, fun _ _ _ h => h.elim⟩

theorem step_forgets_iff (hs : SymmEntries s.graph) (hf : Forgets s) (op : TopologyOp) :
    Forgets (step s op) ↔ NoEntries s op := by
  have hsymm := (step_symm hs op).rttMs_comm
  cases op with
  | addRegion info =>
    refine iff_of_true ⟨hsymm, fun a b hab hremoved => ?_⟩ trivial
    rcases hremoved with hop | ⟨_, hold⟩
    · exact absurd hop (by simp)
    · exact hf.removed a b hab hold
  | updateLatency x y estimate =>
    refine iff_of_true ⟨hsymm, fun a b hab hremoved => ?_⟩ trivial
    rcases hremoved with hop | ⟨hother, hold⟩
    · exact absurd hop (by simp)
    · exact (hs.rttMs_updateLatency hab hother).trans (hf.removed a b hab hold)
  | removeRegion region =>
    constructor
    · intro h b est hb hentry
      have hrtt := h.removed region b (Ne.symm hb) (Or.inl rfl)
      have hval := (step_symm hs (.removeRegion region)).rttMs (Ne.symm hb)
      have hstill : (step s (.removeRegion region)).graph.entries (region, b) = some est := hentry
      rw [hstill, hrtt] at hval
      exact hval.symm
    · intro h
      refine ⟨hsymm, fun a b hab hremoved => ?_⟩
      rcases hremoved with hop | ⟨_, hold⟩
      · -- the Region just removed: what entries it has are infinite
        obtain rfl := TopologyOp.removeRegion.inj hop
        have hval := (step_symm hs (.removeRegion region)).rttMs hab
        have hstill : (step s (.removeRegion region)).graph.entries (region, b) =
            s.graph.entries (region, b) := rfl
        rw [hval, hstill]
        cases hentry : s.graph.entries (region, b) with
        | none => rfl
        | some est => exact h b est (Ne.symm hab) hentry
      · exact hf.removed a b hab hold

/-- Latencies are symmetric in every state, and those of removed Regions forgotten
exactly when a Region that is removed has none that is finite. -/
theorem forgets_iff (ops : List TopologyOp) :
    Run.All step Forgets new ops ↔ Run.Each step NoEntries new ops :=
  Run.all_iff_each (D := fun _ _ => True) (J := fun s => SymmEntries s.graph)
    (fun _ op hs _ => step_symm hs op) (fun _ op hs _ hf => step_forgets_iff hs hf op) new_symm
    new_forgets (Run.each_of_forall (fun _ _ => trivial) new ops)

/-- Whatever is removed, latencies are symmetric. -/
theorem run_rttMs_comm (ops : List TopologyOp) (a b : RegionId) :
    (ops.foldl step new).graph.rttMs a b = (ops.foldl step new).graph.rttMs b a :=
  (Run.foldl_preserves (P := fun s : TopologyHistory => SymmEntries s.graph)
    (fun _ op hs => step_symm hs op) new_symm ops).rttMs_comm a b

/-- A Region is measured and removed. -/
def measuredThenRemoved : List TopologyOp :=
  -- 12.5 ms, 20 ms, 1000 Mbps
  [.updateLatency ⟨"r1"⟩ ⟨"r2"⟩ ⟨0x4029000000000000#64, 0x4034000000000000#64,
    0x408F400000000000#64, 1⟩, .removeRegion ⟨"r1"⟩]

/-- The latency is still answered. -/
theorem not_forgets_measuredThenRemoved : ¬ ∀ ops, Run.All step Forgets new ops := by
  intro h
  have hlast := (h measuredThenRemoved).2.2
  have hinf := hlast.removed ⟨"r1"⟩ ⟨"r2"⟩ (by decide) (Or.inl rfl)
  exact absurd hinf (by decide)

end TopologyHistory

end HierKvGateway
