import HierKvGateway.Core.Metrics
import HierKvGateway.Lib.LastWrite

/-!
# Metadata.TopologyGraph — Regions and the latency between them

The topology graph (`topology_graph.rs`): a table of Regions, and a table of
latency estimates in which an update of two Regions writes both directions.
-/

namespace HierKvGateway

/-- The topology graph. -/
structure TopologyGraph where
  regions : RegionId → Option RegionInfo
  /-- The entries of the latency matrix. -/
  entries : RegionId × RegionId → Option LatencyEstimate

namespace TopologyGraph

/-- `TopologyGraph::new`. -/
def new : TopologyGraph := ⟨fun _ => none, fun _ => none⟩

/-- The round-trip time between two Regions, from the entry of either direction. -/
def rttMs (t : TopologyGraph) (source target : RegionId) : F64 :=
  if source = target then F64.zero
  else
    match (t.entries (source, target)).or (t.entries (target, source)) with
    | some est => est.rttP50Ms
    | none => F64.infinity

/-- Replace the estimate for two Regions, in both directions. -/
def updateLatency (a b : RegionId) (estimate : LatencyEstimate) (t : TopologyGraph) :
    TopologyGraph :=
  if a = b then t
  else
    { t with
      entries :=
        Function.update (Function.update t.entries (a, b) (some estimate)) (b, a)
          (some estimate) }

/-- `TopologyGraph::add_region`. -/
def addRegion (info : RegionInfo) (t : TopologyGraph) : TopologyGraph :=
  { t with regions := Function.update t.regions info.id (some info) }

/-- `TopologyGraph::remove_region`. The matrix keeps its entries. -/
def removeRegion (region : RegionId) (t : TopologyGraph) : TopologyGraph :=
  { t with regions := Function.update t.regions region none }

/-- What an update writes into the matrix. -/
def latencyWrites (a b : RegionId) (estimate : LatencyEstimate) :
    List ((RegionId × RegionId) × LatencyEstimate) :=
  if a = b then [] else [((a, b), estimate), ((b, a), estimate)]

theorem entries_updateLatency (a b : RegionId) (estimate : LatencyEstimate) (t : TopologyGraph) :
    (t.updateLatency a b estimate).entries =
      LastWrite.apply t.entries (latencyWrites a b estimate) := by
  rw [updateLatency, latencyWrites]
  split
  · rfl
  · rfl

theorem regions_updateLatency (a b : RegionId) (estimate : LatencyEstimate) (t : TopologyGraph) :
    (t.updateLatency a b estimate).regions = t.regions := by
  rw [updateLatency]
  split
  · rfl
  · rfl

/-- Both directions are written alike. -/
theorem valuesAt_latencyWrites_swap (a b x y : RegionId) (estimate : LatencyEstimate) :
    LastWrite.valuesAt (x, y) (latencyWrites a b estimate) =
      LastWrite.valuesAt (y, x) (latencyWrites a b estimate) := by
  rw [latencyWrites]
  split
  · rfl
  · next hab =>
    simp only [LastWrite.valuesAt_cons, LastWrite.valuesAt_nil, Prod.mk.injEq]
    by_cases h1 : a = x ∧ b = y
    · rcases h1 with ⟨rfl, rfl⟩
      rw [if_pos ⟨rfl, rfl⟩, if_neg (fun h => hab h.1.symm), if_neg (fun h => hab h.1),
        if_pos ⟨rfl, rfl⟩]
    · by_cases h2 : a = y ∧ b = x
      · rcases h2 with ⟨rfl, rfl⟩
        rw [if_neg (fun h => hab h.1), if_pos ⟨rfl, rfl⟩, if_pos ⟨rfl, rfl⟩,
          if_neg (fun h => hab h.1.symm)]
      · rw [if_neg h1, if_neg (fun h => h2 ⟨h.2, h.1⟩), if_neg h2,
          if_neg (fun h => h1 ⟨h.2, h.1⟩)]

/-- No Region has an entry for itself. -/
theorem ne_of_mem_latencyWrites {a b x : RegionId} {estimate : LatencyEstimate}
    {w : (RegionId × RegionId) × LatencyEstimate} (hw : w ∈ latencyWrites a b estimate) :
    w.1 ≠ (x, x) := by
  intro hwx
  unfold latencyWrites at hw
  split at hw
  · contradiction
  · next hab =>
    rcases List.mem_pair.1 hw with rfl | rfl
    · exact hab (congrArg Prod.fst hwx |>.trans (congrArg Prod.snd hwx).symm)
    · exact hab (congrArg Prod.snd hwx |>.trans (congrArg Prod.fst hwx).symm)

/-- The round-trip time after some writes that treat both directions alike. -/
theorem rttMs_of_apply {t t' : TopologyGraph} {ws : List ((RegionId × RegionId) × LatencyEstimate)}
    (h : t'.entries = LastWrite.apply t.entries ws) {a b : RegionId}
    (hself : a = b → LastWrite.valuesAt (a, b) ws = [])
    (hswap : LastWrite.valuesAt (a, b) ws = LastWrite.valuesAt (b, a) ws) :
    t'.rttMs a b =
      (((LastWrite.valuesAt (a, b) ws).getLast?).map (·.rttP50Ms)).getD (t.rttMs a b) := by
  by_cases hab : a = b
  · rw [hself hab, rttMs, rttMs, if_pos hab, if_pos hab]
    rfl
  · rw [rttMs, rttMs, if_neg hab, if_neg hab, h, LastWrite.apply_eq, LastWrite.apply_eq, ← hswap]
    cases (LastWrite.valuesAt (a, b) ws).getLast? with
    | none => rfl
    | some est => rfl

/-- Adding Regions leaves the matrix alone. -/
theorem entries_addRegions (infos : List RegionInfo) (t : TopologyGraph) :
    (infos.foldl (fun t info => t.addRegion info) t).entries = t.entries := by
  induction infos generalizing t with
  | nil => rfl
  | cons info infos ih => exact ih (t.addRegion info)

/-- Every Region is filed under its id, and the one added last stays. -/
theorem regions_addRegions (infos : List RegionInfo) (t : TopologyGraph) :
    (infos.foldl (fun t info => t.addRegion info) t).regions =
      LastWrite.apply t.regions (infos.map fun info => (info.id, info)) := by
  induction infos generalizing t with
  | nil => rfl
  | cons info infos ih => exact ih (t.addRegion info)

end TopologyGraph

end HierKvGateway
