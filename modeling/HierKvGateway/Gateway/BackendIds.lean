import Mathlib.Data.List.TakeWhile
import HierKvGateway.Cluster.RedisState
import HierKvGateway.Gateway.GossipedState
import HierKvGateway.Metadata.Store

/-!
# Gateway.BackendIds — backend identifiers as text

A backend is named by a text when its metrics are sent to another gateway or stored in Redis: the
Region, a slash and the instance (`ids.rs`). The text is split at its first slash when it is read.

`survivesWire_iff`: the backends come back as what they were just when no Region has a slash.
-/

namespace List

variable {α : Type*} [DecidableEq α] {a : α} {l before after : List α}

variable (a l before after) in
/-- What is before an element, and the element with what is after it, where it occurs first. -/
theorem eq_append_cons_iff_of_first :
    l.takeWhile (· ≠ a) = before ∧ l.dropWhile (· ≠ a) = a :: after ↔
      l = before ++ a :: after ∧ a ∉ before := by
  constructor
  · rintro ⟨hbefore, hafter⟩
    constructor
    · rw [← hbefore, ← hafter, takeWhile_append_dropWhile]
    · intro ha
      rw [← hbefore] at ha
      simpa using mem_takeWhile_imp ha
  · rintro ⟨rfl, ha⟩
    have hne : ∀ x ∈ before, decide (x ≠ a) = true := by
      rintro x hx
      rw [decide_eq_true_eq]
      rintro rfl
      exact ha hx
    rw [takeWhile_append_of_pos hne, dropWhile_append_of_pos hne,
      takeWhile_cons_of_neg (by simp), dropWhile_cons_of_neg (by simp), append_nil]
    exact ⟨rfl, rfl⟩

/-- What is dropped up to an element begins with it. -/
theorem head_dropWhile_ne {x : α} {xs : List α} (h : l.dropWhile (· ≠ a) = x :: xs) : x = a := by
  have hhead := head_dropWhile_not (fun y => decide (y ≠ a))
    (l := l) (by rw [h]; exact cons_ne_nil x xs)
  simp only [h, head_cons] at hhead
  simpa using hhead

end List

namespace HierKvGateway

namespace BackendId

/-- The Region and the instance have names. -/
structure Named (id : BackendId) : Prop where
  region : id.region.str ≠ ""
  inst : id.inst.str ≠ ""

theorem toList_display (id : BackendId) :
    id.display.toList = id.region.str.toList ++ '/' :: id.inst.str.toList := by
  unfold display
  rw [String.toList_append, String.toList_append, List.append_assoc]
  rfl

/-- A text is read as a backend just when it is the text of the backend and its first slash is the
one between the Region and the instance. -/
theorem parse_eq_some_iff (s : String) (id : BackendId) :
    parse s = some id ↔ s = id.display ∧ '/' ∉ id.region.str.toList ∧ id.Named := by
  have hempty (t : String) : t.toList = [] ↔ t = "" := String.toList_eq_nil_iff
  -- the text before the first slash and the text after it
  have hsplit := List.eq_append_cons_iff_of_first '/' s.toList id.region.str.toList
    id.inst.str.toList
  rw [← toList_display, String.toList_inj] at hsplit
  rw [← and_assoc, ← hsplit]
  unfold parse
  cases hdrop : s.toList.dropWhile (· ≠ '/') with
  | nil =>
    constructor
    · intro h
      exact absurd h.symm (Option.some_ne_none id)
    · rintro ⟨⟨-, h⟩, -⟩
      exact absurd h.symm (List.cons_ne_nil _ _)
  | cons c inst =>
    obtain rfl := List.head_dropWhile_ne hdrop
    dsimp only
    split
    · -- a part is empty
      rename_i hnone
      constructor
      · intro h
        exact absurd h.symm (Option.some_ne_none id)
      · rintro ⟨⟨hregion, hinst⟩, hnamed⟩
        rw [hregion, (List.cons.inj hinst).2, hempty, hempty] at hnone
        exact absurd hnone (not_or.2 ⟨hnamed.region, hnamed.inst⟩)
    · rename_i hsome
      obtain ⟨hregion, hinst⟩ := not_or.1 hsome
      rw [Option.some.injEq, List.cons_eq_cons, eq_self, true_and]
      constructor
      · rintro rfl
        simp only [String.toList_ofList]
        refine ⟨⟨trivial, trivial⟩, ?_, ?_⟩
        · rw [Ne, ← hempty, String.toList_ofList]
          exact hregion
        · rw [Ne, ← hempty, String.toList_ofList]
          exact hinst
      · rintro ⟨⟨hr, hi⟩, -⟩
        rw [hr, hi, String.ofList_toList, String.ofList_toList]

/-- The text of a backend is read as the backend just when its Region has no slash. -/
theorem parse_display_iff {id : BackendId} (hnamed : id.Named) :
    parse id.display = some id ↔ '/' ∉ id.region.str.toList := by
  rw [parse_eq_some_iff]
  constructor
  · intro h
    exact h.2.1
  · intro h
    exact ⟨rfl, h, hnamed⟩

/-- `eu/west` and `a` are read as `eu` and `west/a`. -/
theorem region_with_slash :
    ¬ ∀ id : BackendId, id.Named → parse id.display = some id := by
  intro h
  have hparse := h ⟨⟨"eu/west"⟩, ⟨"a"⟩⟩ ⟨by decide, by decide⟩
  have hother : parse (display ⟨⟨"eu/west"⟩, ⟨"a"⟩⟩) = some ⟨⟨"eu"⟩, ⟨"west/a"⟩⟩ := by
    decide +kernel
  rw [hother] at hparse
  exact absurd (Option.some.inj hparse) (by decide)

end BackendId

/-! ## Metrics on the wire -/

/-- The metrics of some backends as they are sent. -/
def wireEntries (reports : List (BackendId × BackendMetrics)) : List (String × BackendMetrics) :=
  reports.map fun (backend, metrics) => (backend.display, metrics)

section
variable {reports : List (BackendId × BackendMetrics)}

theorem acceptedSynced_wireEntries
    (h : ∀ r ∈ reports, BackendId.parse r.1.display = some r.1) :
    GossipedState.acceptedSynced (wireEntries reports) = reports := by
  unfold GossipedState.acceptedSynced wireEntries
  rw [List.filterMap_map]
  induction reports with
  | nil => rfl
  | cons r reports ih =>
    obtain ⟨hr, hreports⟩ := List.forall_mem_cons.1 h
    refine (List.filterMap_cons_some (b := r) ?_).trans (congrArg (r :: ·) (ih hreports))
    exact congrArg (Option.map fun b => (b, r.2)) hr

theorem acceptedFrom_wireEntries {region : RegionId}
    (h : ∀ r ∈ reports, BackendId.parse r.1.display = some r.1 ∧ r.1.region = region) :
    GossipedState.acceptedFrom region (wireEntries reports) = reports := by
  unfold GossipedState.acceptedFrom wireEntries
  rw [List.filterMap_map]
  induction reports with
  | nil => rfl
  | cons r reports ih =>
    obtain ⟨⟨hr, hregion⟩, hreports⟩ := List.forall_mem_cons.1 h
    refine (List.filterMap_cons_some (b := r) ?_).trans (congrArg (r :: ·) (ih hreports))
    rw [Function.comp_apply]
    dsimp only
    rw [hr]
    dsimp only
    rw [if_neg (not_not_intro hregion)]

end

/-- The backends keep their identity: what is read is what was written, no two are written alike,
and metrics that are sent are stored for the backend that they are of. -/
structure SurvivesWire (ids : Set BackendId) : Prop where
  roundTrip : ∀ id ∈ ids, BackendId.parse id.display = some id
  printed : ∀ s id, BackendId.parse s = some id → id.display = s
  distinct : ∀ id ∈ ids, ∀ id' ∈ ids, id.display = id'.display → id = id'
  keys : ∀ id ∈ ids, ∀ id' ∈ ids,
    RedisSharedState.metricsKey id = RedisSharedState.metricsKey id' → id = id'
  /-- The entry `load_state` of a sync response. -/
  synced : ∀ (c : Codec) (g : GossipedState) (data : String)
    (reports : List (BackendId × BackendMetrics)), (∀ r ∈ reports, r.1 ∈ ids) →
    c.decodeLoad data = some (wireEntries reports) →
      (g.applyLoadState c (.string data)).load = g.load.updateAll reports
  /-- A broadcast of the metrics of a Region. -/
  broadcast : ∀ (c : Codec) (g : GossipedState) (region : RegionId) (payload : LoadPayload)
    (reports : List (BackendId × BackendMetrics)),
    (∀ r ∈ reports, r.1 ∈ ids ∧ r.1.region = region) →
    payload.decode c = some (wireEntries reports) →
      (g.handleMetricsBroadcast c region payload).load = g.load.updateAll reports

/-- Backends with names survive the wire just when no Region has a slash. -/
theorem survivesWire_iff {ids : Set BackendId} (hnamed : ∀ id ∈ ids, id.Named) :
    SurvivesWire ids ↔ ∀ id ∈ ids, '/' ∉ id.region.str.toList := by
  constructor
  · intro h id hid
    exact (BackendId.parse_display_iff (hnamed id hid)).1 (h.roundTrip id hid)
  · intro h
    have hround : ∀ id ∈ ids, BackendId.parse id.display = some id := by
      intro id hid
      exact (BackendId.parse_display_iff (hnamed id hid)).2 (h id hid)
    have hdistinct : ∀ id ∈ ids, ∀ id' ∈ ids, id.display = id'.display → id = id' := by
      intro id hid id' hid' heq
      have hparse := hround id hid
      rw [heq, hround id' hid'] at hparse
      exact (Option.some.inj hparse).symm
    refine ⟨hround, ?_, hdistinct, ?_, ?_, ?_⟩
    · intro s id hparse
      exact ((BackendId.parse_eq_some_iff s id).1 hparse).1.symm
    · intro id hid id' hid' heq
      exact hdistinct id hid id' hid' ((String.append_right_inj _).1 heq)
    · intro c g data reports hreports hdata
      have hread : (Json.asStr (.string data)).bind c.decodeLoad = some (wireEntries reports) :=
        hdata
      unfold GossipedState.applyLoadState
      rw [hread]
      dsimp only
      rw [acceptedSynced_wireEntries fun r hr => hround r.1 (hreports r hr)]
    · intro c g region payload reports hreports hdata
      unfold GossipedState.handleMetricsBroadcast
      rw [hdata]
      dsimp only
      rw [acceptedFrom_wireEntries fun r hr => ⟨hround r.1 (hreports r hr).1, (hreports r hr).2⟩]

/-- Slashes in an instance do no harm. -/
theorem survivesWire_instances :
    SurvivesWire {⟨⟨"eu"⟩, ⟨"a"⟩⟩, ⟨⟨"eu"⟩, ⟨"west/a"⟩⟩} := by
  refine (survivesWire_iff ?_).2 ?_
  · rintro id (rfl | rfl)
    · exact ⟨by decide, by decide⟩
    · exact ⟨by decide, by decide⟩
  · rintro id (rfl | rfl)
    · decide
    · decide

end HierKvGateway
