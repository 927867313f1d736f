import HierKvGateway.Connector.Metrics
import HierKvGateway.Core.ExtRat
import HierKvGateway.Routing.Hybrid

/-!
# Routing.LoadAge — how old load metrics are taken to be

Connectors stamp load metrics with milliseconds (`timestamp_collect`), and the load statistics read
the stamp as seconds. The age of metrics collected after 1970 is 0 until the clock, in seconds, has
caught up with the stamp: for today's metrics, that takes fifty thousand years.

`LoadAge.right_iff`: the ages, and what the strategies conclude from them, are right only for ages
of up to one second, and in the first two milliseconds of 1970.
-/

namespace HierKvGateway.LoadAge

/-- The milliseconds since 1970. -/
def millis (collected : Duration) : Nat := collected.secs * 1000 + collected.subsecNanos / 10 ^ 6

/-- All the backends have metrics that were collected at a time. -/
def AllCollected (ops : F64Ops) (collected : Duration) (stats : LoadStats)
    (backends : List BackendId) : Prop :=
  ∀ b ∈ backends, ∃ source : MetricsSource, stats.get b = some (source.collect ops collected)

/-- Of metrics collected `age` seconds before a time, the age is known then, up to rounding, and
both strategies take them for stale if they are older than their thresholds. -/
structure Right (F : Type) [Floating F] (ops : F64Ops) (source : MetricsSource)
    (collected now : Duration) (age : Nat) : Prop where
  freshness : ∀ (stats : LoadStats) b,
    ∃ d, (stats.update b (source.collect ops collected)).freshness now b = some d ∧
      d.asSecs ≤ age + 1 ∧ age ≤ d.asSecs + 1
  hybrid : ∀ (stats : LoadStats) (store : MetadataStore F) filtered,
    filtered ≠ [] → AllCollected ops collected stats filtered →
      (HybridStrategy.loadStale (store.withLoad stats now) filtered = true ↔
        HybridStrategy.staleLoadThresholdSecs < age)
  degradation : ∀ (stats : LoadStats) (store : MetadataStore F),
    store.backendsAll ≠ [] → AllCollected ops collected stats (store.backendsAll.map (·.id)) →
      (DegradationStrategy.allLoadStale (store.withLoad stats now) = true ↔
        DegradationStrategy.loadStaleThresholdSecs < age)

variable {F : Type} [Floating F] {ops : F64Ops} {source : MetricsSource}
variable {collected now : Duration} {age : Nat} {stats : LoadStats}

/-- What is read as the age: the stamp is a number of milliseconds, the clock one of seconds. -/
def readAge (collected : Duration) (age : Nat) : Nat := collected.secs + age - millis collected

theorem freshness_eq {b : BackendId} (hnow : now.secs = collected.secs + age)
    (hb : stats.get b = some (source.collect ops collected)) :
    ∃ d, stats.freshness now b = some d ∧ d.asSecs = readAge collected age := by
  have hstamp : LoadStats.metricsTimestamp (source.collect ops collected) = millis collected := by
    unfold LoadStats.metricsTimestamp
    rw [timestamp_collect]
    unfold timestampMillis millis
    omega
  have hlt := now.secs_lt
  refine ⟨.fromSecs (BitVec.ofNat 64 (now.asSecs - millis collected)), ?_, ?_⟩
  · unfold LoadStats.freshness
    rw [hb, Option.map_some, hstamp]
  · show (BitVec.ofNat 64 (now.secs - millis collected)).toNat = collected.secs + age - _
    rw [BitVec.toNat_ofNat, hnow]
    apply Nat.mod_eq_of_lt
    omega

omit [Floating F] in
/-- One of the metrics is read as stale if all are. -/
theorem loadStale_iff (hnow : now.secs = collected.secs + age) (store : MetadataStore F)
    {filtered : List BackendId} (hne : filtered ≠ [])
    (hall : AllCollected ops collected stats filtered) :
    HybridStrategy.loadStale (store.withLoad stats now) filtered = true ↔
      HybridStrategy.staleLoadThresholdSecs < readAge collected age := by
  unfold HybridStrategy.loadStale
  rw [List.any_eq_true]
  constructor
  · rintro ⟨b, hb, hstale⟩
    obtain ⟨source, hsource⟩ := hall b hb
    obtain ⟨d, hd, hsecs⟩ := freshness_eq hnow hsource
    have hread : (store.withLoad stats now).loadFreshness b = some d := hd
    rw [hread] at hstale
    rw [← hsecs]
    exact of_decide_eq_true hstale
  · intro hlt
    obtain ⟨b, hb⟩ := List.exists_mem_of_ne_nil filtered hne
    obtain ⟨source, hsource⟩ := hall b hb
    obtain ⟨d, hd, hsecs⟩ := freshness_eq hnow hsource
    have hread : (store.withLoad stats now).loadFreshness b = some d := hd
    refine ⟨b, hb, ?_⟩
    rw [hread]
    rw [← hsecs] at hlt
    exact decide_eq_true hlt

omit [Floating F] in
theorem allLoadStale_iff (hnow : now.secs = collected.secs + age) (store : MetadataStore F)
    (hne : store.backendsAll ≠ [])
    (hall : AllCollected ops collected stats (store.backendsAll.map (·.id))) :
    DegradationStrategy.allLoadStale (store.withLoad stats now) = true ↔
      DegradationStrategy.loadStaleThresholdSecs < readAge collected age := by
  have hage : ∀ b ∈ store.backendsAll, ∃ d,
      (store.withLoad stats now).loadFreshness b.id = some d ∧
        d.asSecs = readAge collected age := by
    intro b hb
    obtain ⟨source, hsource⟩ := hall b.id (List.mem_map_of_mem hb)
    exact freshness_eq hnow hsource
  unfold DegradationStrategy.allLoadStale
  rw [List.all_eq_true]
  constructor
  · intro hstale
    obtain ⟨b, hb⟩ := List.exists_mem_of_ne_nil store.backendsAll hne
    obtain ⟨d, hd, hsecs⟩ := hage b hb
    have hb := hstale b hb
    rw [hd] at hb
    rw [← hsecs]
    exact of_decide_eq_true hb
  · intro hlt b hb
    obtain ⟨d, hd, hsecs⟩ := hage b hb
    rw [hd]
    rw [← hsecs] at hlt
    exact decide_eq_true hlt

/-- A store with one backend. -/
def oneBackend (F : Type) [Floating F] : MetadataStore F where
  backends := AList.singleton ⟨⟨"eu"⟩, ⟨"a"⟩⟩ ⟨⟨⟨"eu"⟩, ⟨"a"⟩⟩, [], ⟨"eu"⟩, ⟨0⟩⟩
  models := .new
  history := .new
  kvFindLocalOverlap _ _ := 0
  kvConfidence := Floating.ofNat 1
  loadFreshness _ := none
  loadGetMetrics _ := none

/-- The ages are right exactly if what is read is near the age, and over a threshold with it. -/
theorem right_iff_readAge (hnow : now.secs = collected.secs + age) :
    Right F ops source collected now age ↔
      (readAge collected age ≤ age + 1 ∧ age ≤ readAge collected age + 1) ∧
        (10 < readAge collected age ↔ 10 < age) ∧ (30 < readAge collected age ↔ 30 < age) := by
  have hupdate (stats : LoadStats) (b : BackendId) :
      (stats.update b (source.collect ops collected)).get b =
        some (source.collect ops collected) := Function.update_self ..
  constructor
  · intro h
    -- the strategies are asked about one backend, which has these metrics
    let b : BackendId := ⟨⟨"eu"⟩, ⟨"a"⟩⟩
    let stats := LoadStats.new.update b (source.collect ops collected)
    have hall : AllCollected ops collected stats [b] := by
      intro b' hb'
      rw [List.mem_singleton.1 hb']
      exact ⟨source, hupdate _ b⟩
    refine ⟨?_, ?_, ?_⟩
    · obtain ⟨d, hd, hle, hge⟩ := h.freshness LoadStats.new b
      obtain ⟨d', hd', hsecs⟩ := freshness_eq hnow (hupdate LoadStats.new b)
      rw [hd] at hd'
      rw [Option.some.inj hd', hsecs] at hle hge
      exact ⟨hle, hge⟩
    · have hhybrid := h.hybrid stats (oneBackend F) [b] (List.cons_ne_nil b []) hall
      exact (loadStale_iff hnow (oneBackend F) (List.cons_ne_nil b []) hall).symm.trans hhybrid
    · have hne : (oneBackend F).backendsAll ≠ [] := List.cons_ne_nil _ []
      have hdegradation := h.degradation stats (oneBackend F) hne hall
      exact (allLoadStale_iff hnow (oneBackend F) hne hall).symm.trans hdegradation
  · rintro ⟨hnear, hten, hthirty⟩
    constructor
    case freshness =>
      intro stats b
      obtain ⟨d, hd, hsecs⟩ := freshness_eq hnow (hupdate stats b)
      exact ⟨d, hd, hsecs ▸ hnear⟩
    case hybrid =>
      intro stats store filtered hne hall
      exact (loadStale_iff hnow store hne hall).trans hten
    case degradation =>
      intro stats store hne hall
      exact (allLoadStale_iff hnow store hne hall).trans hthirty

/-- When the ages are right: they are of at most a second, or the metrics are of the first
millisecond of 1970, or of the second one and not just over a threshold. -/
theorem right_iff (F : Type) [Floating F] (ops : F64Ops) (source : MetricsSource)
    (collected now : Duration) (age : Nat) (hnow : now.secs = collected.secs + age) :
    Right F ops source collected now age ↔
      age ≤ 1 ∨ millis collected = 0 ∨ millis collected = 1 ∧ age ≠ 11 ∧ age ≠ 31 := by
  rw [right_iff_readAge hnow]
  have hmillis : 1000 * collected.secs ≤ millis collected := by
    unfold millis
    omega
  unfold readAge
  constructor
  · rintro ⟨⟨hle, hge⟩, hten, hthirty⟩
    omega
  · intro h
    omega

/-- Doubles, as far as they are needed where no metric is read. -/
def noNumbers : F64Ops where
  parse _ := none
  max x y := if x.ult y then y else x
  mul _ _ := F64.zero
  toU64 _ := 0

theorem right_oneSecond :
    Right ExtRat noNumbers (.openAiCompat none) (.fromSecs 1700000000) (.fromSecs 1700000001) 1 :=
  (right_iff ExtRat noNumbers (.openAiCompat none) (.fromSecs 1700000000) (.fromSecs 1700000001) 1
    (by decide)).2 (.inl (Nat.le_refl 1))

/-- After a minute the metrics of a backend are still new. -/
theorem minute_unnoticed :
    ¬ ∀ (ops : F64Ops) (source : MetricsSource) (collected now : Duration) (age : Nat),
      now.secs = collected.secs + age → Right ExtRat ops source collected now age := by
  intro h
  have hnow : (Duration.fromSecs 1700000060).secs = (Duration.fromSecs 1700000000).secs + 60 := by
    decide
  have hright := h noNumbers (.openAiCompat none) _ _ 60 hnow
  have hread : readAge (.fromSecs 1700000000) 60 = 0 := by decide
  have hnear := ((right_iff_readAge hnow).1 hright).1.2
  omega

end HierKvGateway.LoadAge
