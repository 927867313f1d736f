import HierKvGateway.Gateway.GossipedState
import HierKvGateway.Routing.Comparison
import HierKvGateway.Routing.SingleStrategy

/-!
# Gateway.GossipRouting — routing by what was heard

What a gateway knows of other Regions it has heard by gossip: the load of their backends, and the
latency to them. With the topology-aware or the load-aware strategy alone, and without randomness,
the decision follows what was heard last, in whatever order the messages came.

* `RoutingEngine.route_nearest`: no candidate is in a Region that was heard to be nearer.
* `RoutingEngine.route_leastLoaded`: no candidate with room was heard to be loaded less.
-/

namespace HierKvGateway

open GossipedState RoundedFloating

variable {σ : Type} {c : Codec} {msgs : List GossipMessage}

/-! ## The latency -/

/-- The latency between two Regions that was heard last; none within a Region. -/
def heardMs (msgs : List GossipMessage) (source target : RegionId) : Option ExtRat :=
  if source = target then some (.num 0)
  else (estimatesIn msgs source target).getLast?.map fun est => ExtRat.ofBits est.rttP50Ms

/-- The latencies that were heard are not negative, and not NaN. -/
def SaneLatencies (msgs : List GossipMessage) : Prop :=
  ∀ a b, ∀ est ∈ estimatesIn msgs a b, (ExtRat.ofBits est.rttP50Ms).IsCost

theorem ofBits_zero : ExtRat.ofBits F64.zero = .num 0 := by decide +kernel

theorem ofBits_infinity : ExtRat.ofBits F64.infinity = .posInf := by decide +kernel

/-- The topology graph has the latencies that were heard last. -/
theorem ofBits_rttMs (a b : RegionId) :
    ExtRat.ofBits ((GossipedState.new.handleMessages c msgs).topology.rttMs a b) =
      (heardMs msgs a b).getD .posInf := by
  have hlast : (GossipedState.new.handleMessages c msgs).topology.rttMs a b =
      ((estimatesIn msgs a b).getLast?.map (·.rttP50Ms)).getD
        (GossipedState.new.topology.rttMs a b) := rttMs_handleAll c GossipedState.new _ a b
  unfold heardMs
  by_cases hab : a = b
  · subst hab
    rw [if_pos rfl, Option.getD_some]
    unfold TopologyGraph.rttMs
    rw [if_pos rfl, ofBits_zero]
  · have hnew : GossipedState.new.topology.rttMs a b = F64.infinity := if_neg hab
    rw [if_neg hab, hlast, hnew]
    cases (estimatesIn msgs a b).getLast? with
    | none => exact ofBits_infinity
    | some est => rfl

theorem isCost_heardMs (hsane : SaneLatencies msgs) (a b : RegionId) :
    ((heardMs msgs a b).getD .posInf).IsCost := by
  unfold heardMs
  split
  · exact Or.inr ⟨0, le_rfl, rfl⟩
  · cases hlast : (estimatesIn msgs a b).getLast? with
    | none => exact Or.inl rfl
    | some est => exact hsane a b est (List.mem_of_getLast? hlast)

namespace RoutingEngine

/-- The topology-aware strategy decides for the nearest Region, by the latencies heard last. -/
theorem route_nearest (e : RoutingEngine ExtRat σ) {t : TopologyAwareStrategy ExtRat} {w : Rat}
    (hw : t.wRtt = .num w) (hpos : 0 < w) (indices : σ → RoutingIndices)
    (hprimary : e.primary = some (t.strategy ExtRat.ofBits indices))
    (hcold : Floating.le e.temperature (Floating.ofNat 0) = true) (hsane : SaneLatencies msgs)
    (ctx : RoutingContext) (hsession : ctx.sessionId = none) (st : EngineState ExtRat σ)
    (htopology : (indices st.inner).topology = (GossipedState.new.handleMessages c msgs).topology)
    (hcands : candidates ctx none st.store ≠ []) (now : Nat) :
    ∃ d st', e.route now ctx st = (.ok d, st') ∧ d.backend ∈ candidates ctx none st.store ∧
      ∀ cand ∈ candidates ctx none st.store, ∀ q,
        heardMs msgs t.selfRegion cand.region = some (.num q) →
          ∃ q', heardMs msgs t.selfRegion d.backend.region = some (.num q') ∧ q' ≤ q := by
  have hrtt : ∀ a b, ExtRat.ofBits ((indices st.inner).topoRttMs a b) =
      (heardMs msgs a b).getD .posInf := by
    intro a b
    unfold RoutingIndices.topoRttMs
    rw [htopology]
    exact ofBits_rttMs a b
  have htimed : TopologyAwareStrategy.Timed ExtRat.ofBits (indices st.inner) := by
    intro a b
    rw [hrtt]
    exact isCost_heardMs hsane a b
  have hp : (t.strategy ExtRat.ofBits indices).ScoresEach
      fun _ _ s => t.scoreOf ExtRat.ofBits (indices s) := ⟨fun _ _ _ _ => rfl, fun _ _ _ _ => rfl⟩
  have hname : "topology_aware" ≠ HybridStrategy.name := by decide
  have hnan : ∀ cand ∈ candidates ctx none st.store,
      ¬IsNan (t.scoreOf ExtRat.ofBits (indices st.inner) cand).score := by
    intro cand _
    rcases TopologyAwareStrategy.isRate_score hw hpos htimed cand with ⟨r, hr, -⟩
    exact not_isNan_of_val hr
  rcases route_best hprimary hp hname hcold hsession hcands hnan now with
    ⟨d, st', hroute, -, hmem, hmax⟩
  refine ⟨d, st', hroute, hmem, ?_⟩
  intro cand hcand q hq
  have hle : Floating.le (t.scoreOf ExtRat.ofBits (indices st.inner) cand).score
      (t.scoreOf ExtRat.ofBits (indices st.inner) d.backend).score = true :=
    le_iff.2 ⟨hnan cand hcand, hnan d.backend hmem, hmax cand hcand⟩
  rw [TopologyAwareStrategy.le_score_iff hw hpos htimed, hrtt, hrtt, hq, Option.getD_some] at hle
  -- what is not above a number was heard
  cases hheard : heardMs msgs t.selfRegion d.backend.region with
  | none =>
    rw [hheard] at hle
    exact absurd hle (ExtRat.not_posInf_le_num q)
  | some x =>
    have hcost := isCost_heardMs hsane t.selfRegion d.backend.region
    rw [hheard, Option.getD_some] at hle hcost
    rcases hcost with rfl | ⟨q', -, rfl⟩
    · exact absurd hle (ExtRat.not_posInf_le_num q)
    · rw [ExtRat.le_num, decide_eq_true_eq] at hle
      exact ⟨q', rfl, hle⟩

/-! A gateway at home, with a backend in the east and one in the west. -/

/-- The backend in the east. -/
def eastern : BackendId := ⟨⟨"east"⟩, ⟨"a"⟩⟩

/-- The backend in the west. -/
def western : BackendId := ⟨⟨"west"⟩, ⟨"b"⟩⟩

/-- The store of the two, with the load metrics of some messages. -/
def eastWest (c : Codec) (msgs : List GossipMessage) : MetadataStore ExtRat :=
  { (TwoBackends.store .new).withLoad (GossipedState.new.handleMessages c msgs).load (.fromSecs 0) with
    backends := ((∅ : AList fun _ : BackendId => BackendInfo).insert eastern
      ⟨eastern, [], ⟨"east"⟩, ⟨0⟩⟩).insert western ⟨western, [], ⟨"west"⟩, ⟨0⟩⟩ }

theorem mem_candidates_eastWest (ctx : RoutingContext) (hmodel : ctx.modelName = none) (c : Codec)
    (msgs : List GossipMessage) (b : BackendId) :
    b ∈ candidates ctx none (eastWest c msgs) ↔ b = eastern ∨ b = western := by
  have hids : ((eastWest c msgs).backendsAll.map (·.id)).filter (fun id => some id ≠ none) =
      [western, eastern] := rfl
  unfold candidates
  rw [hmodel]
  unfold collect
  dsimp only
  rw [hids, List.mem_mergeSort, List.mem_cons, List.mem_singleton]
  exact or_comm

/-- An estimate of some milliseconds. -/
def milliseconds (bits : F64) : LatencyEstimate := ⟨bits, bits, 0, 0⟩

/-- The east is 10 ms away and the west 20 ms. -/
def tenAndTwenty : List GossipMessage :=
  [.topologyUpdate ⟨"home"⟩ ⟨"east"⟩ (milliseconds 0x4024000000000000),
    .topologyUpdate ⟨"west"⟩ ⟨"home"⟩ (milliseconds 0x4034000000000000)]

/-- An engine with one strategy alone. -/
def aloneEngine (p : RoutingStrategy ExtRat RoutingIndices) : RoutingEngine ExtRat RoutingIndices :=
  { kvEngine with primary := some p }

/-- The request is routed to the east. -/
theorem route_nearest_east :
    let t : TopologyAwareStrategy ExtRat := ⟨.num 1, .num 0, ⟨"home"⟩⟩
    let st : EngineState ExtRat RoutingIndices :=
      ⟨eastWest twoPayloads [], PrefixReuseHistory.new 10000, .new, .new,
        (GossipedState.new.handleMessages twoPayloads tenAndTwenty).topology⟩
    ∃ d st', (aloneEngine (t.strategy ExtRat.ofBits id)).route 0 RoutingContext.default st =
      (.ok d, st') ∧ d.backend = eastern := by
  intro t st
  have hmem := mem_candidates_eastWest RoutingContext.default rfl twoPayloads []
  have hcands : candidates RoutingContext.default none st.store ≠ [] :=
    List.ne_nil_of_mem ((hmem eastern).2 (Or.inl rfl))
  have hsane : SaneLatencies tenAndTwenty := by
    intro a b est hest
    have hpairs : (tenAndTwenty.flatMap GossipedState.callsOf).flatMap latencyWrites =
        [((⟨"home"⟩, ⟨"east"⟩), milliseconds 0x4024000000000000),
          ((⟨"east"⟩, ⟨"home"⟩), milliseconds 0x4024000000000000),
          ((⟨"west"⟩, ⟨"home"⟩), milliseconds 0x4034000000000000),
          ((⟨"home"⟩, ⟨"west"⟩), milliseconds 0x4034000000000000)] := by decide +kernel
    have hten : (ExtRat.ofBits 0x4024000000000000).IsCost :=
      Or.inr ⟨10, by norm_num, by decide +kernel⟩
    have htwenty : (ExtRat.ofBits 0x4034000000000000).IsCost :=
      Or.inr ⟨20, by norm_num, by decide +kernel⟩
    unfold estimatesIn estimatesOf at hest
    rw [hpairs] at hest
    rcases LastWrite.mem_valuesAt.1 hest with hest
    simp only [List.mem_cons, Prod.mk.injEq, List.not_mem_nil, or_false] at hest
    rcases hest with ⟨-, rfl⟩ | ⟨-, rfl⟩ | ⟨-, rfl⟩ | ⟨-, rfl⟩
    · exact hten
    · exact hten
    · exact htwenty
    · exact htwenty
  have hcold : Floating.le (Floating.ofNat 0 : ExtRat) (Floating.ofNat 0) = true := by
    decide +kernel
  rcases route_nearest (aloneEngine (t.strategy ExtRat.ofBits id)) rfl zero_lt_one id rfl hcold hsane
    RoutingContext.default rfl st rfl hcands 0 with ⟨d, st', hroute, hd, hnearest⟩
  refine ⟨d, st', hroute, ?_⟩
  have heast : heardMs tenAndTwenty ⟨"home"⟩ eastern.region = some (.num 10) := by decide +kernel
  have hwest : heardMs tenAndTwenty ⟨"home"⟩ western.region = some (.num 20) := by decide +kernel
  rcases hnearest eastern ((hmem eastern).2 (Or.inl rfl)) 10 heast with ⟨q', hq', hle⟩
  rcases (hmem d.backend).1 hd with heq | heq
  · exact heq
  · rw [heq] at hq'
    rcases ExtRat.num.inj (Option.some.inj (hwest.symm.trans hq')) with rfl
    exact absurd hle (by norm_num)

end RoutingEngine

/-! ## The load -/

/-- The metrics of a backend that were heard last. -/
def heardLoad (c : Codec) (msgs : List GossipMessage) (backend : BackendId) :
    Option BackendMetrics :=
  (metricsIn c msgs backend).getLast?

theorem get_handleMessages_new (backend : BackendId) :
    (GossipedState.new.handleMessages c msgs).load.get backend = heardLoad c msgs backend := by
  have hlast : (GossipedState.new.handleMessages c msgs).load.get backend =
      (metricsIn c msgs backend).getLast?.or (GossipedState.new.load.get backend) :=
    get_handleAll c GossipedState.new _ backend
  have hnew : GossipedState.new.load.get backend = none := rfl
  rw [hlast, hnew, Option.or_none]
  rfl

/-- The score of a backend with these metrics: 0 without metrics or room. -/
def LoadAwareStrategy.scoreHeard (l : LoadAwareStrategy ExtRat) (ctx : RoutingContext)
    (m : Option BackendMetrics) : ExtRat :=
  m.elim (.num 0) fun m =>
    if m.availableCapacity ≤ 0 then .num 0 else ExtRat.reciprocal (l.loadCost ExtRat.ofBits ctx m)

namespace RoutingEngine

/-- The load-aware strategy decides for the backend with the lowest load cost among those with room,
by the metrics heard last. -/
theorem route_leastLoaded (e : RoutingEngine ExtRat σ)
    (hprimary : e.primary = some (LoadAwareStrategy.default.strategy ExtRat.ofBits))
    (hcold : Floating.le e.temperature (Floating.ofNat 0) = true)
    (hsane : ∀ backend, ∀ m ∈ metricsIn c msgs backend, m.Sane) (ctx : RoutingContext)
    (hsession : ctx.sessionId = none) (st : EngineState ExtRat σ)
    (hload : st.store.loadGetMetrics = (GossipedState.new.handleMessages c msgs).load.get)
    (hcands : candidates ctx none st.store ≠ []) (now : Nat) :
    let cost (m : BackendMetrics) := LoadAwareStrategy.default.loadCost ExtRat.ofBits ctx m
    ∃ d st', e.route now ctx st = (.ok d, st') ∧ d.backend ∈ candidates ctx none st.store ∧
      ∀ cand ∈ candidates ctx none st.store, ∀ m q, heardLoad c msgs cand = some m →
        0 < m.availableCapacity → cost m = .num q →
          ∃ m' q', heardLoad c msgs d.backend = some m' ∧ 0 < m'.availableCapacity ∧
            cost m' = .num q' ∧ q' ≤ q := by
  intro cost
  have hheard : ∀ b, st.store.loadGetMetrics b = heardLoad c msgs b := by
    intro b
    rw [hload]
    exact get_handleMessages_new b
  have hscore : ∀ b, (LoadAwareStrategy.default.scoreOf ExtRat.ofBits ctx st.store b).score =
      LoadAwareStrategy.default.scoreHeard ctx (heardLoad c msgs b) := by
    intro b
    unfold LoadAwareStrategy.scoreOf
    rw [hheard]
    cases heardLoad c msgs b with
    | none => exact (ExtRat.ofNat_eq 0).trans (congrArg _ Nat.cast_zero)
    | some m =>
      unfold LoadAwareStrategy.scoreHeard
      rw [Option.elim_some]
      dsimp only
      split
      · exact (ExtRat.ofNat_eq 0).trans (congrArg _ Nat.cast_zero)
      · rfl
  have hcost : ∀ b m, heardLoad c msgs b = some m → (cost m).IsCost := by
    intro b m hm
    exact LoadAwareStrategy.isCost_loadCost ctx (hsane b m (List.mem_of_getLast? hm))
  have hnan : ∀ b ∈ candidates ctx none st.store,
      ¬IsNan (LoadAwareStrategy.default.scoreOf ExtRat.ofBits ctx st.store b).score := by
    intro b _
    rw [hscore]
    unfold LoadAwareStrategy.scoreHeard
    cases hm : heardLoad c msgs b with
    | none => exact not_isNan_of_val rfl
    | some m =>
      rw [Option.elim_some]
      split
      · exact not_isNan_of_val rfl
      · rcases (hcost b m hm).isRate_reciprocal with ⟨r, hr, -⟩
        exact not_isNan_of_val hr
  have hp : (LoadAwareStrategy.default.strategy ExtRat.ofBits : RoutingStrategy ExtRat σ).ScoresEach
      fun ctx store _ => LoadAwareStrategy.default.scoreOf ExtRat.ofBits ctx store :=
    ⟨fun _ _ _ _ => rfl, fun ctx store _ cand =>
      LoadAwareStrategy.default.backendId_scoreOf ExtRat.ofBits ctx store cand⟩
  have hname : "load_aware" ≠ HybridStrategy.name := by decide
  rcases route_best hprimary hp hname hcold hsession hcands hnan now with
    ⟨d, st', hroute, -, hmem, hmax⟩
  refine ⟨d, st', hroute, hmem, ?_⟩
  intro cand hcand m q hm hroom hq
  have hle : Floating.le (LoadAwareStrategy.default.scoreOf ExtRat.ofBits ctx st.store cand).score
      (LoadAwareStrategy.default.scoreOf ExtRat.ofBits ctx st.store d.backend).score = true :=
    le_iff.2 ⟨hnan cand hcand, hnan d.backend hmem, hmax cand hcand⟩
  have hq0 : 0 ≤ q := by
    rcases hcost cand m hm with hinf | ⟨q', hq'0, hq'⟩
    · exact absurd (hq.symm.trans hinf) nofun
    · rw [ExtRat.num.inj (hq.symm.trans hq')]
      exact hq'0
  rw [hscore cand, hm, hscore] at hle
  unfold LoadAwareStrategy.scoreHeard at hle
  rw [Option.elim_some, if_neg (not_le.2 hroom)] at hle
  -- the score of the candidate is positive
  have hpositive : ¬Floating.le (ExtRat.reciprocal (cost m)) (.num 0) = true := by
    rw [hq, ExtRat.reciprocal_num hq0, ExtRat.le_num, decide_eq_true_eq, not_le]
    exact one_div_pos.2 (add_pos_of_pos_of_nonneg zero_lt_one hq0)
  cases hd : heardLoad c msgs d.backend with
  | none =>
    rw [hd] at hle
    exact absurd hle hpositive
  | some m' =>
    rw [hd, Option.elim_some] at hle
    split at hle
    · exact absurd hle hpositive
    · rename_i hroom'
      rw [ExtRat.le_reciprocal_iff (hcost d.backend m' hd) (hcost cand m hm), hq] at hle
      rcases hcost d.backend m' hd with hinf | ⟨q', -, hq'⟩
      · rw [hinf] at hle
        exact absurd hle (ExtRat.not_posInf_le_num q)
      · rw [hq', ExtRat.le_num, decide_eq_true_eq] at hle
        exact ⟨m', q', rfl, not_le.1 hroom', hq', hle⟩

/-- The load of the eastern backend as it is sent. -/
def eastText : String := "AQZlYXN0L2EEAAAAAGQAAAAAAAAAAAAAAAAAAAAAAAAAAAAAAAAAAAAAAAAAAAAAAAA="

/-- The load of the western backend. -/
def westText : String := "AQZ3ZXN0L2IBAAAAAGQAAAAAAAAAAAAAAAAAAAAAAAAAAAAAAAAAAAAAAAAAAAAAAAA="

/-- A codec that reads these two payloads. -/
def twoLoadTexts : Codec where
  decodeLoad data :=
    if data = eastText then some [("east/a", HybridStrategy.metricsOf 4 0)]
    else if data = westText then some [("west/b", HybridStrategy.metricsOf 1 0)]
    else none
  decodeRegion _ := none

/-- The eastern backend has four requests and the western one has one. -/
def fourAndOne : List GossipMessage :=
  [.metricsBroadcast ⟨"east"⟩ ⟨1, eastText⟩, .metricsBroadcast ⟨"west"⟩ ⟨1, westText⟩]

/-- The request is routed to the west. -/
theorem route_leastLoaded_west :
    let st : EngineState ExtRat RoutingIndices :=
      ⟨eastWest twoLoadTexts fourAndOne, PrefixReuseHistory.new 10000, .new, .new, .new⟩
    ∃ d st', (aloneEngine (LoadAwareStrategy.default.strategy ExtRat.ofBits)).route 0
      RoutingContext.default st = (.ok d, st') ∧ d.backend = western := by
  intro st
  have hmem := mem_candidates_eastWest RoutingContext.default rfl twoLoadTexts fourAndOne
  have hcands : candidates RoutingContext.default none st.store ≠ [] :=
    List.ne_nil_of_mem ((hmem western).2 (Or.inr rfl))
  have hcold : Floating.le (Floating.ofNat 0 : ExtRat) (Floating.ofNat 0) = true := by
    decide +kernel
  have hzero : (ExtRat.ofBits 0).IsCost := Or.inr ⟨0, le_rfl, by decide +kernel⟩
  have hwrites : (fourAndOne.flatMap GossipedState.callsOf).flatMap (metricsWrites twoLoadTexts) =
      [(eastern, HybridStrategy.metricsOf 4 0), (western, HybridStrategy.metricsOf 1 0)] := by
    decide +kernel
  have hsane : ∀ backend, ∀ m ∈ metricsIn twoLoadTexts fourAndOne backend, m.Sane := by
    intro backend m hm
    unfold metricsIn GossipedState.metricsOf at hm
    rw [hwrites] at hm
    have hpair := LastWrite.mem_valuesAt.1 hm
    simp only [List.mem_cons, Prod.mk.injEq, List.not_mem_nil, or_false] at hpair
    rcases hpair with ⟨-, rfl⟩ | ⟨-, rfl⟩
    · exact ⟨hzero, hzero⟩
    · exact ⟨hzero, hzero⟩
  rcases route_leastLoaded (aloneEngine (LoadAwareStrategy.default.strategy ExtRat.ofBits)) rfl hcold
    hsane RoutingContext.default rfl st rfl hcands 0 with ⟨d, st', hroute, hd, hleast⟩
  refine ⟨d, st', hroute, ?_⟩
  have heast : heardLoad twoLoadTexts fourAndOne eastern = some (HybridStrategy.metricsOf 4 0) := by
    decide +kernel
  have hwest : heardLoad twoLoadTexts fourAndOne western = some (HybridStrategy.metricsOf 1 0) := by
    decide +kernel
  have hfour : LoadAwareStrategy.default.loadCost ExtRat.ofBits RoutingContext.default
      (HybridStrategy.metricsOf 4 0) = .num 4 := by decide +kernel
  have hone : LoadAwareStrategy.default.loadCost ExtRat.ofBits RoutingContext.default
      (HybridStrategy.metricsOf 1 0) = .num 1 := by decide +kernel
  rcases hleast western ((hmem western).2 (Or.inr rfl)) _ 1 hwest (by decide) hone with
    ⟨m', q', hm', -, hq', hle⟩
  rcases (hmem d.backend).1 hd with heq | heq
  · rw [heq] at hm'
    rcases Option.some.inj (heast.symm.trans hm') with rfl
    rcases ExtRat.num.inj (hfour.symm.trans hq') with rfl
    exact absurd hle (by norm_num)
  · exact heq

end RoutingEngine

end HierKvGateway
