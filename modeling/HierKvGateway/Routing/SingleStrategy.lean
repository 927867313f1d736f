import HierKvGateway.Routing.Draws
import HierKvGateway.Routing.TopologyAware

/-!
# Routing.SingleStrategy — one strategy instead of the hybrid one

The engine can be given a strategy to score with instead of the hybrid one (`with_primary_strategy`):
the KV-aware, the load-aware or the topology-aware strategy alone. These score the candidates one by
one (`RoutingStrategy.ScoresEach`), and without randomness the decision is the candidate with the
highest score (`RoutingEngine.route_best`).

`RoutingEngine.route_warm`: after any KV events, the KV-aware strategy finds a backend that costs no
more than the blocks that the tree does not record for any candidate.
-/

namespace HierKvGateway

variable {F σ : Type}

/-- The strategy scores the candidates one by one, and keeps its state. -/
structure RoutingStrategy.ScoresEach (p : RoutingStrategy F σ)
    (score : RoutingContext → MetadataStore F → σ → BackendId → ScoredBackend F) : Prop where
  evaluate : ∀ ctx candidates store s,
    p.evaluate ctx candidates store s = (.ok (candidates.map (score ctx store s)), s)
  backendId : ∀ ctx store s cand, (score ctx store s cand).backendId = cand

namespace RoutingEngine

open RoundedFloating

section Best

variable [Floating F] {e : RoutingEngine F σ} {p : RoutingStrategy F σ}
  {score : RoutingContext → MetadataStore F → σ → BackendId → ScoredBackend F}
  {ctx : RoutingContext} {st : EngineState F σ}

/-- The scores are those of the primary strategy. -/
theorem scoreCandidates_each (hprimary : e.primary = some p) (hp : p.ScoresEach score)
    {cands : List BackendId} (hcands : cands ≠ []) :
    e.scoreCandidates ctx cands st =
      (.ok (cands.map (score ctx st.store st.inner), p.name), st) := by
  have hne : cands.map (score ctx st.store st.inner) ≠ [] := by
    intro hnil
    exact hcands (List.map_eq_nil_iff.1 hnil)
  unfold scoreCandidates primaryStrategy
  rw [hprimary, Option.getD_some, hp.evaluate]
  exact if_pos hne

/-- One pick, the greedy choice. -/
theorem selectRanked_best [RoundedFloating F] {f : BackendId → ScoredBackend F}
    (hid : ∀ cand, (f cand).backendId = cand) {temperature : F}
    (hcold : Floating.le temperature (Floating.ofNat 0) = true) {cands : List BackendId}
    (hcands : cands ≠ []) (hnan : ∀ cand ∈ cands, ¬IsNan (f cand).score) (s : σ) :
    ∃ cand ∈ cands, e.selectRanked (cands.map f) temperature 1 s = ([f cand], s) ∧
      ∀ c ∈ cands, ord (f c).score ≤ ord (f cand).score := by
  have hne : cands.map f ≠ [] := by
    intro hnil
    exact hcands (List.map_eq_nil_iff.1 hnil)
  rcases greedy_of_ne_nil hne with ⟨pick, hpick, hgreedy⟩
  have hmax := greedy_max (by simpa using hnan) hgreedy
  rcases List.mem_map.1 hpick with ⟨cand, hcand, rfl⟩
  refine ⟨cand, hcand, ?_, fun c hc => hmax _ (List.mem_map_of_mem hc)⟩
  unfold selectRanked selectLoop
  rw [if_neg hne, e.selectWithTemperature_greedy hcold, hgreedy]
  dsimp only
  -- what has the backend of the pick is the pick
  have hfound : ∃ x ∈ cands.map f, decide (x.backendId = (f cand).backendId) = true :=
    ⟨_, hpick, decide_eq_true rfl⟩
  have hpos := List.findIdx_lt_length_of_exists hfound
  have hsame := List.findIdx_getElem (w := hpos)
  rw [List.getElem?_eq_getElem hpos]
  rcases List.mem_map.1 (List.getElem_mem hpos) with ⟨c, -, hc⟩
  rw [← hc] at hsame ⊢
  rw [decide_eq_true_eq, hid, hid] at hsame
  rw [hsame]
  rfl

/-- Without a session and without randomness, the decision is one with the highest score. -/
theorem route_scored [RoundedFloating F] {f : BackendId → ScoredBackend F}
    (hid : ∀ cand, (f cand).backendId = cand) {ids : List BackendId} {used : String}
    {st' : EngineState F σ} (hcands : candidates ctx none st.store ≠ [])
    (hscores : e.scoreCandidates ctx (candidates ctx none st.store) st =
      (.ok (ids.map f, used), st'))
    (htrace : (e.traceSubScores && used == HybridStrategy.name) = false)
    (hcold : Floating.le e.temperature (Floating.ofNat 0) = true) (hsession : ctx.sessionId = none)
    (hids : ids ≠ []) (hnan : ∀ cand ∈ ids, ¬IsNan (f cand).score) (now : Nat) :
    ∃ d st'', e.route now ctx st = (.ok d, st'') ∧ d.strategy = used ∧ d.backend ∈ ids ∧
      ∀ cand ∈ ids, ord (f cand).score ≤ ord (f d.backend).score := by
  have haffinity : affinity ctx st.store = none := by
    unfold affinity
    rw [hsession]
    rfl
  rcases selectRanked_best (e := e) hid hcold hids hnan st'.inner with ⟨cand, hcand, hselect, hmax⟩
  unfold route routeCandidates
  rw [if_neg Nat.one_ne_zero, affinityHead_eq_none.2 ⟨haffinity, rfl⟩]
  dsimp only
  unfold routeRest
  dsimp only [Option.map_none]
  rw [if_neg hcands, hscores]
  dsimp only [Option.toList_none, List.length_nil, Nat.sub_zero]
  rw [hselect]
  unfold conclude traceScores
  dsimp only
  rw [htrace]
  refine ⟨_, _, rfl, rfl, ?_, ?_⟩
  · show (f cand).backendId ∈ ids
    rwa [hid]
  · show ∀ c ∈ ids, _ ≤ ord (f (f cand).backendId).score
    rwa [hid]

/-- With a primary strategy that scores each candidate, it is a candidate with the highest of its
scores. -/
theorem route_best [RoundedFloating F] (hprimary : e.primary = some p) (hp : p.ScoresEach score)
    (hname : p.name ≠ HybridStrategy.name)
    (hcold : Floating.le e.temperature (Floating.ofNat 0) = true) (hsession : ctx.sessionId = none)
    (hcands : candidates ctx none st.store ≠ [])
    (hnan : ∀ cand ∈ candidates ctx none st.store,
      ¬IsNan (score ctx st.store st.inner cand).score) (now : Nat) :
    ∃ d st', e.route now ctx st = (.ok d, st') ∧ d.strategy = p.name ∧
      d.backend ∈ candidates ctx none st.store ∧
      ∀ cand ∈ candidates ctx none st.store, ord (score ctx st.store st.inner cand).score ≤
        ord (score ctx st.store st.inner d.backend).score := by
  have htrace : (e.traceSubScores && p.name == HybridStrategy.name) = false := by
    rw [beq_eq_false_iff_ne.2 hname, Bool.and_false]
  exact route_scored (hp.backendId ctx st.store st.inner) hcands
    (scoreCandidates_each hprimary hp hcands) htrace hcold hsession hcands hnan now

end Best

/-! ## The KV-aware strategy alone -/

theorem scoresEach_kvAware (k : KvAwareStrategy F) [Floating F] (H : Xxh3)
    (indices : σ → RoutingIndices) :
    (k.strategy H indices).ScoresEach fun ctx store s => k.scoreOf H (indices s) ctx store :=
  ⟨fun _ _ _ _ => rfl, fun _ _ _ _ => rfl⟩

theorem kvAware_ne_hybrid : "kv_aware" ≠ HybridStrategy.name := by decide

/-- After any KV events of at most sixteen backends whose insertions found room, the KV-aware
strategy without a credit decides for a backend whose cost is at most that of the blocks the tree
does not record for any other candidate. -/
theorem route_warm (e : RoutingEngine ExtRat σ) {k : KvAwareStrategy ExtRat} (hk : k.Exact)
    (hcredit : k.overlapScoreCredit = .num 0) {scale : Rat}
    (hscale : k.prefillLoadScale = .num scale) {H : Xxh3} (indices : σ → RoutingIndices)
    (hprimary : e.primary = some (k.strategy H indices))
    (hcold : Floating.le e.temperature (Floating.ofNat 0) = true) {B : Finset BackendId}
    (hcard : B.card ≤ localLaneCount) {ops : List KvOp} (hops : ∀ op ∈ ops, op.backend ∈ B)
    (hS : NoCollision H {x | x ∈ ops.flatMap KvOp.hashes})
    (hroom : Run.Each (KvOp.apply H) (KvIndex.EachWrite H (LocalCkf.InsertRoom H)) .new ops)
    (hok : Run.Each (KvOp.apply H) (KvIndex.EachWrite H (LocalCkf.InsertOk H)) .new ops)
    (ctx : RoutingContext) (hsession : ctx.sessionId = none) (st : EngineState ExtRat σ)
    (hkv : (indices st.inner).kv = KvIndex.run H ops)
    (hcands : candidates ctx none st.store ≠ []) (now : Nat) :
    ∃ d st' c, e.route now ctx st = (.ok d, st') ∧ d.backend ∈ candidates ctx none st.store ∧
      (k.scoreOf H (indices st.inner) ctx st.store d.backend).rawCost = .num c ∧
      KvAwareStrategy.decodeCount st.store d.backend ≤ c ∧
      ∀ cand ∈ candidates ctx none st.store,
        c ≤ scale * (ctx.blockHashes.length -
            (KvIndex.run H ops).radix.findMatches ctx.blockHashes cand) +
          KvAwareStrategy.decodeCount st.store cand := by
  have hindices : indices st.inner =
      ⟨KvIndex.run H ops, (indices st.inner).consumer, (indices st.inner).topology⟩ := by
    rw [← hkv]
  have hcost := KvAwareStrategy.cost_of_events hk hscale hcard hops hS hroom hok
    (indices st.inner).consumer (indices st.inner).topology ctx st.store
  rw [← hindices] at hcost
  -- without a credit, the score is the reciprocal of the cost
  have hscore : ∀ cand, (k.scoreOf H (indices st.inner) ctx st.store cand).score =
      ExtRat.reciprocal (k.scoreOf H (indices st.inner) ctx st.store cand).rawCost ∧
        (k.scoreOf H (indices st.inner) ctx st.store cand).rawCost.IsCost := by
    intro cand
    rcases hcost cand with ⟨c, hc, hdecode, -⟩
    have hcost' : ExtRat.IsCost (.num c) := Or.inr ⟨c, le_trans (Nat.cast_nonneg _) hdecode, rfl⟩
    rcases KvAwareStrategy.exists_totalOverlap hk H (indices st.inner) ctx.blockHashes cand with
      ⟨t, ht, -⟩
    refine ⟨?_, hc ▸ hcost'⟩
    rcases hcost'.isRate_reciprocal with ⟨r, hr, -⟩
    have hsum : (k.scoreOf H (indices st.inner) ctx st.store cand).score =
        ExtRat.reciprocal (k.scoreOf H (indices st.inner) ctx st.store cand).rawCost +
          k.overlapScoreCredit * k.totalOverlap H (indices st.inner) ctx.blockHashes cand := rfl
    rw [hsum, hc, hr, hcredit, ht, ExtRat.num_mul, ExtRat.num_add, zero_mul, add_zero]
  have hnan : ∀ cand ∈ candidates ctx none st.store,
      ¬IsNan (k.scoreOf H (indices st.inner) ctx st.store cand).score := by
    intro cand _
    rw [(hscore cand).1]
    rcases (hscore cand).2.isRate_reciprocal with ⟨r, hr, -⟩
    exact not_isNan_of_val hr
  rcases route_best hprimary (scoresEach_kvAware k H indices) kvAware_ne_hybrid hcold hsession hcands hnan
    now with ⟨d, st', hroute, -, hmem, hmax⟩
  rcases hcost d.backend with ⟨c, hc, hdecode, -⟩
  refine ⟨d, st', c, hroute, hmem, hc, hdecode, ?_⟩
  intro cand hcand
  rcases hcost cand with ⟨c', hc', -, hmost⟩
  refine le_trans ?_ hmost
  have hle : Floating.le (k.scoreOf H (indices st.inner) ctx st.store cand).score
      (k.scoreOf H (indices st.inner) ctx st.store d.backend).score = true :=
    RoundedFloating.le_iff.2 ⟨hnan cand hcand, hnan d.backend hmem, hmax cand hcand⟩
  rw [(hscore cand).1, (hscore d.backend).1,
    ExtRat.le_reciprocal_iff (hscore d.backend).2 (hscore cand).2, hc, hc', ExtRat.le_num,
    decide_eq_true_eq] at hle
  exact hle

open TwoBackends

/-- The first backend stored two blocks. -/
def firstStored : List KvOp := [.applyEvent (.stored ⟨1, 0⟩ [1, 2] none []) first]

/-- An engine with the KV-aware strategy alone, and the indices for its state. -/
def kvEngine : RoutingEngine ExtRat RoutingIndices where
  hybrid := ⟨.even "kv_aware", ModelAwareStrategy.strategy, .even "load_aware",
    .even "topology_aware", ⟨Floating.lit 5 1, Floating.lit 3 1, Floating.lit 2 1⟩,
    Floating.ofNat 0, none, []⟩
  primary := some (KvAwareStrategy.default.strategy Xxh3.short id)
  sessionAffinityTtl := .fromSecs 300
  maxRetries := 3
  selfRegion := ⟨"r1"⟩
  temperature := Floating.ofNat 0
  traceSubScores := false
  xxh3 := Xxh3.short
  sampleIndex _ s := (none, s)

theorem first_mem_candidates {ctx : RoutingContext} (hmodel : ctx.modelName = none) :
    first ∈ candidates ctx none (store .new) := by
  unfold candidates
  rw [hmodel]
  exact List.mem_mergeSort.2 (by decide +kernel)

/-- A request for the two blocks costs nothing with the backend it is routed to. -/
theorem route_warm_first :
    let ctx : RoutingContext := { RoutingContext.default with blockHashes := [1, 2] }
    let st : EngineState ExtRat RoutingIndices :=
      ⟨store .new, PrefixReuseHistory.new 10000, KvIndex.run .short firstStored, .new, .new⟩
    ∃ d st', kvEngine.route 0 ctx st = (.ok d, st') ∧
      (KvAwareStrategy.default.scoreOf .short st.inner ctx st.store d.backend).rawCost = .num 0 := by
  intro ctx st
  have hS : NoCollision .short {x | x ∈ firstStored.flatMap KvOp.hashes} := by
    have h12 : ¬SameClass .short 1 2 := by decide +kernel
    have h21 : ¬SameClass .short 2 1 := by decide +kernel
    have hlist : ∀ x, x ∈ firstStored.flatMap KvOp.hashes → x = 1 ∨ x = 2 := by
      intro x hx
      simpa [firstStored, KvOp.hashes, KvCacheEvent.hashes] using hx
    intro x hx y hy hclass
    rcases hlist x hx with rfl | rfl <;> rcases hlist y hy with rfl | rfl
    · rfl
    · exact absurd hclass h12
    · exact absurd hclass h21
    · rfl
  have hzero : (Floating.ofNat 0 : ExtRat) = .num 0 :=
    (ExtRat.ofNat_eq 0).trans (congrArg _ Nat.cast_zero)
  have hone : (Floating.ofNat 1 : ExtRat) = .num 1 :=
    (ExtRat.ofNat_eq 1).trans (congrArg _ Nat.cast_one)
  have hfirst : first ∈ candidates ctx none st.store := first_mem_candidates rfl
  have hexact : KvAwareStrategy.default.Exact := ⟨⟨0, hzero⟩, ⟨1, zero_le_one, hone⟩, ⟨0, hzero⟩⟩
  rcases route_warm kvEngine (B := {first}) hexact hzero hone id rfl (by decide +kernel)
    (by decide +kernel) (by decide +kernel) hS (by decide +kernel) (by decide +kernel) ctx rfl st rfl
    (List.ne_nil_of_mem hfirst) 0 with ⟨d, st', c, hroute, -, hc, hdecode, hmost⟩
  refine ⟨d, st', hroute, ?_⟩
  -- the tree records both blocks for the first backend
  have hknown : (KvIndex.run .short firstStored).radix.findMatches [1, 2] first = 2 := by
    decide +kernel
  have hidle : KvAwareStrategy.decodeCount st.store first = 0 := rfl
  have hlen : ctx.blockHashes.length = 2 := rfl
  have hupper : c ≤ 0 := by
    have hcost := hmost first hfirst
    rw [hknown, hidle, hlen] at hcost
    norm_num at hcost
    exact hcost
  have hlower : 0 ≤ c := le_trans (Nat.cast_nonneg _) hdecode
  exact hc.trans (congrArg ExtRat.num (le_antisymm hupper hlower))

end RoutingEngine

end HierKvGateway
