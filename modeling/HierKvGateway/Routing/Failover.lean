import HierKvGateway.Core.ExtRat
import HierKvGateway.Metadata.Xxh3
import HierKvGateway.Routing.Selection

/-!
# Routing.Failover — the failover list against the single choice

A caller may ask for one decision (`route`) or for a list to fail over along
(`routeCandidates`). With greedy selection the first of the list is the single decision, unless
the session has an affinity head and the other candidates cannot be scored: then the list
is an error, and the head is lost (`RoutingEngine.agrees_iff`).
-/

namespace HierKvGateway

namespace RoutingEngine

variable {F σ : Type} (e : RoutingEngine F σ) (now : Nat) (ctx : RoutingContext)

/-- The list starts with the single decision, or there is neither. -/
def Agrees (list : Except HierKvGatewayError (List (RouteDecision F)))
    (single : Except HierKvGatewayError (RouteDecision F)) : Prop :=
  match list, single with
  | .ok ds, .ok d =>
    ∃ first, ds.head? = some first ∧ first.backend = d.backend ∧ first.strategy = d.strategy
  | .error _, .error _ => True
  | _, _ => False

/-- The strategies whose scores are traced all evaluate. -/
def Traceable (cands : List BackendId) (store : MetadataStore F) (s : σ) : Prop :=
  ∃ kv s₁, e.hybrid.kv.evaluate ctx cands store s = (.ok kv, s₁) ∧
    ∃ load s₂, e.hybrid.load.evaluate ctx cands store s₁ = (.ok load, s₂) ∧
      ∃ topo s₃, e.hybrid.topology.evaluate ctx cands store s₂ = (.ok topo, s₃)

/-! ## Steps 5 to 8 -/

theorem traceScores_of_not (cands : List BackendId) (used : String) (first : BackendId)
    (st : EngineState F σ) (h : ¬(e.traceSubScores = true ∧ used = HybridStrategy.name)) :
    e.traceScores ctx cands used first st = (.ok [], st) := by
  unfold traceScores
  rw [if_neg (by simpa using h)]

theorem traceScores_of_traceable {cands : List BackendId} (used : String) (first : BackendId)
    {st : EngineState F σ} (h : e.Traceable ctx cands st.store st.inner) :
    ∃ scores st', e.traceScores ctx cands used first st = (.ok scores, st') := by
  obtain ⟨kv, s₁, hkv, load, s₂, hload, topo, s₃, htopo⟩ := h
  unfold traceScores
  split
  · rw [hkv]
    dsimp only
    rw [hload]
    dsimp only
    rw [htopo]
    exact ⟨_, _, rfl⟩
  · exact ⟨_, _, rfl⟩

theorem traceScores_of_not_traceable {cands : List BackendId} (first : BackendId)
    (st : EngineState F σ) (htrace : e.traceSubScores = true)
    (h : ¬e.Traceable ctx cands st.store st.inner) :
    ∃ err st', e.traceScores ctx cands HybridStrategy.name first st = (.error err, st') := by
  unfold traceScores
  rw [if_pos (by simp [htrace])]
  rcases hkv : e.hybrid.kv.evaluate ctx cands st.store st.inner with ⟨err | kv, s₁⟩
  · exact ⟨_, _, rfl⟩
  · dsimp only
    rcases hload : e.hybrid.load.evaluate ctx cands st.store s₁ with ⟨err | load, s₂⟩
    · exact ⟨_, _, rfl⟩
    · dsimp only
      rcases htopo : e.hybrid.topology.evaluate ctx cands st.store s₂ with ⟨err | topo, s₃⟩
      · exact ⟨_, _, rfl⟩
      · exact absurd ⟨kv, s₁, hkv, load, s₂, hload, topo, s₃, htopo⟩ h

/-- The outcome of steps 5 to 8 for the first pick. -/
theorem conclude_cons (head : Option (RouteDecision F)) (cands : List BackendId) (used : String)
    (first : ScoredBackend F) (st : EngineState F σ) :
    (∃ err st', ∀ ranked, e.conclude now ctx head cands used first (first :: ranked) st =
      (.error err, st')) ∨
    ∃ d store st', ∀ ranked, e.conclude now ctx head cands used first (first :: ranked) st =
      (.ok (head.toList ++ d :: decisions ctx used store [] ranked), st') := by
  unfold conclude
  dsimp only
  rcases e.traceScores ctx cands used first.backendId _ with ⟨err | scores, st'⟩
  · exact Or.inl ⟨err, st', fun _ => rfl⟩
  · exact Or.inr ⟨_, st'.store, st', fun _ => rfl⟩

theorem conclude_head {h : RouteDecision F} {cands : List BackendId} {used : String}
    {first : ScoredBackend F} {st st' : EngineState F σ} {headScores : List (String × F)}
    (htrace : e.traceScores ctx cands used first.backendId st = (.ok headScores, st'))
    (ranked : List (ScoredBackend F)) :
    e.conclude now ctx (some h) cands used first ranked st =
      (.ok (h :: decisions ctx used st'.store headScores ranked), st') := by
  unfold conclude
  dsimp only [Option.isNone]
  rw [if_neg Bool.false_ne_true, htrace]
  rfl

theorem conclude_head_error {h : RouteDecision F} {cands : List BackendId} {used : String}
    {first : ScoredBackend F} {st st' : EngineState F σ} {err : HierKvGatewayError}
    (htrace : e.traceScores ctx cands used first.backendId st = (.error err, st'))
    (ranked : List (ScoredBackend F)) :
    e.conclude now ctx (some h) cands used first ranked st = (.error err, st') := by
  unfold conclude
  dsimp only [Option.isNone]
  rw [if_neg Bool.false_ne_true, htrace]

theorem length_decisions (used : String) (store : MetadataStore F)
    (scores : List (String × F)) (ranked : List (ScoredBackend F)) :
    (decisions ctx used store scores ranked).length = ranked.length := by
  induction ranked generalizing scores with
  | nil => rfl
  | cons pick ranked ih => exact congrArg (· + 1) (ih [])

/-! ## The condition -/

variable [Floating F]

/-- The candidates can be scored: the primary strategy has scores for them (and those to be
traced can be had), or the degradation strategy stands in. -/
def Scorable (cands : List BackendId) (st : EngineState F σ) : Prop :=
  (∃ scores s, scores ≠ [] ∧
    e.primaryStrategy.evaluate ctx cands st.store st.inner = (.ok scores, s) ∧
    (e.traceSubScores = true → e.primaryStrategy.name = HybridStrategy.name →
      e.Traceable ctx cands st.store s)) ∨
  (e.PrimaryFails ctx cands st ∧ DegradationStrategy.isAvailable st.store = true)

/-- If the session has an affinity head, then there are no other candidates, or they can be
scored. -/
def OthersScorable (st : EngineState F σ) : Prop :=
  ∀ h st', e.affinityHead now ctx st = (some h, st') →
    candidates ctx (some h.backend) st'.store = [] ∨
      e.Scorable ctx (candidates ctx (some h.backend) st'.store) st'

/-! ## The head and the limit -/

section Greedy

variable (htemp : Floating.le e.temperature (Floating.ofNat 0) = true)

include htemp

/-- Once the candidates are scored, the first pick is fixed. -/
theorem routeRest_scored (head : Option (RouteDecision F)) {st st' : EngineState F σ}
    {scored : List (ScoredBackend F)} {used : String}
    (hcands : candidates ctx (head.map (·.backend)) st.store ≠ [])
    (hscore : e.scoreCandidates ctx (candidates ctx (head.map (·.backend)) st.store) st =
      (.ok (scored, used), st')) (hscored : scored ≠ []) :
    ∃ first, ∀ slots, ∃ ranked, ranked.length ≤ slots ∧
      e.routeRest now ctx (slots + 1 + head.toList.length) head st =
        e.conclude now ctx head (candidates ctx (head.map (·.backend)) st.store) used first
          (first :: ranked) st' := by
  obtain ⟨first, hfirst⟩ := e.selectRanked_greedy htemp hscored
  refine ⟨first, ?_⟩
  intro slots
  obtain ⟨ranked, hlen, hranked⟩ := hfirst slots st'.inner
  refine ⟨ranked, hlen, ?_⟩
  unfold routeRest
  rw [if_neg hcands, hscore]
  dsimp only
  rw [Nat.add_sub_cancel, hranked]

/-- Without a head, the limit only matters for what follows the first decision. -/
theorem routeRest_headless (st : EngineState F σ) :
    ∃ (outcome : Except HierKvGatewayError (RouteDecision F)) (st' : EngineState F σ),
      ∀ slots, ∃ rest, rest.length ≤ slots ∧
        e.routeRest now ctx (slots + 1) none st = (outcome.map (· :: rest), st') := by
  by_cases hcands : candidates ctx none st.store = []
  · refine ⟨.error .backendUnavailable, st, ?_⟩
    intro slots
    refine ⟨[], Nat.zero_le _, ?_⟩
    unfold routeRest
    exact if_pos hcands
  · rcases hscore : e.scoreCandidates ctx (candidates ctx none st.store) st with
      ⟨err | ⟨scored, used⟩, st'⟩
    · refine ⟨.error err, st', ?_⟩
      intro slots
      refine ⟨[], Nat.zero_le _, ?_⟩
      unfold routeRest
      simp only [Option.map_none, if_neg hcands, hscore]
      rfl
    · have hscored : scored ≠ [] := e.scored_ne_nil ctx hcands hscore
      obtain ⟨first, hrest⟩ := e.routeRest_scored now ctx htemp none hcands hscore hscored
      rcases e.conclude_cons now ctx none (candidates ctx none st.store) used first st' with
        ⟨err, st'', hconcl⟩ | ⟨d, store, st'', hconcl⟩
      · refine ⟨.error err, st'', ?_⟩
        intro slots
        obtain ⟨ranked, hlen, heq⟩ := hrest slots
        exact ⟨[], Nat.zero_le _, heq.trans (hconcl ranked)⟩
      · refine ⟨.ok d, st'', ?_⟩
        intro slots
        obtain ⟨ranked, hlen, heq⟩ := hrest slots
        refine ⟨decisions ctx used store [] ranked, ?_, heq.trans (hconcl ranked)⟩
        rw [length_decisions]
        exact hlen

/-- A head that is not alone stays if the others can be scored. -/
theorem routeRest_of_scorable (h : RouteDecision F) {st : EngineState F σ}
    (hscor : candidates ctx (some h.backend) st.store = [] ∨
      e.Scorable ctx (candidates ctx (some h.backend) st.store) st) (slots : Nat) :
    ∃ rest st', e.routeRest now ctx (slots + 2) (some h) st = (.ok (h :: rest), st') := by
  by_cases hcands : candidates ctx (some h.backend) st.store = []
  · unfold routeRest
    exact ⟨[], st, if_pos hcands⟩
  · have hscor := hscor.resolve_left hcands
    rcases e.scoreCandidates_cases ctx hcands st with
      ⟨scores, s, hne, heval, hscore⟩ | ⟨hfails, havail, scores, s, hdeg, hne, hscore⟩ |
      ⟨hfails, havail, err, s, hscore⟩
    · obtain ⟨first, hrest⟩ := e.routeRest_scored now ctx htemp (some h) hcands hscore hne
      obtain ⟨ranked, hlen, heq⟩ := hrest slots
      have htrace : ∃ headScores st', e.traceScores ctx
          (candidates ctx (some h.backend) st.store) e.primaryStrategy.name first.backendId
          { st with inner := s } = (.ok headScores, st') := by
        rcases hscor with ⟨scores', s', _, heval', htrace⟩ | ⟨hfails, _⟩
        · rcases Prod.mk.inj (heval'.symm.trans heval) with ⟨_, rfl⟩
          by_cases hon : e.traceSubScores = true ∧ e.primaryStrategy.name = HybridStrategy.name
          · exact e.traceScores_of_traceable ctx _ _ (htrace hon.1 hon.2)
          · exact ⟨_, _, e.traceScores_of_not ctx _ _ _ _ hon⟩
        · exact absurd (hfails scores s heval) hne
      obtain ⟨headScores, st', htrace⟩ := htrace
      exact ⟨_, st', heq.trans (e.conclude_head now ctx htrace _)⟩
    · obtain ⟨first, hrest⟩ := e.routeRest_scored now ctx htemp (some h) hcands hscore hne
      obtain ⟨ranked, hlen, heq⟩ := hrest slots
      have htrace := e.traceScores_of_not ctx (candidates ctx (some h.backend) st.store)
        DegradationStrategy.name first.backendId { st with inner := s }
        (fun hname => absurd hname.2 (by decide))
      exact ⟨_, _, heq.trans (e.conclude_head now ctx htrace _)⟩
    · rcases hscor with ⟨scores', s', hne, heval, _⟩ | ⟨_, havail'⟩
      · exact absurd (hfails scores' s' heval) hne
      · exact absurd (havail'.symm.trans havail) nofun

/-- A head that is not alone is lost if the others cannot be scored. -/
theorem routeRest_of_not_scorable (h : RouteDecision F) {st : EngineState F σ}
    (hcands : candidates ctx (some h.backend) st.store ≠ [])
    (hscor : ¬e.Scorable ctx (candidates ctx (some h.backend) st.store) st) (slots : Nat) :
    ∃ err st', e.routeRest now ctx (slots + 2) (some h) st = (.error err, st') := by
  rcases e.scoreCandidates_cases ctx hcands st with
    ⟨scores, s, hne, heval, hscore⟩ | ⟨hfails, havail, _⟩ | ⟨hfails, havail, err, s, hscore⟩
  · obtain ⟨first, hrest⟩ := e.routeRest_scored now ctx htemp (some h) hcands hscore hne
    obtain ⟨ranked, hlen, heq⟩ := hrest slots
    have htrace : ¬(e.traceSubScores = true → e.primaryStrategy.name = HybridStrategy.name →
        e.Traceable ctx (candidates ctx (some h.backend) st.store) st.store s) := by
      intro htrace
      exact hscor (Or.inl ⟨scores, s, hne, heval, htrace⟩)
    simp only [not_forall] at htrace
    obtain ⟨hon, hname, htrace⟩ := htrace
    obtain ⟨err, st', hconcl⟩ := e.traceScores_of_not_traceable ctx first.backendId
      { st with inner := s } hon htrace
    rw [← hname] at hconcl
    exact ⟨err, st', heq.trans (e.conclude_head_error now ctx hconcl _)⟩
  · exact absurd (Or.inr ⟨hfails, havail⟩) hscor
  · refine ⟨err, { st with inner := s }, ?_⟩
    unfold routeRest
    simp only [Option.map_some, if_neg hcands, hscore]

/-- Without a head, the list agrees with the single choice. -/
theorem agrees_of_headless {st st' : EngineState F σ}
    (hhead : e.affinityHead now ctx st = (none, st')) (slots : Nat) :
    Agrees (e.routeCandidates now ctx (slots + 1) st).1 (e.route now ctx st).1 := by
  obtain ⟨outcome, st'', hrest⟩ := e.routeRest_headless now ctx htemp st'
  have hlist : ∀ slots, e.routeCandidates now ctx (slots + 1) st =
      e.routeRest now ctx (slots + 1) none st' := by
    intro slots
    unfold routeCandidates
    rw [if_neg (Nat.succ_ne_zero slots), hhead]
  obtain ⟨rest, hlen, heq⟩ := hrest slots
  obtain ⟨rest', hlen', heq'⟩ := hrest 0
  have hnil : rest' = [] := List.eq_nil_of_length_eq_zero (Nat.le_zero.1 hlen')
  unfold route
  rw [hlist slots, heq, hlist 0, heq', hnil]
  cases outcome with
  | error err => exact True.intro
  | ok d => exact ⟨d, rfl, rfl, rfl⟩

omit htemp in
/-- The single choice of a session with a head is the head. -/
theorem route_head {st st' : EngineState F σ} {h : RouteDecision F}
    (hhead : e.affinityHead now ctx st = (some h, st')) : e.route now ctx st = (.ok h, st') := by
  unfold route routeCandidates
  rw [if_neg Nat.one_ne_zero, hhead]
  rfl

/-- The failover list and the single choice agree, unless the session has a head, more than
the head is asked for, and the other candidates cannot be scored. -/
theorem agrees_iff {limit : Nat} (hlimit : 1 ≤ limit) (st : EngineState F σ) :
    Agrees (e.routeCandidates now ctx limit st).1 (e.route now ctx st).1 ↔
      limit = 1 ∨ e.OthersScorable now ctx st := by
  obtain ⟨slots, rfl⟩ := Nat.exists_eq_add_of_le' hlimit
  rcases hhead : e.affinityHead now ctx st with ⟨_ | h, st'⟩
  · constructor
    · intro _
      refine Or.inr ?_
      intro h st'' heq
      rw [hhead] at heq
      exact absurd (Prod.mk.inj heq).1 nofun
    · intro _
      -- without a head both ask the strategy for the same list
      exact e.agrees_of_headless now ctx htemp hhead slots
  · rw [e.route_head now ctx hhead]
    rcases slots with _ | slots
    · -- one candidate is the head alone
      have hlist : e.routeCandidates now ctx (0 + 1) st = (.ok [h], st') := by
        unfold routeCandidates
        rw [if_neg (Nat.succ_ne_zero 0), hhead]
        rfl
      rw [hlist]
      constructor
      · intro _
        exact Or.inl rfl
      · intro _
        exact ⟨h, rfl, rfl, rfl⟩
    · -- more than the head: the others are scored
      have hlist : e.routeCandidates now ctx (slots + 1 + 1) st =
          e.routeRest now ctx (slots + 2) (some h) st' := by
        unfold routeCandidates
        rw [if_neg (Nat.succ_ne_zero _), hhead]
        exact if_neg (by omega)
      rw [hlist]
      constructor
      · intro hagrees
        refine Or.inr ?_
        intro h' st'' heq
        rcases Prod.mk.inj (hhead.symm.trans heq) with ⟨hh, rfl⟩
        rcases Option.some.inj hh with rfl
        -- if they cannot be scored, the list is an error and the single choice is not
        by_contra hnot
        rw [not_or] at hnot
        obtain ⟨err, st'', hrest⟩ := e.routeRest_of_not_scorable now ctx htemp h hnot.1 hnot.2 slots
        rw [hrest] at hagrees
        exact hagrees
      · intro hcond
        have hscor := hcond.resolve_left (by omega) h st' hhead
        obtain ⟨rest, st'', hrest⟩ := e.routeRest_of_scorable now ctx htemp h hscor slots
        rw [hrest]
        exact ⟨h, rfl, rfl, rfl⟩

end Greedy

end RoutingEngine

/-! ## Two backends

Both host the model, and only the first can call tools. -/

namespace TwoBackends

/-- The first backend. -/
def first : BackendId := ⟨⟨"r1"⟩, ⟨"a"⟩⟩

/-- The second backend. -/
def second : BackendId := ⟨⟨"r1"⟩, ⟨"b"⟩⟩

/-- The model as a backend hosts it. -/
def hosted (tools : Bool) : ModelInstance := ⟨"m", "", 4096, tools⟩

/-- The session. -/
def session : SessionId := ⟨"s"⟩

/-- A request of the session for the model, with tools. -/
def request : RoutingContext :=
  { RoutingContext.default with
    sessionId := some session, modelName := some "m", requiresToolCalling := true }

/-- The store, with a session history. -/
def store (history : RoutingHistory) : MetadataStore ExtRat where
  backends := ((∅ : AList fun _ : BackendId => BackendInfo).insert first
    ⟨first, [hosted true], ⟨"r1"⟩, ⟨0⟩⟩).insert second ⟨second, [hosted false], ⟨"r1"⟩, ⟨0⟩⟩
  models := (ModelRegistry.new.register first [hosted true]).register second [hosted false]
  history := history
  kvFindLocalOverlap _ _ := 0
  kvConfidence := Floating.ofNat 1
  loadFreshness _ := some (.fromSecs 0)
  loadGetMetrics _ := some ⟨0, 0, 0, 0, 0, 100, 0, 0, 0, ⟨0, 0, 0, 0⟩, 0⟩

/-- A greedy engine with a TTL of 300 s. -/
def engine : RoutingEngine ExtRat Unit :=
  .new ⟨.even "kv_aware", ModelAwareStrategy.strategy, .even "load_aware", .even "topology_aware",
    ⟨Floating.lit 5 1, Floating.lit 3 1, Floating.lit 2 1⟩, Floating.ofNat 0, none, []⟩
    (.fromSecs 300) 3 ⟨"r1"⟩ Xxh3.short (fun _ s => (none, s))

/-- The state of the engine with a session history. -/
def state (history : RoutingHistory) : EngineState ExtRat Unit :=
  ⟨store history, PrefixReuseHistory.new 10000, ()⟩

end TwoBackends

namespace RoutingEngine

open TwoBackends

/-- The session was routed to the first backend: alone it is the decision, but with a failover
list it is lost. -/
theorem head_lost :
    let st := state (RoutingHistory.new.set 0 session first 0)
    Floating.le engine.temperature (Floating.ofNat 0) = true ∧
      (engine.route 0 request st).1 = .ok ⟨first, sessionAffinity, 0, []⟩ ∧
      (engine.routeCandidates 0 request 2 st).1 =
        .error (.routingFailed "No candidate backend passed the model-aware filter") ∧
      ¬Agrees (engine.routeCandidates 0 request 2 st).1 (engine.route 0 request st).1 := by
  have hroute : (engine.route 0 request (state (RoutingHistory.new.set 0 session first 0))).1 =
      .ok ⟨first, sessionAffinity, 0, []⟩ := by decide +kernel
  have hlist : (engine.routeCandidates 0 request 2
      (state (RoutingHistory.new.set 0 session first 0))).1 =
        .error (.routingFailed "No candidate backend passed the model-aware filter") := by
    decide +kernel
  refine ⟨by decide +kernel, hroute, hlist, ?_⟩
  rw [hroute, hlist]
  exact id

/-- Asked for two backends, a session without a record gets the first as head, in both ways. -/
theorem agrees_new_session :
    Agrees (engine.routeCandidates 0 request 2 (state .new)).1
      (engine.route 0 request (state .new)).1 := by
  refine (engine.agrees_iff 0 request (by decide +kernel) (by decide) _).2 (Or.inr ?_)
  intro h st' hhead
  have hnone : (engine.affinityHead 0 request (state .new)).1 = none := rfl
  rw [hhead] at hnone
  exact absurd hnone (Option.some_ne_none h)

end RoutingEngine

end HierKvGateway
