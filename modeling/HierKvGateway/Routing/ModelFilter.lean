import HierKvGateway.Routing.Failover

/-!
# Routing.ModelFilter — what the model filter guarantees

A backend that the hybrid strategy chose passes the model filter. Two kinds of decisions are not
made by the hybrid strategy: the affinity head is where the session was, if that backend is still
registered, and the degradation strategy takes any candidate when the hybrid strategy fails, for
example because the filter removed all of them.
-/

namespace HierKvGateway

namespace RoutingEngine

open ModelAwareStrategy

variable {F σ : Type} [Floating F]

/-- The candidates of a request: those that are scored. -/
def scoredCandidates (e : RoutingEngine F σ) (now : Nat) (ctx : RoutingContext)
    (st : EngineState F σ) : List BackendId :=
  candidates ctx ((e.affinityHead now ctx st).1.map (·.backend)) (e.affinityHead now ctx st).2.store

omit [Floating F] in
theorem models_affinityHead (e : RoutingEngine F σ) (now : Nat) (ctx : RoutingContext)
    (st : EngineState F σ) :
    (e.affinityHead now ctx st).2.store.models = st.store.models := by
  rcases hhead : e.affinityHead now ctx st with ⟨_ | h, st'⟩
  · rw [(affinityHead_eq_none.1 hhead).2]
  · obtain ⟨a, -, -, -, rfl⟩ := affinityHead_eq_some hhead
    exact models_setSession now ctx a.backend st

/-- The list is made by `routeRest`, unless the head is all that is asked for. -/
theorem routeCandidates_cases {e : RoutingEngine F σ} {now : Nat} {ctx : RoutingContext}
    {limit : Nat} {st st' : EngineState F σ} {ds : List (RouteDecision F)}
    (hres : e.routeCandidates now ctx limit st = (.ok ds, st')) :
    ds = [] ∨ (∃ h, (e.affinityHead now ctx st).1 = some h ∧ ds = [h]) ∨
      e.routeRest now ctx limit (e.affinityHead now ctx st).1 (e.affinityHead now ctx st).2 =
        (.ok ds, st') := by
  unfold routeCandidates at hres
  split at hres
  · exact Or.inl (Except.ok.inj (Prod.mk.inj hres).1).symm
  · right
    rcases hhead : e.affinityHead now ctx st with ⟨_ | h, st''⟩
    · rw [hhead] at hres
      exact Or.inr hres
    · rw [hhead] at hres
      dsimp only at hres
      split at hres
      · exact Or.inl ⟨h, rfl, (Except.ok.inj (Prod.mk.inj hres).1).symm⟩
      · exact Or.inr hres

/-- A decision is made by the hybrid strategy, and passes the filter; or by affinity, and is
the first; or by the degradation strategy, because the hybrid strategy failed. -/
theorem mem_routeCandidates {e : RoutingEngine F σ} (hybrid : HybridStrategy F σ)
    (hprimary : e.primaryStrategy = hybrid.strategy)
    (hmodel : hybrid.model = ModelAwareStrategy.strategy) {now : Nat} {ctx : RoutingContext}
    {limit : Nat} {st st' : EngineState F σ} {ds : List (RouteDecision F)}
    (hres : e.routeCandidates now ctx limit st = (.ok ds, st')) {d : RouteDecision F} (hd : d ∈ ds) :
    (d.strategy = HybridStrategy.name ∧ Passes ctx st.store d.backend) ∨
      (d.strategy = sessionAffinity ∧ ds.head? = some d ∧
        ∃ a, affinity ctx st.store = some a ∧ d.backend = a.backend) ∨
      (d.strategy = DegradationStrategy.name ∧ d.backend ∈ e.scoredCandidates now ctx st ∧
        e.PrimaryFails ctx (e.scoredCandidates now ctx st) (e.affinityHead now ctx st).2 ∧
        DegradationStrategy.isAvailable (e.affinityHead now ctx st).2.store = true) := by
  -- a decision by affinity is the head, and its backend is that of the session
  have hhead : ∀ h, (e.affinityHead now ctx st).1 = some h → h.strategy = sessionAffinity ∧
      ∃ a, affinity ctx st.store = some a ∧ h.backend = a.backend := by
    intro h heq
    obtain ⟨a, ha, hbackend, hstrategy, -⟩ := affinityHead_eq_some (Prod.ext heq rfl)
    exact ⟨hstrategy, a, ha, hbackend⟩
  rcases routeCandidates_cases hres with rfl | ⟨h, heq, rfl⟩ | hrest
  · exact absurd hd List.not_mem_nil
  · rcases List.mem_singleton.1 hd with rfl
    obtain ⟨hstrategy, ha⟩ := hhead d heq
    exact Or.inr (Or.inl ⟨hstrategy, rfl, ha⟩)
  · rcases e.mem_routeRest hrest hd with ⟨heq, hfirst⟩ | ⟨hcands, scored, st'', hscore, pick, hpick, hid⟩
    · obtain ⟨hstrategy, ha⟩ := hhead d heq
      exact Or.inr (Or.inl ⟨hstrategy, hfirst, ha⟩)
    · rcases e.scoreCandidates_cases ctx hcands _ with
        ⟨scores, s, -, heval, heq⟩ | ⟨hfails, havail, scores, s, hdeg, -, heq⟩ | ⟨-, -, err, s, heq⟩
      · -- the hybrid strategy returns what the filter let through
        left
        rw [hscore] at heq
        rcases Prod.mk.inj (Except.ok.inj (Prod.mk.inj heq).1) with ⟨rfl, hname⟩
        rw [hprimary] at heval hname
        have hpasses := (HybridStrategy.mem_evaluate hmodel heval hpick).2
        rw [← hid, passes_congr (models_affinityHead e now ctx st)] at hpasses
        exact ⟨hname, hpasses⟩
      · right
        right
        rw [hscore] at heq
        rcases Prod.mk.inj (Except.ok.inj (Prod.mk.inj heq).1) with ⟨rfl, hname⟩
        -- the degradation strategy ranks all candidates, filtered or not
        rw [hdeg] at hpick
        refine ⟨hname, ?_, hfails, havail⟩
        obtain ⟨cand, hcand, rfl⟩ := List.mem_map.1 hpick
        rw [hid, DegradationStrategy.backendId_scoreOf]
        exact hcand
      · rw [hscore] at heq
        exact absurd (Prod.mk.inj heq).1 nofun

open TwoBackends

/-- The session is on the second backend, which cannot call tools: that stays the head, and the
hybrid strategy adds the first, which passes the filter. -/
theorem mem_routeCandidates_second :
    let st := state (RoutingHistory.new.set 0 session second 0)
    ∃ d, d.backend = first ∧ (engine.routeCandidates 0 request 2 st).1 =
        .ok [⟨second, sessionAffinity, 0, []⟩, d] ∧
      ((d.strategy = HybridStrategy.name ∧ Passes request st.store d.backend) ∨
        (d.strategy = sessionAffinity ∧
          [⟨second, sessionAffinity, 0, []⟩, d].head? = some d ∧
          ∃ a, affinity request st.store = some a ∧ d.backend = a.backend) ∨
        (d.strategy = DegradationStrategy.name ∧
          d.backend ∈ engine.scoredCandidates 0 request st ∧
          engine.PrimaryFails request (engine.scoredCandidates 0 request st)
            (engine.affinityHead 0 request st).2 ∧
          DegradationStrategy.isAvailable (engine.affinityHead 0 request st).2.store = true)) := by
  have hlist : (engine.routeCandidates 0 request 2
      (state (RoutingHistory.new.set 0 session second 0))).1 =
        .ok [⟨second, sessionAffinity, 0, []⟩,
          ⟨first, HybridStrategy.name, 0, [(HybridStrategy.name, .num 1)]⟩] := by
    decide +kernel
  refine ⟨_, rfl, hlist, ?_⟩
  exact mem_routeCandidates engine.hybrid rfl rfl (Prod.ext hlist rfl)
    (List.mem_cons_of_mem _ List.mem_cons_self)

/-- The session is on the second backend, the request is for a model that nobody hosts, and there
is no KV data: neither decision passes the filter. -/
theorem past_filter :
    let ctx := { request with modelName := some "n" }
    let store := { store (RoutingHistory.new.set 0 session second 0) with kvConfidence := .num 0 }
    (engine.routeCandidates 0 ctx 2 ⟨store, PrefixReuseHistory.new 10000, ()⟩).1 =
        .ok [⟨second, sessionAffinity, 0, []⟩,
          ⟨first, DegradationStrategy.name, 0, [(DegradationStrategy.name, .num (1 / 100))]⟩] ∧
      ¬Passes ctx store second ∧ ¬Passes ctx store first := by
  decide +kernel

end RoutingEngine

end HierKvGateway
