import HierKvGateway.Lib.Run
import HierKvGateway.Routing.Failover

/-!
# Routing.Affinity — the age of session records

The engine is given a TTL for session records, but a request does not look at the age of its
session's record, and `evict_expired`, which would, is called by nobody: a session is pinned for as
long as its backend is registered.

`RoutingEngine.expires` says when a request of a long unused session is routed like one of a new
session.
-/

namespace HierKvGateway

namespace RoutingEngine

variable {F σ : Type} [Floating F] (e : RoutingEngine F σ) (now : Nat) (ctx : RoutingContext)

/-! ## A new session -/

/-- What a request of a session without a record gets. -/
def routeNew (limit : Nat) (st : EngineState F σ) :
    Except HierKvGatewayError (List (RouteDecision F)) × EngineState F σ :=
  if limit = 0 then (.ok [], st) else e.routeRest now ctx limit none st

theorem routeCandidates_eq_routeNew {limit : Nat} {st : EngineState F σ}
    (h : limit = 0 ∨ affinity ctx st.store = none) :
    e.routeCandidates now ctx limit st = e.routeNew now ctx limit st := by
  unfold routeCandidates routeNew
  split
  · rfl
  · rename_i hlimit
    rw [affinityHead_eq_none.2 ⟨h.resolve_left hlimit, rfl⟩]

theorem routeCandidates_new_session {session : SessionId} (hsession : ctx.sessionId = some session)
    {st : EngineState F σ} (h : st.store.sessionGet session = none) (limit : Nat) :
    e.routeCandidates now ctx limit st = e.routeNew now ctx limit st := by
  apply e.routeCandidates_eq_routeNew
  right
  unfold affinity
  rw [hsession, Option.bind_some, h]
  rfl

/-- Had the records been evicted before the request, an old one would not count. -/
theorem routeCandidates_evicted {session : SessionId} (hsession : ctx.sessionId = some session)
    {st : EngineState F σ} {a : SessionAffinity} (ha : st.store.sessionGet session = some a)
    {ttl : Duration} (hold : RoutingHistory.Expired now ttl a) (limit : Nat) :
    let st' := { st with store := (st.store.sessionEvictExpired now ttl).2 }
    e.routeCandidates now ctx limit st' = e.routeNew now ctx limit st' := by
  apply e.routeCandidates_new_session now ctx hsession
  have hget := RoutingHistory.get_evictExpired now ttl st.store.history session
  unfold MetadataStore.sessionGet at ha
  rw [ha] at hget
  exact hget.trans (Option.filter_eq_none_iff.2 fun a' ha' => by
    rcases Option.some.inj ha' with rfl
    simpa using hold)

/-- Decisions for a new session bear the name of the strategy that scored. -/
theorem strategy_routeNew {limit : Nat} {st st' : EngineState F σ} {ds : List (RouteDecision F)}
    (hres : e.routeNew now ctx limit st = (.ok ds, st')) {d : RouteDecision F} (hd : d ∈ ds) :
    d.strategy = e.primaryStrategy.name ∨ d.strategy = DegradationStrategy.name := by
  unfold routeNew at hres
  split at hres
  · rcases Except.ok.inj (Prod.mk.inj hres).1 with rfl
    exact absurd hd List.not_mem_nil
  · rcases e.mem_routeRest hres hd with ⟨hhead, -⟩ | ⟨hcands, scored, st'', hscore, -⟩
    · exact absurd hhead.symm (Option.some_ne_none d)
    · rcases e.scoreCandidates_cases ctx hcands st with
        ⟨scores, s, -, -, heq⟩ | ⟨-, -, scores, s, -, -, heq⟩ | ⟨-, -, err, s, heq⟩
      · left
        rw [hscore] at heq
        exact (Prod.mk.inj (Except.ok.inj (Prod.mk.inj heq).1)).2
      · right
        rw [hscore] at heq
        exact (Prod.mk.inj (Except.ok.inj (Prod.mk.inj heq).1)).2
      · rw [hscore] at heq
        exact absurd (Prod.mk.inj heq).1 nofun

/-! ## What a call writes into the session records -/

/-- A new record is one of the request's session, used in this second. -/
def Recorded (h h' : RoutingHistory) : Prop :=
  ∀ session a, h'.get session = some a →
    h.get session = some a ∨ ctx.sessionId = some session ∧ a.lastUsedUnix = now

theorem Recorded.refl (h : RoutingHistory) : Recorded now ctx h h := fun _ _ => Or.inl

variable {now ctx} in
theorem Recorded.trans {h h' h'' : RoutingHistory} (h₁ : Recorded now ctx h h')
    (h₂ : Recorded now ctx h' h'') : Recorded now ctx h h'' := by
  intro session a ha
  rcases h₂ session a ha with hold | hnew
  · exact h₁ session a hold
  · exact Or.inr hnew

omit [Floating F] in
theorem recorded_setSession (backend : BackendId) (st : EngineState F σ) :
    Recorded now ctx st.store.history (setSession now ctx backend st).store.history := by
  unfold setSession
  rcases hsession : ctx.sessionId with _ | session
  · exact Recorded.refl now ctx _
  · intro session' a ha
    rcases RoutingHistory.get_set_cases ha with hold | ⟨rfl, hnow⟩
    · exact Or.inl hold
    · exact Or.inr ⟨hsession, hnow⟩

omit [Floating F] in
theorem recorded_conclude (head : Option (RouteDecision F)) (cands : List BackendId)
    (used : String) (first : ScoredBackend F) (ranked : List (ScoredBackend F))
    (st : EngineState F σ) :
    Recorded now ctx st.store.history
      (e.conclude now ctx head cands used first ranked st).2.store.history := by
  have hwritten : Recorded now ctx st.store.history
      (if head.isNone then
          setSession now ctx first.backendId (e.recordDispatch now ctx first.backendId st)
        else st).store.history := by
    split
    · exact recorded_setSession now ctx first.backendId (e.recordDispatch now ctx first.backendId st)
    · exact Recorded.refl now ctx _
  unfold conclude
  dsimp only
  split
  · rename_i heq
    rw [← (e.sameRecords_traceScores ctx heq).store] at hwritten
    exact hwritten
  · rename_i heq
    rw [← (e.sameRecords_traceScores ctx heq).store] at hwritten
    exact hwritten

theorem recorded_routeRest (limit : Nat) (head : Option (RouteDecision F)) (st : EngineState F σ) :
    Recorded now ctx st.store.history (e.routeRest now ctx limit head st).2.store.history := by
  unfold routeRest
  dsimp only
  split
  · split
    · exact Recorded.refl now ctx _
    · exact Recorded.refl now ctx _
  · rename_i hcands
    split
    · rename_i hscore
      rw [← (e.sameRecords_scoreCandidates ctx hcands hscore).store]
      exact Recorded.refl now ctx _
    · rename_i st' hscore
      rw [← (e.sameRecords_scoreCandidates ctx hcands hscore).store]
      split
      · split
        · exact Recorded.refl now ctx _
        · exact Recorded.refl now ctx _
      · rename_i inner _
        exact e.recorded_conclude now ctx head _ _ _ _ { st' with inner := inner }

theorem recorded_routeCandidates (limit : Nat) (st : EngineState F σ) :
    Recorded now ctx st.store.history (e.routeCandidates now ctx limit st).2.store.history := by
  unfold routeCandidates
  split
  · exact Recorded.refl now ctx _
  · rcases hhead : e.affinityHead now ctx st with ⟨_ | h, st'⟩
    · rw [(affinityHead_eq_none.1 hhead).2]
      exact e.recorded_routeRest now ctx limit none st
    · obtain ⟨a, -, -, -, hst⟩ := affinityHead_eq_some hhead
      have hpinned : Recorded now ctx st.store.history st'.store.history := by
        rw [hst]
        exact recorded_setSession now ctx a.backend st
      dsimp only
      split
      · exact hpinned
      · exact hpinned.trans (e.recorded_routeRest now ctx limit (some h) st')

end RoutingEngine

/-! ## Runs -/

/-- What happens to the records of sessions. -/
inductive SessionEvent (F σ : Type) where
  | routeCandidates (ctx : RoutingContext) (limit : Nat)
  | sessionSet (session : SessionId) (backend : BackendId) (kvOverlap : BitVec 32)
  /-- A broadcast of another instance arrives (`handle_session_affinity`). -/
  | handleSessionAffinity (session : SessionId) (region : RegionId) (backendInstance : String)
  /-- Backends, models, metrics and strategies change. -/
  | metadata (st : EngineState F σ)

/-- The session that an event uses or sets. -/
def SessionEvent.session {F σ : Type} : SessionEvent F σ → Option SessionId
  | .routeCandidates ctx _ => ctx.sessionId
  | .sessionSet session _ _ => some session
  | .handleSessionAffinity session _ _ => some session
  | .metadata _ => none

/-- A gateway, with the time each session was last used or set. -/
structure SessionWorld (F σ : Type) where
  engine : EngineState F σ
  now : Nat
  lastUse : SessionId → Option Nat

namespace RoutingEngine

variable {F σ : Type} [Floating F] (e : RoutingEngine F σ)

/-- What an event does to the engine. -/
def applyEvent (now : Nat) (st : EngineState F σ) : SessionEvent F σ → EngineState F σ
  | .routeCandidates ctx limit => (e.routeCandidates now ctx limit st).2
  | .sessionSet session backend kvOverlap =>
    { st with store := st.store.sessionSet now session backend kvOverlap }
  -- the broadcast does not carry the overlap
  | .handleSessionAffinity session region backendInstance =>
    { st with store := st.store.sessionSet now session ⟨region, ⟨backendInstance⟩⟩ 0 }
  | .metadata st' => { st' with store := { st'.store with history := st.store.history } }

/-- An event happens in the second `ev.1`. -/
def sessionStep (w : SessionWorld F σ) (ev : Nat × SessionEvent F σ) : SessionWorld F σ where
  engine := e.applyEvent ev.1 w.engine ev.2
  now := ev.1
  lastUse session := if ev.2.session = some session then some ev.1 else w.lastUse session

/-- The clock does not go back. -/
def Later (w : SessionWorld F σ) (ev : Nat × SessionEvent F σ) : Prop := w.now ≤ ev.1

/-- A request of a session that was last used or set more than the TTL ago is routed as one of a
new session, and not by affinity (which a strategy could only pretend by its name). -/
def Expires (w : SessionWorld F σ) (ev : Nat × SessionEvent F σ) : Prop :=
  ∀ ctx limit session t, ev.2 = .routeCandidates ctx limit → ctx.sessionId = some session →
    w.lastUse session = some t → t + e.sessionAffinityTtl.asSecs < ev.1 →
    e.routeCandidates ev.1 ctx limit w.engine = e.routeNew ev.1 ctx limit w.engine ∧
      (e.primaryStrategy.name ≠ sessionAffinity → ∀ ds st',
        e.routeCandidates ev.1 ctx limit w.engine = (.ok ds, st') →
          ∀ d ∈ ds, d.strategy ≠ sessionAffinity)

/-- A request finds no record that is older than the TTL and whose backend is registered. -/
def NonePinned (w : SessionWorld F σ) (ev : Nat × SessionEvent F σ) : Prop :=
  ∀ ctx limit a, ev.2 = .routeCandidates ctx limit → affinity ctx w.engine.store = some a →
    limit = 0 ∨ ev.1 ≤ a.lastUsedUnix + e.sessionAffinityTtl.asSecs

/-- No record is younger than the last use of its session. -/
def RecordsOlder (w : SessionWorld F σ) : Prop :=
  ∀ session a, w.engine.store.sessionGet session = some a →
    ∃ t, w.lastUse session = some t ∧ a.lastUsedUnix ≤ t ∧ t ≤ w.now

/-- An event only writes a record of the session that it uses, of this second. -/
theorem sessionGet_applyEvent {now : Nat} {st : EngineState F σ} {ev : SessionEvent F σ}
    {session : SessionId} {a : SessionAffinity}
    (ha : (e.applyEvent now st ev).store.sessionGet session = some a) :
    st.store.sessionGet session = some a ∨ ev.session = some session ∧ a.lastUsedUnix = now := by
  cases ev with
  | routeCandidates ctx limit => exact e.recorded_routeCandidates now ctx limit st session a ha
  | sessionSet session' backend kvOverlap =>
    rcases RoutingHistory.get_set_cases ha with hold | ⟨rfl, hnow⟩
    · exact Or.inl hold
    · exact Or.inr ⟨rfl, hnow⟩
  | handleSessionAffinity session' region backendInstance =>
    rcases RoutingHistory.get_set_cases ha with hold | ⟨rfl, hnow⟩
    · exact Or.inl hold
    · exact Or.inr ⟨rfl, hnow⟩
  | metadata st' => exact Or.inl ha

theorem recordsOlder_step {w : SessionWorld F σ} {ev : Nat × SessionEvent F σ}
    (h : RecordsOlder w) (hlater : Later w ev) : RecordsOlder (e.sessionStep w ev) := by
  intro session a ha
  unfold Later at hlater
  rcases e.sessionGet_applyEvent ha with hold | ⟨hsession, hnow⟩
  · obtain ⟨t, ht, hage, hpast⟩ := h session a hold
    by_cases hsession : ev.2.session = some session
    · exact ⟨ev.1, if_pos hsession, by omega, Nat.le_refl _⟩
    · exact ⟨t, (if_neg hsession).trans ht, hage, Nat.le_trans hpast hlater⟩
  · exact ⟨ev.1, if_pos hsession, Nat.le_of_eq hnow, Nat.le_refl _⟩

/-- Where no old record is found, a request of a long unused session is routed as a new one. -/
theorem expires_of_nonePinned {w : SessionWorld F σ} {ev : Nat × SessionEvent F σ}
    (h : RecordsOlder w) (hnone : NonePinned e w ev) : Expires e w ev := by
  intro ctx limit session t hev hsession huse hold
  have hfree : limit = 0 ∨ affinity ctx w.engine.store = none := by
    rcases haff : affinity ctx w.engine.store with _ | a
    · exact Or.inr rfl
    · left
      have hget : w.engine.store.sessionGet session = some a := by
        unfold affinity at haff
        rw [hsession, Option.bind_some] at haff
        exact (Option.filter_eq_some_iff.1 haff).1
      obtain ⟨t', huse', hage, -⟩ := h session a hget
      rcases Option.some.inj (huse.symm.trans huse') with rfl
      rcases hnone ctx limit a hev haff with hlimit | hfresh
      · exact hlimit
      · omega
  have hnew := e.routeCandidates_eq_routeNew ev.1 ctx hfree
  refine ⟨hnew, ?_⟩
  intro hname ds st' hres d hd
  rw [hnew] at hres
  rcases e.strategy_routeNew ev.1 ctx hres hd with heq | heq
  · rw [heq]
    exact hname
  · rw [heq]
    decide

/-- In a run in which no request finds an old record with a registered backend, sessions
expire. -/
theorem expires {w : SessionWorld F σ} (hw : w.engine.store.history = RoutingHistory.new)
    {events : List (Nat × SessionEvent F σ)} (hlater : Run.Each e.sessionStep Later w events)
    (hnone : Run.Each e.sessionStep e.NonePinned w events) :
    Run.Each e.sessionStep e.Expires w events := by
  have hempty : RecordsOlder w := by
    intro session a ha
    unfold MetadataStore.sessionGet at ha
    rw [hw] at ha
    exact absurd ha.symm (Option.some_ne_none a)
  have hinv := hlater.with_invariant (fun w ev h hl => e.recordsOlder_step h hl) hempty
  exact (hinv.and hnone).mono fun w ev h => e.expires_of_nonePinned h.1.1 h.2

open TwoBackends in
/-- The session was set to a backend that is not registered. When it is asked for after 1000 s,
the request is routed like one of a new session. -/
theorem expires_gone :
    Run.Each engine.sessionStep engine.Expires ⟨state .new, 0, fun _ => none⟩
      [(0, .sessionSet session ⟨⟨"r1"⟩, ⟨"c"⟩⟩ 0), (1000, .routeCandidates request 1)] := by
  refine engine.expires rfl ?_ ?_
  · exact ⟨Nat.le_refl 0, Nat.zero_le 1000, trivial⟩
  · refine ⟨?_, ?_, trivial⟩
    · intro ctx limit a hev
      exact nomatch hev
    · intro ctx limit a hev haff
      rcases SessionEvent.routeCandidates.inj hev with ⟨rfl, rfl⟩
      exact absurd haff.symm (Option.some_ne_none a)

/-! ## Where an old record is found -/

theorem selectLoop_ttl (ttl : Duration) (temperature : F) (limit : Nat)
    (pool : List (ScoredBackend F)) (s : σ) :
    { e with sessionAffinityTtl := ttl }.selectLoop temperature limit pool s =
      e.selectLoop temperature limit pool s := by
  induction limit generalizing pool s with
  | zero => rfl
  | succ limit ih =>
    unfold selectLoop
    simp only [ih]
    rfl

/-- The answer does not depend on the TTL at all. -/
theorem routeCandidates_ttl (ttl : Duration) (now : Nat) (ctx : RoutingContext) (limit : Nat)
    (st : EngineState F σ) :
    { e with sessionAffinityTtl := ttl }.routeCandidates now ctx limit st =
      e.routeCandidates now ctx limit st := by
  have hrest : ∀ head st, { e with sessionAffinityTtl := ttl }.routeRest now ctx limit head st =
      e.routeRest now ctx limit head st := by
    intro head st
    unfold routeRest selectRanked
    simp only [selectLoop_ttl]
    rfl
  unfold routeCandidates
  simp only [hrest]
  rfl

/-- With a head, the answer starts with it. -/
theorem head_routeRest {now : Nat} {ctx : RoutingContext} {limit : Nat} {h : RouteDecision F}
    {st st' : EngineState F σ} {ds : List (RouteDecision F)}
    (hres : e.routeRest now ctx limit (some h) st = (.ok ds, st')) : ds.head? = some h := by
  unfold routeRest at hres
  dsimp only at hres
  split at hres
  · rw [← Except.ok.inj (Prod.mk.inj hres).1]
    rfl
  · split at hres
    · exact absurd (Prod.mk.inj hres).1 nofun
    · split at hres
      · rw [← Except.ok.inj (Prod.mk.inj hres).1]
        rfl
      · unfold conclude at hres
        dsimp only at hres
        split at hres
        · exact absurd (Prod.mk.inj hres).1 nofun
        · rw [← Except.ok.inj (Prod.mk.inj hres).1]
          rfl

/-- If the record's backend is registered, the first decision is by affinity. -/
theorem head_routeCandidates {now : Nat} {ctx : RoutingContext} {limit : Nat}
    {st st' : EngineState F σ} {ds : List (RouteDecision F)} {a : SessionAffinity}
    (haff : affinity ctx st.store = some a) (hlimit : limit ≠ 0)
    (hres : e.routeCandidates now ctx limit st = (.ok ds, st')) :
    ∃ d, ds.head? = some d ∧ d.backend = a.backend ∧ d.strategy = sessionAffinity := by
  unfold routeCandidates at hres
  rw [if_neg hlimit] at hres
  rcases hhead : e.affinityHead now ctx st with ⟨_ | h, st''⟩
  · exact absurd (haff.symm.trans (affinityHead_eq_none.1 hhead).1) (Option.some_ne_none a)
  · obtain ⟨a', haff', hbackend, hstrategy, -⟩ := affinityHead_eq_some hhead
    rcases Option.some.inj (haff.symm.trans haff') with rfl
    refine ⟨h, ?_, hbackend, hstrategy⟩
    rw [hhead] at hres
    dsimp only at hres
    split at hres
    · rw [← Except.ok.inj (Prod.mk.inj hres).1]
      rfl
    · exact e.head_routeRest hres

/-- So if such a request is answered, its session has not expired. -/
theorem not_expires_of_pinned {w : SessionWorld F σ} {now : Nat} {ctx : RoutingContext}
    {limit : Nat} {session : SessionId} {t : Nat} {a : SessionAffinity}
    (hname : e.primaryStrategy.name ≠ sessionAffinity) (hsession : ctx.sessionId = some session)
    (huse : w.lastUse session = some t) (hold : t + e.sessionAffinityTtl.asSecs < now)
    (haff : affinity ctx w.engine.store = some a) (hlimit : limit ≠ 0)
    {ds : List (RouteDecision F)} {st' : EngineState F σ}
    (hres : e.routeCandidates now ctx limit w.engine = (.ok ds, st')) :
    ¬Expires e w (now, .routeCandidates ctx limit) := by
  intro hexp
  obtain ⟨d, hd, -, hstrategy⟩ := e.head_routeCandidates haff hlimit hres
  have hno := (hexp ctx limit session t rfl hsession huse hold).2 hname ds st' hres d
  exact hno (List.mem_of_mem_head? hd) hstrategy

open TwoBackends

/-- The session was set to the second backend. When it is asked for after 1000 s, it is still
pinned there, with a TTL of 300 s. -/
theorem pinned_forever :
    ¬Run.Each engine.sessionStep engine.Expires ⟨state .new, 0, fun _ => none⟩
      [(0, .sessionSet session second 0), (1000, .routeCandidates request 1)] := by
  intro hexp
  have hstep := hexp.2.1 request 1 session 0 rfl rfl rfl (by decide)
  have hno := hstep.2 (by decide) [⟨second, sessionAffinity, 0, []⟩] _ rfl
  exact hno _ List.mem_cons_self rfl

end RoutingEngine

end HierKvGateway
