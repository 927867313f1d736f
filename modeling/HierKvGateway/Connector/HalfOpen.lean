import HierKvGateway.Connector.CircuitBreaker
import HierKvGateway.Lib.Run
import Mathlib.Data.Finset.Card

/-!
# Connector.HalfOpen — how many requests are outstanding while a circuit is half-open

Any number of requests to one backend ask whether they are allowed and report how they went, in any
order (`system`). A half-open circuit allows all of them, so nothing bounds the requests that are
outstanding. They stay within the success threshold exactly when no call asks for more
(`limited_iff`).
-/

namespace HierKvGateway

/-- A step of the requests to one backend. -/
inductive ProbeStep (ι : Type*) where
  | tick (nanos : Nat)
  | allow (request : ι)
  | success (request : ι)
  | failure (request : ι)
deriving DecidableEq, Repr

/-- The registry, the clock, the requests that have asked, and those that were allowed and have
not reported an outcome. -/
structure ProbeState (ι : Type*) where
  registry : CircuitBreakerRegistry
  now : Nat
  asked : Finset ι
  outstanding : Finset ι

namespace ProbeState

variable {ι : Type*} [DecidableEq ι] (id : BackendId)

/-- A call of a request on the backend's breaker. -/
def call (s : ProbeState ι) (c : BreakerCall) : CircuitBreakerRegistry :=
  s.registry.call s.now id c

/-- A step may be taken: a request asks once and, if it was allowed, reports once. -/
def guard : ProbeStep ι → ProbeState ι → Prop
  | .tick _, _ => True
  | .allow request, s => request ∉ s.asked
  | .success request, s => request ∈ s.outstanding
  | .failure request, s => request ∈ s.outstanding

instance : ∀ (l : ProbeStep ι) (s : ProbeState ι), Decidable (guard l s)
  | .tick _, _ => .isTrue trivial
  | .allow request, s => inferInstanceAs (Decidable (request ∉ s.asked))
  | .success request, s => inferInstanceAs (Decidable (request ∈ s.outstanding))
  | .failure request, s => inferInstanceAs (Decidable (request ∈ s.outstanding))

/-- What a step does. -/
def update : ProbeStep ι → ProbeState ι → ProbeState ι
  | .tick nanos, s => { s with now := s.now + nanos }
  | .allow request, s =>
    { s with
      registry := s.call id .allow
      asked := insert request s.asked
      outstanding :=
        if (s.registry.allow s.now id).1 then insert request s.outstanding else s.outstanding }
  | .success request, s =>
    { s with registry := s.call id .onSuccess, outstanding := s.outstanding.erase request }
  | .failure request, s =>
    { s with registry := s.call id .onFailure, outstanding := s.outstanding.erase request }

/-- Before the first request. -/
def start (config : ResilienceConfig) (now : Nat) : ProbeState ι where
  registry := .new config
  now := now
  asked := ∅
  outstanding := ∅

/-- The requests to one backend, in any order of their steps. -/
def system (config : ResilienceConfig) : Lts (ProbeState ι) (ProbeStep ι) where
  init s := ∃ now, s = start config now
  guard := guard
  update := update id

instance (config : ResilienceConfig) (l : ProbeStep ι) (s : ProbeState ι) :
    Decidable ((system id config).guard l s) :=
  inferInstanceAs (Decidable (guard l s))

/-- While the circuit is half-open, the success threshold bounds the requests outstanding. -/
def Limited (s : ProbeState ι) : Prop :=
  s.registry.circuit id = .halfOpen → s.outstanding.card ≤ s.registry.successThreshold

/-- A request that asks now is let through by a half-open circuit. -/
def Probes (s : ProbeState ι) : Prop :=
  match s.registry.breaker id with
  | .closed _ => False
  | .opened openedAt => s.registry.Elapsed s.now openedAt
  | .halfOpen _ => True

/-- A step lets a request through a half-open circuit only while fewer than the success threshold
are outstanding. -/
def HasRoom (s : ProbeState ι) : ProbeStep ι → Prop
  | .allow _ => s.Probes id → s.outstanding.card < s.registry.successThreshold
  | _ => True

/-- Whoever is outstanding has asked. -/
def Asked (s : ProbeState ι) : Prop := s.outstanding ⊆ s.asked

variable {id} {s : ProbeState ι}

theorem asked_update (h : s.Asked) (l : ProbeStep ι) : (update id l s).Asked := by
  cases l with
  | tick nanos => exact h
  | allow request =>
    show (if _ then _ else _) ⊆ insert request s.asked
    split
    · exact Finset.insert_subset_insert request h
    · exact h.trans (Finset.subset_insert request s.asked)
  | success request => exact (Finset.erase_subset request _).trans h
  | failure request => exact (Finset.erase_subset request _).trans h

/-- A circuit that is half-open after a report was half-open before. -/
theorem halfOpen_of_report {st : BreakerState} {l : BreakerLimits} {now : Nat} {c : BreakerCall}
    (hc : c ≠ .allow) (h : (l.step now c st).circuit = .halfOpen) : st.circuit = .halfOpen := by
  cases st with
  | halfOpen n => rfl
  | closed n =>
    cases c with
    | allow => exact absurd rfl hc
    | onSuccess => exact absurd h nofun
    | onFailure =>
      have hstep : l.step now .onFailure (.closed n) = _ := BreakerLimits.onFailure_closed n
      rw [hstep] at h
      split at h
      · exact absurd h nofun
      · exact absurd h nofun
  | opened openedAt =>
    cases c with
    | allow => exact absurd rfl hc
    | onSuccess => exact absurd h nofun
    | onFailure => exact absurd h nofun

omit [DecidableEq ι] in
/-- After a request has asked, the circuit is half-open if the request was let through so. -/
theorem halfOpen_allow_iff :
    (s.call id .allow).circuit id = .halfOpen ↔ s.Probes id := by
  unfold call CircuitBreakerRegistry.circuit Probes
  rw [CircuitBreakerRegistry.breaker_call_self, BreakerLimits.step_allow]
  cases s.registry.breaker id with
  | closed n => exact ⟨nofun, False.elim⟩
  | halfOpen n => exact ⟨fun _ => True.intro, fun _ => rfl⟩
  | opened openedAt =>
    dsimp only
    by_cases he : s.registry.Elapsed s.now openedAt
    · rw [BreakerLimits.allow_opened_of_elapsed he]
      exact ⟨fun _ => he, fun _ => rfl⟩
    · rw [BreakerLimits.allow_opened_of_not_elapsed he]
      exact ⟨nofun, fun h => absurd h he⟩

omit [DecidableEq ι] in
theorem allowed_of_probes (h : s.Probes id) : (s.registry.allow s.now id).1 = true := by
  unfold CircuitBreakerRegistry.allow
  unfold Probes at h
  cases hst : s.registry.breaker id with
  | closed n => rfl
  | halfOpen n => rfl
  | opened openedAt =>
    rw [hst] at h
    rw [BreakerLimits.allow_opened_of_elapsed h]

/-- A report keeps the limit. -/
theorem limited_report {request : ι} {c : BreakerCall} (hc : c ≠ .allow) (h : s.Limited id) :
    Limited id { s with registry := s.call id c, outstanding := s.outstanding.erase request } := by
  intro hhalf
  have hbefore : s.registry.circuit id = .halfOpen := by
    have hself : (s.call id c).breaker id = s.registry.step s.now c (s.registry.breaker id) :=
      CircuitBreakerRegistry.breaker_call_self
    apply halfOpen_of_report hc
    rw [← hself]
    exact hhalf
  exact (Finset.card_erase_le).trans (h hbefore)

/-- A step keeps the limit exactly when there is room for it. -/
theorem limited_update_iff (ha : s.Asked) (l : ProbeStep ι) (hg : guard l s)
    (h : s.Limited id) : (update id l s).Limited id ↔ s.HasRoom id l := by
  cases l with
  | tick nanos => exact ⟨fun _ => True.intro, fun _ => h⟩
  | success request => exact ⟨fun _ => True.intro, fun _ => limited_report nofun h⟩
  | failure request => exact ⟨fun _ => True.intro, fun _ => limited_report nofun h⟩
  | allow request =>
    have hnew : request ∉ s.outstanding := fun hmem => hg (ha hmem)
    have hcard (hp : s.Probes id) :
        (update id (.allow request) s).outstanding.card = s.outstanding.card + 1 := by
      have hout : (update id (.allow request) s).outstanding = insert request s.outstanding :=
        if_pos (allowed_of_probes hp)
      rw [hout, Finset.card_insert_of_notMem hnew]
    constructor
    · intro hlim hp
      have hle := hlim (halfOpen_allow_iff.2 hp)
      rw [hcard hp] at hle
      exact hle
    · intro hroom hhalf
      have hp := halfOpen_allow_iff.1 hhalf
      rw [hcard hp]
      exact hroom hp

/-- The requests outstanding while the circuit is half-open stay within the success threshold
throughout a run exactly when every step of it has room. -/
theorem limited_iff (config : ResilienceConfig) (id : BackendId) (now : Nat)
    (ls : List (ProbeStep ι)) (h : (system id config).Enabled (start config now) ls) :
    Run.All (fun s l => update id l s) (Limited id) (start config now) ls ↔
      Run.Each (fun s l => update id l s) (HasRoom id) (start config now) ls :=
  Run.all_iff_each (J := Asked) (fun _ l ha _ => asked_update ha l)
    (fun _ l ha hg hlim => limited_update_iff ha l hg hlim) (Finset.Subset.refl _)
    (fun hhalf => absurd hhalf nofun) h

/-- One request at a time keeps the limit. -/
theorem limited_iff_one :
    Run.All (fun s l => update ⟨⟨"eu"⟩, ⟨"a"⟩⟩ l s) (Limited ⟨⟨"eu"⟩, ⟨"a"⟩⟩)
      (start (ι := Nat) ⟨1, 30, 1⟩ 0)
      [.allow 0, .failure 0, .tick 30000000000, .allow 1, .success 1] :=
  (limited_iff ⟨1, 30, 1⟩ ⟨⟨"eu"⟩, ⟨"a"⟩⟩ 0
    [.allow 0, .failure 0, .tick 30000000000, .allow 1, .success 1] (by decide +kernel)).2
    ⟨fun h => absurd h nofun, trivial, trivial, fun _ => by decide +kernel, trivial, trivial⟩

/-- With the default configuration, five failures open the circuit; after the cooldown every
request that asks is allowed. -/
theorem probes_unlimited :
    let id : BackendId := ⟨⟨"eu"⟩, ⟨"a"⟩⟩
    let config : ResilienceConfig := ⟨5, 30, 1⟩
    let fails (n : Nat) : List (ProbeStep Nat) := [.allow n, .failure n]
    let ls := (List.range 5).flatMap fails ++ [.tick 30000000000, .allow 5, .allow 6]
    (system id config).Enabled (start config 0) ls ∧
      ¬ ((system id config).run (start config 0) ls).Limited id := by
  intro id config fails ls
  refine ⟨by decide +kernel, ?_⟩
  intro hlim
  have hle := hlim (by decide +kernel)
  exact absurd hle (by decide +kernel)

end ProbeState

end HierKvGateway
