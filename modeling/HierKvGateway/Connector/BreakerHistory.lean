import HierKvGateway.Connector.CircuitBreaker
import Mathlib.Data.List.Induction

/-!
# Connector.BreakerHistory — what a circuit says about the calls so far

The state of a circuit is a function of the calls of its backend:

* while it is closed, its counter is the number of failures since the last success, below the
  threshold;
* while it is open, it was opened at the last failure;
* while it is half-open, a request was allowed after the cooldown, and its counter is the number
  of successes since, with no failure among them.

`Records` says this of a state and a history, and `records_run` shows it for every history.
-/

namespace HierKvGateway

/-- A call on a breaker and the instant it is made at. -/
structure TimedCall where
  time : Nat
  call : BreakerCall
deriving DecidableEq, Repr

/-- A call on the registry, for a backend. -/
structure BackendCall extends TimedCall where
  backend : BackendId
deriving DecidableEq, Repr

/-- The same call, for a backend. -/
def TimedCall.on (c : TimedCall) (id : BackendId) : BackendCall := ⟨c, id⟩

/-- The calls of a history that are for one backend. -/
def callsOf (id : BackendId) : List BackendCall → List TimedCall
  | [] => []
  | e :: h => if e.backend = id then e.toTimedCall :: callsOf id h else callsOf id h

/-- The times of the calls do not go back. -/
def Chronological (h : List TimedCall) : Prop := h.Pairwise fun a b => a.time ≤ b.time

/-- The failures since the last success. -/
def failuresSince (h : List TimedCall) : Nat :=
  h.foldl (fun n c => match c.call with
    | .allow => n
    | .onSuccess => 0
    | .onFailure => n + 1) 0

/-- The time of the last failure. -/
def lastFailure (h : List TimedCall) : Option Nat :=
  h.foldl (fun t c => if c.call = .onFailure then some c.time else t) none

/-- The number of successes. -/
def successes (h : List TimedCall) : Nat := h.countP (·.call = .onSuccess)

/-! ## Histories grow at the end -/

theorem callsOf_append (id : BackendId) (h h' : List BackendCall) :
    callsOf id (h ++ h') = callsOf id h ++ callsOf id h' := by
  induction h with
  | nil => rfl
  | cons e h ih =>
    rw [List.cons_append, callsOf, callsOf, ih]
    split
    · rw [List.cons_append]
    · rfl

theorem callsOf_map_on (id : BackendId) (h : List TimedCall) :
    callsOf id (h.map (·.on id)) = h := by
  induction h with
  | nil => rfl
  | cons c h ih =>
    rw [List.map_cons, callsOf, ih]
    exact if_pos rfl

variable {h h' : List TimedCall} {c : TimedCall}

theorem failuresSince_snoc : failuresSince (h ++ [c]) = match c.call with
    | .allow => failuresSince h
    | .onSuccess => 0
    | .onFailure => failuresSince h + 1 := by
  unfold failuresSince
  rw [List.foldl_append, List.foldl_cons, List.foldl_nil]

theorem lastFailure_snoc :
    lastFailure (h ++ [c]) = if c.call = .onFailure then some c.time else lastFailure h := by
  unfold lastFailure
  rw [List.foldl_append, List.foldl_cons, List.foldl_nil]

theorem successes_snoc :
    successes (h ++ [c]) = if c.call = .onSuccess then successes h + 1 else successes h := by
  unfold successes
  rw [List.countP_append, List.countP_singleton]
  by_cases hc : c.call = .onSuccess
  · simp only [hc, decide_true, if_true]
  · simp only [hc, decide_false, if_false, Bool.false_eq_true, Nat.add_zero]

theorem lastFailure_mem {t : Nat} (ht : lastFailure h = some t) :
    ∃ c ∈ h, c.call = .onFailure ∧ c.time = t := by
  induction h using List.reverseRecOn with
  | nil => exact absurd ht nofun
  | append_singleton h c ih =>
    rw [lastFailure_snoc] at ht
    by_cases hc : c.call = .onFailure
    · rw [if_pos hc] at ht
      exact ⟨c, List.mem_append_right _ List.mem_cons_self, hc, Option.some.inj ht⟩
    · rw [if_neg hc] at ht
      rcases ih ht with ⟨d, hd, hcall⟩
      exact ⟨d, List.mem_append_left _ hd, hcall⟩

namespace BreakerLimits

variable (l : BreakerLimits)

/-- The breaker of a backend after the calls of a history. -/
def run (h : List TimedCall) : BreakerState := h.foldl (fun st c => l.step c.time c.call st) .new

/-- A half-open circuit was moved there by a call, after the cooldown, and since then has seen no
failure and as many successes as it counts. -/
structure Probing (h : List TimedCall) (n : Nat) : Prop where
  exists_probe : ∃ before probe since openedAt,
    h = before ++ probe :: since ∧
    (l.run before).circuit = .opened ∧
    lastFailure before = some openedAt ∧
    probe.call = .allow ∧
    l.Elapsed probe.time openedAt ∧
    (l.run (before ++ [probe])).circuit = .halfOpen ∧
    (∀ c ∈ since, c.call ≠ .onFailure) ∧
    successes since = n

/-- What a state says about the history that led to it. -/
def Records (h : List TimedCall) : BreakerState → Prop
  | .closed n => n = failuresSince h ∧ n < max 1 l.failureThreshold
  | .opened openedAt => lastFailure h = some openedAt
  | .halfOpen n => l.Probing h n ∧ n < max 1 l.successThreshold

theorem run_snoc : l.run (h ++ [c]) = l.step c.time c.call (l.run h) := by
  unfold run
  rw [List.foldl_append, List.foldl_cons, List.foldl_nil]

/-- The circuit of a history is closed by probing at its next call: it was moved to half-open by
a call, after the cooldown, and the threshold of successes is completed, with no failure. -/
def ClosedByProbing (h : List TimedCall) (c : TimedCall) : Prop :=
  ∃ before probe since openedAt,
    h = before ++ probe :: since ∧
    lastFailure before = some openedAt ∧
    openedAt + l.cooldown.asNanos ≤ probe.time ∧
    probe.call = .allow ∧
    (l.run before).circuit = .opened ∧
    (l.run (before ++ [probe])).circuit = .halfOpen ∧
    (∀ d ∈ since ++ [c], d.call ≠ .onFailure) ∧
    l.successThreshold ≤ successes (since ++ [c])

/-! ## Every history is recorded -/

variable {l}

theorem records_closed_zero (hf : failuresSince h = 0) : l.Records h (.closed 0) := by
  constructor
  · exact hf.symm
  · omega

theorem Probing.begin {openedAt : Nat} (hrun : l.run h = .opened openedAt)
    (ht : lastFailure h = some openedAt) (hc : c.call = .allow)
    (he : l.Elapsed c.time openedAt) : l.Probing (h ++ [c]) 0 := by
  have hbefore : (l.run h).circuit = .opened := by rw [hrun]; rfl
  have hafter : (l.run (h ++ [c])).circuit = .halfOpen := by
    rw [run_snoc, hc, step_allow, hrun, allow_opened_of_elapsed he]
    rfl
  exact ⟨h, c, [], openedAt, rfl, hbefore, ht, hc, he, hafter, nofun, rfl⟩

/-- A call that is no failure goes on with the probing. -/
theorem Probing.snoc {n : Nat} (hp : l.Probing h n) (hc : c.call ≠ .onFailure) :
    l.Probing (h ++ [c]) (if c.call = .onSuccess then n + 1 else n) := by
  rcases hp.exists_probe with
    ⟨before, probe, since, openedAt, rfl, hopen, ht, ha, he, hhalf, hno, rfl⟩
  refine ⟨before, probe, since ++ [c], openedAt, ?_, hopen, ht, ha, he, hhalf, ?_,
    successes_snoc⟩
  · rw [List.append_assoc, List.cons_append]
  · intro d hd
    rcases List.mem_append.1 hd with hd | hd
    · exact hno d hd
    · rw [List.mem_singleton.1 hd]
      exact hc

theorem records_allow (hr : l.Records h (l.run h)) (hcall : c.call = .allow) :
    l.Records (h ++ [c]) (l.run (h ++ [c])) := by
  have hf := failuresSince_snoc (h := h) (c := c)
  have ht := lastFailure_snoc (h := h) (c := c)
  rw [hcall] at hf ht
  rw [run_snoc, hcall, step_allow]
  cases hst : l.run h with
  | closed n =>
    rw [hst] at hr
    exact ⟨hr.1.trans hf.symm, hr.2⟩
  | opened openedAt =>
    rw [hst] at hr
    by_cases he : l.Elapsed c.time openedAt
    · -- the circuit is half-open from this call on
      rw [allow_opened_of_elapsed he]
      exact ⟨Probing.begin hst hr hcall he, by omega⟩
    · rw [allow_opened_of_not_elapsed he]
      exact ht.trans hr
  | halfOpen n =>
    rw [hst] at hr
    have hp := hr.1.snoc (c := c) (by rw [hcall]; nofun)
    rw [if_neg (by rw [hcall]; nofun)] at hp
    exact ⟨hp, hr.2⟩

theorem records_onSuccess (hr : l.Records h (l.run h)) (hcall : c.call = .onSuccess) :
    l.Records (h ++ [c]) (l.run (h ++ [c])) := by
  have hf := failuresSince_snoc (h := h) (c := c)
  rw [hcall] at hf
  rw [run_snoc, hcall]
  cases hst : l.run h with
  | closed n => exact records_closed_zero hf
  | opened openedAt => exact records_closed_zero hf
  | halfOpen n =>
    rw [hst] at hr
    show l.Records _ (l.onSuccess (.halfOpen n))
    rw [onSuccess_halfOpen]
    split
    · exact records_closed_zero hf
    · have hp := hr.1.snoc (c := c) (by rw [hcall]; nofun)
      rw [if_pos hcall] at hp
      exact ⟨hp, by omega⟩

theorem records_onFailure (hr : l.Records h (l.run h)) (hcall : c.call = .onFailure) :
    l.Records (h ++ [c]) (l.run (h ++ [c])) := by
  have hf := failuresSince_snoc (h := h) (c := c)
  have ht := lastFailure_snoc (h := h) (c := c)
  rw [hcall] at hf
  rw [if_pos hcall] at ht
  rw [run_snoc, hcall]
  cases hst : l.run h with
  | closed n =>
    rw [hst] at hr
    show l.Records _ (l.onFailure c.time (.closed n))
    rw [onFailure_closed]
    split
    · exact ht
    · have hn : n + 1 = failuresSince (h ++ [c]) := by
        rw [hf, hr.1]
      exact ⟨hn, by omega⟩
  | opened openedAt => exact ht
  | halfOpen n => exact ht

/-- A call leaves a state that records the longer history. -/
theorem records_snoc (hr : l.Records h (l.run h)) : l.Records (h ++ [c]) (l.run (h ++ [c])) := by
  cases hcall : c.call with
  | allow => exact records_allow hr hcall
  | onSuccess => exact records_onSuccess hr hcall
  | onFailure => exact records_onFailure hr hcall

theorem records_run (h : List TimedCall) : l.Records h (l.run h) := by
  induction h using List.reverseRecOn with
  | nil => exact records_closed_zero rfl
  | append_singleton h c ih => exact records_snoc ih

/-- The counters never wrap around. -/
theorem counter_lt (config : ResilienceConfig) (h : List TimedCall) (n : Nat) :
    ((ofConfig config).run h = .closed n → n + 1 < 2 ^ 32) ∧
    ((ofConfig config).run h = .halfOpen n → n + 1 < 2 ^ 32) := by
  have hr := records_run (l := ofConfig config) h
  have hf := config.circuitBreakerFailureThreshold.isLt
  have hs := config.halfOpenSuccessThreshold.isLt
  constructor
  · intro hst
    rw [hst] at hr
    have hlt : n < max 1 config.circuitBreakerFailureThreshold.toNat := hr.2
    omega
  · intro hst
    rw [hst] at hr
    have hlt : n < max 1 (max config.halfOpenSuccessThreshold.toNat 1) := hr.2
    omega

/-! ## Closing and opening -/

theorem lastFailure_le {t : Nat} (hs : Chronological (h ++ [c])) (ht : lastFailure h = some t) :
    t ≤ c.time := by
  rcases lastFailure_mem ht with ⟨d, hd, -, rfl⟩
  exact (List.pairwise_append.1 hs).2.2 d hd c List.mem_cons_self

/-- A half-open circuit that a success closes is closed by probing. -/
theorem closedByProbing_of_probing {n : Nat} (hs : Chronological h) (hp : l.Probing h n)
    (hc : c.call = .onSuccess) (hn : l.successThreshold ≤ n + 1) : l.ClosedByProbing h c := by
  rcases hp.exists_probe with
    ⟨before, probe, since, openedAt, rfl, hopen, ht, ha, he, hhalf, hno, rfl⟩
  have htime : openedAt ≤ probe.time := by
    have hs' : Chronological ((before ++ [probe]) ++ since) := by
      rw [List.append_assoc]
      exact hs
    exact lastFailure_le (List.pairwise_append.1 hs').1 ht
  have hcool : openedAt + l.cooldown.asNanos ≤ probe.time := by
    have : l.cooldown.asNanos ≤ probe.time - openedAt := he
    omega
  have hno' : ∀ d ∈ since ++ [c], d.call ≠ .onFailure := by
    intro d hd
    rcases List.mem_append.1 hd with hd | hd
    · exact hno d hd
    · rw [List.mem_singleton.1 hd, hc]
      nofun
  refine ⟨before, probe, since, openedAt, rfl, ht, hcool, ha, hopen, hhalf, hno', ?_⟩
  rw [successes_snoc, if_pos hc]
  exact hn

/-- A circuit is closed by nothing but a success. -/
theorem onSuccess_of_closes (st : BreakerState) {now : Nat} {call : BreakerCall}
    (hopen : st.circuit ≠ .closed) (hclosed : (l.step now call st).circuit = .closed) :
    call = .onSuccess := by
  cases call with
  | onSuccess => rfl
  | allow =>
    rw [step_allow] at hclosed
    cases st with
    | closed n => exact absurd rfl hopen
    | opened openedAt =>
      by_cases he : l.Elapsed now openedAt
      · rw [allow_opened_of_elapsed he] at hclosed
        exact absurd hclosed nofun
      · rw [allow_opened_of_not_elapsed he] at hclosed
        exact absurd hclosed nofun
    | halfOpen n => exact absurd hclosed nofun
  | onFailure =>
    cases st with
    | closed n => exact absurd rfl hopen
    | opened openedAt => exact absurd hclosed nofun
    | halfOpen n => exact absurd hclosed nofun

/-- What closes a circuit: a success, while it is open or at the end of a probing. -/
theorem closes_cases (hs : Chronological h) (hopen : (l.run h).circuit ≠ .closed)
    (hclosed : (l.run (h ++ [c])).circuit = .closed) :
    c.call = .onSuccess ∧
      ((l.run h).circuit = .opened ∨ (l.run h).circuit = .halfOpen ∧ l.ClosedByProbing h c) := by
  rw [run_snoc] at hclosed
  have hc := onSuccess_of_closes _ hopen hclosed
  refine ⟨hc, ?_⟩
  have hr := records_run (l := l) h
  rw [hc] at hclosed
  cases hst : l.run h with
  | closed n =>
    rw [hst] at hopen
    exact absurd rfl hopen
  | opened openedAt => exact Or.inl rfl
  | halfOpen n =>
    rw [hst] at hr hclosed
    refine Or.inr ⟨rfl, closedByProbing_of_probing hs hr.1 hc ?_⟩
    -- below the threshold the circuit would have stayed half-open
    by_contra hn
    have hstep : l.step c.time .onSuccess (.halfOpen n) = .halfOpen (n + 1) := if_neg hn
    rw [hstep] at hclosed
    exact absurd hclosed nofun

/-- A closed circuit opens at the failure that completes the threshold. -/
theorem opens_iff (hclosed : (l.run h).circuit = .closed) :
    (l.run (h ++ [c])).circuit = .opened ↔
      c.call = .onFailure ∧ failuresSince (h ++ [c]) = max 1 l.failureThreshold := by
  have hr := records_run (l := l) h
  rw [run_snoc, failuresSince_snoc]
  cases hst : l.run h with
  | opened openedAt =>
    rw [hst] at hclosed
    exact absurd hclosed nofun
  | halfOpen n =>
    rw [hst] at hclosed
    exact absurd hclosed nofun
  | closed n =>
    rw [hst] at hr
    have hn := hr.1
    have hlt := hr.2
    cases c.call with
    | allow => exact ⟨nofun, fun h => absurd h.1 nofun⟩
    | onSuccess => exact ⟨nofun, fun h => absurd h.1 nofun⟩
    | onFailure =>
      show (l.onFailure c.time (.closed n)).circuit = _ ↔ _
      rw [onFailure_closed, ← hn]
      dsimp only
      split
      · constructor
        · intro _
          exact ⟨rfl, by omega⟩
        · intro _
          rfl
      · constructor
        · intro h
          exact absurd h nofun
        · intro h
          omega

/-- A request is refused while the circuit is open and the cooldown since the last failure has
not passed. -/
theorem refused_iff (hs : Chronological (h ++ [c])) :
    (l.allow c.time (l.run h)).1 = false ↔
      (l.run h).circuit = .opened ∧
        ∃ t, lastFailure h = some t ∧ c.time < t + l.cooldown.asNanos := by
  have hr := records_run (l := l) h
  cases hst : l.run h with
  | closed n => exact ⟨nofun, fun h => absurd h.1 nofun⟩
  | halfOpen n => exact ⟨nofun, fun h => absurd h.1 nofun⟩
  | opened openedAt =>
    rw [hst] at hr
    have hle := lastFailure_le hs hr
    by_cases he : l.Elapsed c.time openedAt
    · rw [allow_opened_of_elapsed he]
      have hcool : l.cooldown.asNanos ≤ c.time - openedAt := he
      constructor
      · exact nofun
      · rintro ⟨-, t, ht, hlt⟩
        have := Option.some.inj (hr.symm.trans ht)
        omega
    · rw [allow_opened_of_not_elapsed he]
      have hcool : ¬ l.cooldown.asNanos ≤ c.time - openedAt := he
      constructor
      · intro _
        exact ⟨rfl, openedAt, hr, by omega⟩
      · intro _
        rfl

end BreakerLimits

/-! ## The registry -/

namespace CircuitBreakerRegistry

/-- The registry after the calls of a history. -/
def run (r : CircuitBreakerRegistry) (h : List BackendCall) : CircuitBreakerRegistry :=
  h.foldl (fun r e => r.call e.time e.backend e.call) r

variable {r : CircuitBreakerRegistry} {h : List BackendCall} {e : BackendCall}
variable {config : ResilienceConfig} {id : BackendId}

theorem run_snoc : r.run (h ++ [e]) = (r.run h).call e.time e.backend e.call := by
  unfold run
  rw [List.foldl_append, List.foldl_cons, List.foldl_nil]

theorem limits_run : (r.run h).toBreakerLimits = r.toBreakerLimits := by
  induction h using List.reverseRecOn with
  | nil => rfl
  | append_singleton h e ih => rw [run_snoc, limits_call, ih]

/-- The breaker of a backend depends on the calls for that backend only. -/
theorem breaker_run :
    ((new config).run h).breaker id = (BreakerLimits.ofConfig config).run (callsOf id h) := by
  induction h using List.reverseRecOn with
  | nil => rfl
  | append_singleton h e ih =>
    rw [run_snoc, callsOf_append, callsOf, callsOf]
    by_cases he : e.backend = id
    · subst he
      rw [if_pos rfl, BreakerLimits.run_snoc, breaker_call_self, limits_run, ih]
      rfl
    · rw [if_neg he, breaker_call_of_ne (Ne.symm he), ih, List.append_nil]

theorem mem_of_callsOf {c : TimedCall} (hc : c ∈ callsOf id h) : ∃ e ∈ h, e.toTimedCall = c := by
  induction h with
  | nil => exact absurd hc List.not_mem_nil
  | cons e h ih =>
    rw [callsOf] at hc
    split at hc
    · rcases List.mem_cons.1 hc with rfl | hc
      · exact ⟨e, List.mem_cons_self, rfl⟩
      · rcases ih hc with ⟨d, hd, hdc⟩
        exact ⟨d, List.mem_cons_of_mem _ hd, hdc⟩
    · rcases ih hc with ⟨d, hd, hdc⟩
      exact ⟨d, List.mem_cons_of_mem _ hd, hdc⟩

theorem chronological_callsOf (hs : h.Pairwise fun a b => a.time ≤ b.time) :
    Chronological (callsOf id h) := by
  induction h with
  | nil => exact List.Pairwise.nil
  | cons e h ih =>
    rw [callsOf]
    split
    · refine List.Pairwise.cons ?_ (ih hs.of_cons)
      intro c hc
      rcases mem_of_callsOf hc with ⟨d, hd, rfl⟩
      exact List.rel_of_pairwise_cons hs hd
    · exact ih hs.of_cons

theorem callsOf_snoc_self :
    callsOf e.backend (h ++ [e]) = callsOf e.backend h ++ [e.toTimedCall] := by
  rw [callsOf_append, callsOf, if_pos rfl, callsOf]

/-- Opening is exact, for the calls of any backends at times that do not go back: a closed circuit
opens at the failure that completes the threshold since the last success, what closes a circuit
is a success, a request is refused while the circuit is open and the cooldown since the last
failure has not passed, and the other backends' breakers stay as they are. -/
theorem opening_exact (config : ResilienceConfig) (h : List BackendCall) (e : BackendCall)
    (hs : (h ++ [e]).Pairwise fun a b => a.time ≤ b.time) :
    (((new config).run h).circuit e.backend = .closed →
      (((new config).run (h ++ [e])).circuit e.backend = .opened ↔
        e.call = .onFailure ∧
          failuresSince (callsOf e.backend (h ++ [e])) =
            max 1 config.circuitBreakerFailureThreshold.toNat)) ∧
    (((new config).run h).circuit e.backend ≠ .closed →
      ((new config).run (h ++ [e])).circuit e.backend = .closed → e.call = .onSuccess) ∧
    ((((new config).run h).allow e.time e.backend).1 = false ↔
      ((new config).run h).circuit e.backend = .opened ∧
        ∃ t, lastFailure (callsOf e.backend h) = some t ∧
          e.time < t + (Duration.fromSecs config.circuitBreakerCooldownSecs).asNanos) ∧
    ∀ id, id ≠ e.backend →
      ((new config).run (h ++ [e])).breaker id = ((new config).run h).breaker id := by
  have hcalls : Chronological (callsOf e.backend h ++ [e.toTimedCall]) := by
    rw [← callsOf_snoc_self]
    exact chronological_callsOf hs
  refine ⟨?_, ?_, ?_, ?_⟩
  · intro hclosed
    unfold circuit at hclosed ⊢
    rw [breaker_run] at hclosed ⊢
    rw [callsOf_snoc_self]
    exact BreakerLimits.opens_iff hclosed
  · intro hopen hclosed
    unfold circuit at hopen hclosed
    rw [breaker_run] at hopen hclosed
    rw [callsOf_snoc_self, BreakerLimits.run_snoc] at hclosed
    exact BreakerLimits.onSuccess_of_closes _ hopen hclosed
  · unfold allow circuit
    rw [breaker_run, limits_run]
    exact BreakerLimits.refused_iff hcalls
  · intro id hid
    rw [run_snoc]
    exact breaker_call_of_ne hid

/-- Two failures in a row open a circuit whose threshold is 2, with a request in between and a
failure of another backend. -/
theorem opening_exact_two :
    let config : ResilienceConfig := ⟨2, 30, 1⟩
    let a : BackendId := ⟨⟨"eu"⟩, ⟨"a"⟩⟩
    let b : BackendId := ⟨⟨"eu"⟩, ⟨"b"⟩⟩
    ((new config).run [⟨⟨0, .onFailure⟩, a⟩, ⟨⟨1, .onFailure⟩, b⟩, ⟨⟨2, .allow⟩, a⟩,
      ⟨⟨3, .onFailure⟩, a⟩]).circuit a = .opened :=
  ((opening_exact ⟨2, 30, 1⟩ [⟨⟨0, .onFailure⟩, ⟨⟨"eu"⟩, ⟨"a"⟩⟩⟩,
    ⟨⟨1, .onFailure⟩, ⟨⟨"eu"⟩, ⟨"b"⟩⟩⟩, ⟨⟨2, .allow⟩, ⟨⟨"eu"⟩, ⟨"a"⟩⟩⟩]
    ⟨⟨3, .onFailure⟩, ⟨⟨"eu"⟩, ⟨"a"⟩⟩⟩ (by decide)).1 (by decide)).2 (by decide)

/-- What closes a circuit that is not closed, for the calls of one backend: a success. It closes
an open circuit at once; else the circuit is closed by probing. -/
theorem closing_exact (config : ResilienceConfig) (id : BackendId) (h : List TimedCall)
    (c : TimedCall) (hs : Chronological (h ++ [c])) :
    (((new config).run (h.map (·.on id))).circuit id = .opened → c.call = .onSuccess →
      ((new config).run ((h ++ [c]).map (·.on id))).circuit id = .closed) ∧
    (((new config).run (h.map (·.on id))).circuit id ≠ .closed →
      ((new config).run ((h ++ [c]).map (·.on id))).circuit id = .closed →
      c.call = .onSuccess ∧
        (((new config).run (h.map (·.on id))).circuit id = .opened ∨
          ((new config).run (h.map (·.on id))).circuit id = .halfOpen ∧
            (BreakerLimits.ofConfig config).ClosedByProbing h c)) := by
  unfold circuit
  rw [breaker_run, breaker_run, callsOf_map_on, callsOf_map_on]
  constructor
  · intro hopen hc
    rw [BreakerLimits.run_snoc, hc]
    cases hst : (BreakerLimits.ofConfig config).run h with
    | opened openedAt => rfl
    | closed n => rfl
    | halfOpen n =>
      rw [hst] at hopen
      exact absurd hopen nofun
  · exact BreakerLimits.closes_cases (List.pairwise_append.1 hs).1

/-- One success after the cooldown closes a circuit whose threshold is 1. -/
theorem closing_exact_probe :
    (BreakerLimits.ofConfig ⟨1, 0, 1⟩).ClosedByProbing [⟨0, .onFailure⟩, ⟨5, .allow⟩]
      ⟨6, .onSuccess⟩ :=
  ((closing_exact ⟨1, 0, 1⟩ ⟨⟨"eu"⟩, ⟨"a"⟩⟩ [⟨0, .onFailure⟩, ⟨5, .allow⟩] ⟨6, .onSuccess⟩
    (by unfold Chronological; decide)).2 (by decide) (by decide)).2.elim
      (fun h => absurd h (by decide)) And.right

/-- A success that arrives while the circuit is open closes it, with the cooldown just begun. -/
theorem closed_without_probing :
    let config : ResilienceConfig := ⟨1, 30, 1⟩
    let a : BackendId := ⟨⟨"eu"⟩, ⟨"a"⟩⟩
    let h : List TimedCall := [⟨0, .onFailure⟩]
    let c : TimedCall := ⟨1, .onSuccess⟩
    Chronological (h ++ [c]) ∧
      ((new config).run (h.map (·.on a))).circuit a = .opened ∧
      ((new config).run ((h ++ [c]).map (·.on a))).circuit a = .closed ∧
      ¬ (BreakerLimits.ofConfig config).ClosedByProbing h c := by
  refine ⟨by unfold Chronological; decide, by decide, by decide, ?_⟩
  rintro ⟨before, probe, since, openedAt, hh, -, -, hcall, -⟩
  have hmem : probe ∈ [(⟨0, .onFailure⟩ : TimedCall)] := by
    rw [hh]
    exact List.mem_append_right _ List.mem_cons_self
  rw [List.mem_singleton.1 hmem] at hcall
  exact absurd hcall nofun

end CircuitBreakerRegistry

end HierKvGateway
