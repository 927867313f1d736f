import HierKvGateway.Lib.Run
import HierKvGateway.Routing.Adaptive
import Mathlib.Tactic.FieldSimp
import Mathlib.Tactic.Linarith
import Mathlib.Tactic.NormNum
import Mathlib.Tactic.Ring

/-!
# Routing.OutcomeAverages — the averages of the controller

The controller keeps an average of the success rate and one of the latency for each backend, with
one count of samples. The first sample is taken as it is. A failure counts, but has no latency, so
after a failure the first latency is blended with the initial 0.

`inRange_iff`: the averages are in the range of what was recorded as long as that does not happen.
-/

namespace HierKvGateway

/-- The outcome of a forward. -/
inductive ForwardOutcome where
  | success (latency : Duration)
  | failure

namespace OutcomeStats

/-- A latency in milliseconds. -/
def millis (d : Duration) : Rat := d.asNanos / 10 ^ 6

theorem latencyMs_eq (d : Duration) : (latencyMs d : ExtRat) = .num (millis d) := by
  unfold latencyMs millis Duration.asNanos
  rw [ExtRat.ofNat_eq, ExtRat.ofNat_eq, ExtRat.ofNat_eq, ExtRat.ofNat_eq,
    ExtRat.num_div _ _ (by norm_num), ExtRat.num_add, ExtRat.num_mul]
  congr 1
  push_cast
  ring

/-- The next average with exact numbers. -/
def blend (prev value α : Rat) (samples : BitVec 64) : Rat :=
  if samples = 0 then value else prev + α * (value - prev)

theorem ema_num (prev value α : Rat) (samples : BitVec 64) :
    ema (.num prev) (.num value) (.num α) samples = ExtRat.num (blend prev value α samples) := by
  unfold ema blend
  split
  · rfl
  · rw [ExtRat.num_sub, ExtRat.num_mul, ExtRat.num_add]

variable {α prev value lo hi : Rat} {samples : BitVec 64}

/-- An average stays above what both are above. -/
theorem le_blend (hα : 0 ≤ α) (hα' : α ≤ 1) (hprev : lo ≤ prev) (hvalue : lo ≤ value) :
    lo ≤ blend prev value α samples := by
  unfold blend
  split
  · exact hvalue
  · have hfirst : 0 ≤ (1 - α) * (prev - lo) := mul_nonneg (by linarith) (by linarith)
    have hsecond : 0 ≤ α * (value - lo) := mul_nonneg hα (by linarith)
    linarith

theorem blend_le (hα : 0 ≤ α) (hα' : α ≤ 1) (hprev : prev ≤ hi) (hvalue : value ≤ hi) :
    blend prev value α samples ≤ hi := by
  unfold blend
  split
  · exact hvalue
  · have hfirst : 0 ≤ (1 - α) * (hi - prev) := mul_nonneg (by linarith) (by linarith)
    have hsecond : 0 ≤ α * (hi - value) := mul_nonneg hα (by linarith)
    linarith

/-- An average of rates is one. -/
theorem isRate_ema (hα : 0 ≤ α) (hα' : α ≤ 1) {x y : ExtRat} (hx : x.IsRate) (hy : y.IsRate)
    (samples : BitVec 64) : (ema x y (.num α) samples).IsRate := by
  obtain ⟨p, rfl, hp, hp'⟩ := hx
  obtain ⟨q, rfl, hq, hq'⟩ := hy
  rw [ema_num]
  exact ⟨_, rfl, le_blend hα hα' hp hq, blend_le hα hα' hp' hq'⟩

/-- Blended with the initial 0, a value comes out as it is only if all of it counts, or it is 0. -/
theorem blend_zero_eq_iff (value α : Rat) (samples : BitVec 64) :
    blend 0 value α samples = value ↔ samples = 0 ∨ α = 1 ∨ value = 0 := by
  unfold blend
  split
  · rename_i hzero
    exact iff_of_true rfl (Or.inl hzero)
  · rename_i hne
    rw [zero_add, sub_zero]
    constructor
    · intro h
      by_cases hvalue : value = 0
      · exact Or.inr (Or.inr hvalue)
      · exact Or.inr (Or.inl (mul_right_cancel₀ hvalue (h.trans (one_mul value).symm)))
    · rintro (hzero | rfl | rfl)
      · exact absurd hzero hne
      · exact one_mul value
      · exact mul_zero α

/-- Between two of the values. -/
def Between (values : List Rat) (x : Rat) : Prop := (∃ v ∈ values, v ≤ x) ∧ ∃ v ∈ values, x ≤ v

theorem Between.blend {values : List Rat} (hα : 0 ≤ α) (hα' : α ≤ 1) (h : Between values prev) :
    Between (values ++ [value]) (blend prev value α samples) := by
  obtain ⟨⟨v, hv, hle⟩, w, hw, hge⟩ := h
  constructor
  · rcases le_total v value with hvalue | hvalue
    · exact ⟨v, List.mem_append_left _ hv, le_blend hα hα' hle hvalue⟩
    · exact ⟨value, List.mem_append_right _ List.mem_cons_self,
        le_blend hα hα' (hvalue.trans hle) le_rfl⟩
  · rcases le_total value w with hvalue | hvalue
    · exact ⟨w, List.mem_append_left _ hw, blend_le hα hα' hge hvalue⟩
    · exact ⟨value, List.mem_append_right _ List.mem_cons_self,
        blend_le hα hα' (hge.trans hvalue) le_rfl⟩

theorem between_singleton {v x : Rat} : Between [v] x ↔ x = v := by
  unfold Between
  simp only [List.mem_singleton, exists_eq_left]
  exact ⟨fun h => le_antisymm h.2 h.1, fun h => ⟨h.ge, h.le⟩⟩

/-! ## One outcome -/

/-- The averages are numbers, the success rate one between 0 and 1. Without a success the latency is
still 0. -/
structure Averaged (s : OutcomeStats ExtRat) (latencies : List Rat) : Prop where
  success : s.emaSuccess.IsRate
  latency : ∃ l, s.emaLatencyMs = .num l ∧ (latencies = [] → l = 0)

/-- The averages are in the range of what was recorded. -/
structure InRange (s : OutcomeStats ExtRat) (latencies : List Rat) : Prop where
  success : s.emaSuccess.IsRate
  latency : latencies ≠ [] → ∃ l, s.emaLatencyMs = .num l ∧ Between latencies l

variable {s : OutcomeStats ExtRat} {latencies : List Rat}

theorem averaged_default : Averaged default [] where
  success := ExtRat.isRate_one
  latency := ⟨0, ExtRat.ofNat_eq 0, fun _ => rfl⟩

theorem Averaged.failure (hα : 0 ≤ α) (hα' : α ≤ 1) (h : Averaged s latencies) :
    Averaged (s.failure (.num α)) latencies where
  success := isRate_ema hα hα' h.success ExtRat.isRate_zero s.samples
  latency := h.latency

theorem Averaged.recordSuccess (hα : 0 ≤ α) (hα' : α ≤ 1) (h : Averaged s latencies)
    (latency : Duration) :
    Averaged (s.success (.num α) latency) (latencies ++ [millis latency]) where
  success := isRate_ema hα hα' h.success ExtRat.isRate_one s.samples
  latency := by
    obtain ⟨l, hl, -⟩ := h.latency
    refine ⟨blend l (millis latency) α s.samples, ?_, fun hnil => absurd hnil (by simp)⟩
    show ema s.emaLatencyMs (latencyMs latency) (.num α) s.samples = _
    rw [hl, latencyMs_eq, ema_num]

theorem InRange.failure (hα : 0 ≤ α) (hα' : α ≤ 1) (h : Averaged s latencies)
    (hrange : InRange s latencies) : InRange (s.failure (.num α)) latencies where
  success := (h.failure hα hα').success
  latency := hrange.latency

/-- The first success is taken as it is: it is the first sample, or counts as if it were. -/
def Adopted (α : Rat) (s : OutcomeStats ExtRat) (latencies : List Rat) (latency : Duration) :
    Prop := latencies = [] → s.samples = 0 ∨ α = 1 ∨ millis latency = 0

/-- A success keeps the averages in range exactly if it is taken as it is where it is the first. -/
theorem inRange_success_iff (hα : 0 ≤ α) (hα' : α ≤ 1) (h : Averaged s latencies)
    (hrange : InRange s latencies) (latency : Duration) :
    InRange (s.success (.num α) latency) (latencies ++ [millis latency]) ↔
      Adopted α s latencies latency := by
  have hnext := h.recordSuccess hα hα' latency
  obtain ⟨l, hl, hzero⟩ := h.latency
  have hlatency : (s.success (.num α) latency).emaLatencyMs =
      .num (blend l (millis latency) α s.samples) := by
    show ema s.emaLatencyMs (latencyMs latency) (.num α) s.samples = _
    rw [hl, latencyMs_eq, ema_num]
  by_cases hnil : latencies = []
  · -- the only latency so far
    have hadopted : Adopted α s latencies latency ↔
        s.samples = 0 ∨ α = 1 ∨ millis latency = 0 := ⟨fun h => h hnil, fun h _ => h⟩
    rw [hadopted, ← blend_zero_eq_iff, hnil, List.nil_append]
    rw [hzero hnil] at hlatency
    constructor
    · intro hrange'
      obtain ⟨l', hl', hbetween⟩ := hrange'.latency (List.cons_ne_nil _ _)
      rw [hlatency] at hl'
      rw [ExtRat.num.inj hl']
      exact between_singleton.1 hbetween
    · intro heq
      refine ⟨hnext.success, fun _ => ⟨_, hlatency, ?_⟩⟩
      exact between_singleton.2 heq
  · obtain ⟨l', hl', hbetween⟩ := hrange.latency hnil
    rw [hl] at hl'
    rw [← ExtRat.num.inj hl'] at hbetween
    refine iff_of_true ⟨hnext.success, fun _ => ⟨_, hlatency, ?_⟩⟩ fun h => absurd h hnil
    exact hbetween.blend hα hα'

end OutcomeStats

namespace AdaptiveWeightController

open OutcomeStats

/-- The factor of the averages is not below the difference of 1 and the next number. -/
theorem alpha_eq {ctl : AdaptiveWeightController ExtRat} {α : Rat}
    (h : ctl.cfg.emaAlpha = .num α) : ctl.alpha = .num (max (1 / 2 ^ 52) (min α 1)) := by
  have hepsilon : (Floating.epsilon : ExtRat) = .num (1 / 2 ^ 52) := by
    show ExtRat.num ((2220446049250313080847263336181640625 : Nat) / 10 ^ 52) = _
    congr 1
    norm_num
  unfold alpha
  rw [h, hepsilon, ExtRat.ofNat_eq, Nat.cast_one, ExtRat.clamp_num _ (by norm_num)]

/-! ## All outcomes -/

/-- The averages of a backend; before its first outcome, the default ones. -/
def statsOf (ctl : AdaptiveWeightController ExtRat) (b : BackendId) : OutcomeStats ExtRat :=
  (ctl.outcomeStats b).getD .default

/-- A controller, with the latencies of the successes of each backend. -/
structure Recorded where
  ctl : AdaptiveWeightController ExtRat
  latencies : BackendId → List Rat

namespace Recorded

/-- Nothing is recorded yet. -/
def start (base : AdaptiveWeights ExtRat) (cfg : AdaptiveConfig ExtRat) (now : Nat) : Recorded :=
  ⟨new base cfg now, fun _ => []⟩

/-- Record an outcome. -/
def record (s : Recorded) : BackendId × ForwardOutcome → Recorded
  | (b, .success latency) =>
    ⟨s.ctl.recordSuccess b latency,
      Function.update s.latencies b (s.latencies b ++ [millis latency])⟩
  | (b, .failure) => ⟨s.ctl.recordFailure b, s.latencies⟩

/-- The averages of every backend are in range. -/
def AllInRange (s : Recorded) : Prop := ∀ b, InRange (statsOf s.ctl b) (s.latencies b)

/-- A first success is taken as it is. -/
def FirstAdopted (α : Rat) (s : Recorded) : BackendId × ForwardOutcome → Prop
  | (b, .success latency) => Adopted α (statsOf s.ctl b) (s.latencies b) latency
  | (_, .failure) => True

/-- The factor is `α`, and the averages are numbers. -/
structure Exact (α : Rat) (s : Recorded) : Prop where
  alpha : s.ctl.alpha = .num α
  averaged : ∀ b, Averaged (statsOf s.ctl b) (s.latencies b)

variable {s : Recorded} {α : Rat}

@[simp] theorem statsOf_recordOutcome_self (next : OutcomeStats ExtRat → OutcomeStats ExtRat)
    (b : BackendId) (ctl : AdaptiveWeightController ExtRat) :
    statsOf (ctl.recordOutcome next b) b = next (statsOf ctl b) := by
  unfold statsOf outcomeStats recordOutcome
  rw [AList.lookup_insert, Option.getD_some]

theorem statsOf_recordOutcome_ne (next : OutcomeStats ExtRat → OutcomeStats ExtRat)
    {b c : BackendId} (h : c ≠ b) (ctl : AdaptiveWeightController ExtRat) :
    statsOf (ctl.recordOutcome next b) c = statsOf ctl c := by
  unfold statsOf outcomeStats recordOutcome
  rw [AList.lookup_insert_ne h]

/-- What holds of every backend holds after a success if it holds of the one that succeeded. -/
theorem forall_success_iff {P : OutcomeStats ExtRat → List Rat → Prop} (hα : s.ctl.alpha = .num α)
    (h : ∀ b, P (statsOf s.ctl b) (s.latencies b)) (b : BackendId) (latency : Duration) :
    (∀ c, P (statsOf (s.record (b, .success latency)).ctl c)
        ((s.record (b, .success latency)).latencies c)) ↔
      P ((statsOf s.ctl b).success (.num α) latency) (s.latencies b ++ [millis latency]) := by
  have hself : P (statsOf (s.record (b, .success latency)).ctl b)
      ((s.record (b, .success latency)).latencies b) ↔
      P ((statsOf s.ctl b).success (.num α) latency) (s.latencies b ++ [millis latency]) := by
    show P (statsOf (s.ctl.recordOutcome _ b) b) (Function.update s.latencies b _ b) ↔ _
    rw [statsOf_recordOutcome_self, Function.update_self, hα]
  constructor
  · intro hall
    exact hself.1 (hall b)
  · intro hnext c
    by_cases hc : c = b
    · subst hc
      exact hself.2 hnext
    · show P (statsOf (s.ctl.recordOutcome _ b) c) (Function.update s.latencies b _ c)
      rw [statsOf_recordOutcome_ne _ hc, Function.update_of_ne hc]
      exact h c

theorem forall_failure {P : OutcomeStats ExtRat → List Rat → Prop} (hα : s.ctl.alpha = .num α)
    (h : ∀ b, P (statsOf s.ctl b) (s.latencies b)) {b : BackendId}
    (hb : P ((statsOf s.ctl b).failure (.num α)) (s.latencies b)) (c : BackendId) :
    P (statsOf (s.record (b, .failure)).ctl c) ((s.record (b, .failure)).latencies c) := by
  show P (statsOf (s.ctl.recordOutcome _ b) c) (s.latencies c)
  by_cases hc : c = b
  · subst hc
    rw [statsOf_recordOutcome_self, hα]
    exact hb
  · rw [statsOf_recordOutcome_ne _ hc]
    exact h c

theorem exact_record (hα : 0 ≤ α) (hα' : α ≤ 1) (h : Exact α s)
    (call : BackendId × ForwardOutcome) : Exact α (s.record call) := by
  obtain ⟨b, outcome⟩ := call
  cases outcome with
  | success latency =>
    refine ⟨h.alpha, (forall_success_iff h.alpha h.averaged b latency).2 ?_⟩
    exact (h.averaged b).recordSuccess hα hα' latency
  | failure => exact ⟨h.alpha, forall_failure h.alpha h.averaged ((h.averaged b).failure hα hα')⟩

/-- A recorded outcome keeps the averages in range exactly if a first success is taken as it is. -/
theorem allInRange_record_iff (hα : 0 ≤ α) (hα' : α ≤ 1) (h : Exact α s) (hrange : s.AllInRange)
    (call : BackendId × ForwardOutcome) : (s.record call).AllInRange ↔ s.FirstAdopted α call := by
  obtain ⟨b, outcome⟩ := call
  cases outcome with
  | success latency =>
    exact (forall_success_iff h.alpha hrange b latency).trans
      (inRange_success_iff hα hα' (h.averaged b) (hrange b) latency)
  | failure =>
    refine iff_of_true (forall_failure h.alpha hrange ?_) trivial
    exact (hrange b).failure hα hα' (h.averaged b)

variable (base : AdaptiveWeights ExtRat) (cfg : AdaptiveConfig ExtRat) (now : Nat)

theorem statsOf_start (b : BackendId) : statsOf (start base cfg now).ctl b = .default := rfl

theorem allInRange_start : (start base cfg now).AllInRange := by
  intro b
  rw [statsOf_start]
  exact ⟨averaged_default.success, fun hnil => absurd rfl hnil⟩

theorem exact_start (hα' : α ≤ 1) (h : cfg.emaAlpha = .num α) :
    Exact (max (1 / 2 ^ 52) α) (start base cfg now) where
  alpha := by
    rw [alpha_eq h, min_eq_left hα']
  averaged := fun _ => averaged_default

/-- The averages stay in range exactly as long as no first success is blended with the initial
latency. -/
theorem inRange_iff (hα : 0 < α) (hα' : α ≤ 1) (h : cfg.emaAlpha = .num α)
    (calls : List (BackendId × ForwardOutcome)) :
    Run.All record AllInRange (start base cfg now) calls ↔
      Run.Each record (FirstAdopted α) (start base cfg now) calls := by
  have hpos : (0 : Rat) ≤ max (1 / 2 ^ 52) α := hα.le.trans (le_max_right _ _)
  have hle : max (1 / 2 ^ 52) α ≤ 1 := max_le (by norm_num) hα'
  have hone : max (1 / 2 ^ 52) α = 1 ↔ α = 1 := by
    constructor
    · intro hmax
      rcases max_choice (1 / 2 ^ 52 : Rat) α with hleft | hright
      · rw [hleft] at hmax
        norm_num at hmax
      · exact hright.symm.trans hmax
    · rintro rfl
      exact max_eq_right (by norm_num)
  have hsame : ∀ s call, FirstAdopted (max (1 / 2 ^ 52) α) s call ↔ FirstAdopted α s call := by
    intro s call
    obtain ⟨b, outcome⟩ := call
    cases outcome with
    | success latency =>
      show (_ → _ ∨ _ ∨ _) ↔ (_ → _ ∨ _ ∨ _)
      rw [hone]
    | failure => exact Iff.rfl
  exact Run.all_iff_each (fun s call hJ _ => exact_record hpos hle hJ call)
    (fun s call hJ _ hrange =>
      (allInRange_record_iff hpos hle hJ hrange call).trans (hsame s call))
    (exact_start base cfg now hα' h) (allInRange_start base cfg now)
    (Run.each_of_forall (fun _ _ => trivial) _ calls)

/-- The weights 0.4, 0.3, 0.2 and 0.1. -/
def someWeights : AdaptiveWeights ExtRat :=
  ⟨.num (2 / 5), .num (3 / 10), .num (1 / 5), .num (1 / 10)⟩

/-- The default configuration. -/
def someConfig : AdaptiveConfig ExtRat := ⟨.num (1 / 5), .num (1 / 4), .num (1 / 20), 10⟩

/-- A backend. -/
def someBackend : BackendId := ⟨⟨"r1"⟩, ⟨"a"⟩⟩

/-- 100 ms. -/
def tenth : Duration := ⟨0, 10 ^ 8, by decide, by decide⟩

theorem inRange_successFirst :
    Run.All record AllInRange (start someWeights someConfig 0)
      [(someBackend, .success tenth), (someBackend, .failure)] :=
  (inRange_iff someWeights someConfig 0 (α := 1 / 5) (by norm_num) (by norm_num) rfl
    [(someBackend, .success tenth), (someBackend, .failure)]).2
    ⟨fun _ => Or.inl rfl, trivial, trivial⟩

/-- After a failure, the latency 100 of the first success is averaged to 20. -/
theorem not_inRange_failureFirst :
    ¬Run.All record AllInRange (start someWeights someConfig 0)
      [(someBackend, .failure), (someBackend, .success tenth)] := by
  rintro ⟨-, -, hrange⟩
  obtain ⟨l, hl, ⟨v, hv, hle⟩, -⟩ := (hrange someBackend).latency (List.cons_ne_nil _ _)
  have hl' : ExtRat.num 20 = .num l := Eq.trans (by decide +kernel) hl
  have hv' : v = 100 := (List.mem_singleton.1 hv).trans (by decide +kernel)
  rw [← ExtRat.num.inj hl', hv'] at hle
  norm_num at hle

end Recorded

end AdaptiveWeightController

end HierKvGateway
