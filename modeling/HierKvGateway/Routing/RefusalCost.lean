import HierKvGateway.Routing.Reservations

/-!
# Routing.RefusalCost — what a refused admission costs

The checks of `check_admission` run in a row, and the first one takes the token. The later ones do
not put it back: a request that is refused for the requests in flight, or queued, costs as much as
one that is admitted.

`refusal_cost` holds for any floating-point numbers.
-/

namespace HierKvGateway

section Floats

variable {F : Type} [Rounding F]

/-! ## One tenant -/

namespace TenantBucket

/-- The bucket, refilled. -/
def refilled (now : Nat) (b : TenantBucket F) : TenantBucket F :=
  { b with bucket := b.bucket.refill now }

/-- The bucket, refilled, and with a token taken out. -/
def charged (now : Nat) (b : TenantBucket F) : TenantBucket F :=
  { b with bucket := { b.bucket.refill now with
      tokens := (b.bucket.refill now).tokens - Floating.ofNat 1 } }

/-- There is a token. -/
def hasToken (now : Nat) (b : TenantBucket F) : Bool :=
  Floating.le (Floating.ofNat 1) (b.bucket.refill now).tokens

variable {now : Nat} {b : TenantBucket F}

theorem checkLimits_of_noToken (h : b.hasToken now = false) :
    b.checkLimits now = (some (b.refilled now).rateRefusal, b.refilled now) := by
  unfold hasToken at h
  unfold checkLimits TokenBucket.tryConsume
  dsimp only
  rw [h]
  rfl

/-- With a token, it is taken before the requests in flight are looked at. -/
theorem checkLimits_of_hasToken (h : b.hasToken now = true) :
    b.checkLimits now =
      (if b.atMaxConcurrent then some (b.charged now).concurrencyRefusal else none,
        b.charged now) := by
  unfold hasToken at h
  unfold checkLimits TokenBucket.tryConsume
  dsimp only
  rw [h, if_pos rfl, Bool.not_true, if_neg Bool.false_ne_true]
  show (if b.atMaxConcurrent then _ else _) = _
  split
  · rfl
  · rfl

end TenantBucket

/-! ## The scheduler -/

namespace TenantScheduler

variable {s : TenantScheduler F} (id : TenantId) (now : Nat)

/-- The state of a tenant as a check finds it. -/
def bucketOf (s : TenantScheduler F) : TenantBucket F :=
  (s.getOrCreateBucket id now).1

/-- The state of the tenant after the check. -/
theorem lookup_checkAdmission (henabled : s.config.enabled = true) :
    (s.checkAdmission id now).2.buckets.lookup id =
      some ((s.bucketOf id now).checkLimits now).2 := by
  rw [checkAdmission_eq henabled]
  exact AList.lookup_insert _

/-- Only a scheduler that is enabled refuses. -/
theorem enabled_of_refused (h : (s.checkAdmission id now).1 ≠ .admitted) :
    s.config.enabled = true := by
  cases henabled : s.config.enabled with
  | true => rfl
  | false =>
    refine absurd ?_ h
    unfold checkAdmission
    rw [henabled]
    rfl

theorem saturationDecision_cases (s : TenantScheduler F) (priority : TenantPriority) :
    s.saturationDecision priority = .admitted ∨ s.saturationDecision priority = .queued := by
  unfold saturationDecision TenantConfig.decidePriority
  split
  · cases priority with
    | premium => exact Or.inl rfl
    | normal =>
      dsimp only
      split
      · exact Or.inl rfl
      · exact Or.inr rfl
    | background => exact Or.inr rfl
  · exact Or.inl rfl

/-- A request that the token bucket refuses costs nothing. One that is refused later, for the
requests in flight or by priority, costs a token. -/
theorem refusal_cost (s : TenantScheduler F) (id : TenantId) (now : Nat)
    (h : (s.checkAdmission id now).1 ≠ .admitted) :
    ∃ b, (s.checkAdmission id now).2.buckets.lookup id = some b ∧
      ((s.bucketOf id now).hasToken now = false ∧ (s.checkAdmission id now).1 = b.rateRefusal ∧
          b = (s.bucketOf id now).refilled now ∨
        (s.bucketOf id now).hasToken now = true ∧
          ((s.checkAdmission id now).1 = b.concurrencyRefusal ∧ b.atMaxConcurrent = true ∨
            (s.checkAdmission id now).1 = .queued ∧ b.atMaxConcurrent = false) ∧
          b = (s.bucketOf id now).charged now) := by
  have henabled := enabled_of_refused id now h
  have hlookup := lookup_checkAdmission id now henabled
  rw [checkAdmission_eq henabled] at h hlookup ⊢
  refine ⟨_, hlookup, ?_⟩
  dsimp only at h ⊢
  cases htoken : (s.bucketOf id now).hasToken now with
  | false =>
    left
    have hlimits := TenantBucket.checkLimits_of_noToken htoken
    unfold bucketOf at hlimits ⊢
    rw [hlimits]
    exact ⟨rfl, rfl, rfl⟩
  | true =>
    right
    have hlimits := TenantBucket.checkLimits_of_hasToken htoken
    unfold bucketOf at hlimits ⊢
    rw [hlimits] at h ⊢
    refine ⟨rfl, ?_, rfl⟩
    cases hmax : (s.getOrCreateBucket id now).1.atMaxConcurrent with
    | true => exact Or.inl ⟨rfl, hmax⟩
    | false =>
      right
      rw [hmax] at h
      rcases saturationDecision_cases (F := F) _ _ with hdecision | hdecision
      · exact absurd hdecision h
      · exact ⟨hdecision, hmax⟩

end TenantScheduler

end Floats

namespace TenantScheduler

/-! ## One token a second -/

/-- One token a second, as many requests at a time as given, and a background tenant. -/
def oneRps (maxConcurrent : Option (BitVec 32)) : TenantConfig ExtRat where
  enabled := true
  defaultMaxRps := some (.num 1)
  defaultMaxConcurrent := maxConcurrent
  saturationThreshold := .num (4 / 5)
  tenants := [⟨"low", .background, none, none, .num 0⟩]

/-- The second request in a second is refused by the token bucket. -/
theorem refusal_cost_twice :
    let s := ((new (oneRps none) (.same _)).checkAdmission ⟨"a"⟩ 0).2
    ∃ b, (s.checkAdmission ⟨"a"⟩ 0).2.buckets.lookup ⟨"a"⟩ = some b ∧
      b = (s.bucketOf ⟨"a"⟩ 0).refilled 0 := by
  intro s
  rcases refusal_cost s ⟨"a"⟩ 0 (by decide +kernel) with ⟨b, hb, ⟨-, -, hfree⟩ | ⟨htoken, -⟩⟩
  · exact ⟨b, hb, hfree⟩
  · exact absurd htoken (by decide +kernel)

/-- No requests in flight are allowed, or all of the capacity is in use: the token is gone. -/
theorem token_lost :
    let s := new (oneRps (some 0)) (.same _)
    let s' := (new (oneRps none) (.same _)).updateCapacity 100 100
    (s.checkAdmission ⟨"a"⟩ 0).1 =
        .rateLimited 1 "tenant a at max concurrent requests (0)" ∧
      ((s.bucketOf ⟨"a"⟩ 0).bucket.refill 0).tokens = .num 1 ∧
      ((s.checkAdmission ⟨"a"⟩ 0).2.buckets.lookup ⟨"a"⟩).map (·.bucket.tokens) =
        some (.num 0) ∧
      (s'.checkAdmission ⟨"low"⟩ 0).1 = .queued ∧
      ((s'.bucketOf ⟨"low"⟩ 0).bucket.refill 0).tokens = .num 1 ∧
      ((s'.checkAdmission ⟨"low"⟩ 0).2.buckets.lookup ⟨"low"⟩).map (·.bucket.tokens) =
        some (.num 0) := by
  decide +kernel

end TenantScheduler

end HierKvGateway
