import HierKvGateway.Lib.Run
import HierKvGateway.Routing.RefusalCost
import Mathlib.Order.Bounds.Basic

/-!
# Routing.RetryAfter — when to try again

A tenant without a token is told after how many seconds it has one again. With exact numbers that is
the least number of seconds of which this is true (`retryAfter_isLeast`): the burst is never below
one token, and less than a token is missing.
-/

namespace HierKvGateway

/-! ## The tokens of a tenant -/

namespace TokenBucket

/-- The bucket has exact numbers, at most the burst of a tenant, and does not owe any tokens. -/
def Metered (rate : Rat) (b : TokenBucket ExtRat) : Prop :=
  ∃ x : Bucket Rat, Exact rate (max rate 1) b x ∧ x.Within (max rate 1)

variable {rate : Rat} {b : TokenBucket ExtRat} {now : Nat}

theorem metered_new (hrate : 0 ≤ rate) (created : Nat) :
    Metered rate (newExact rate (some (max rate 1)) created) :=
  ⟨_, exact_new rate (some (max rate 1)) created, hrate.trans (le_max_left rate 1), le_rfl⟩

theorem Metered.refill (hrate : 0 ≤ rate) (h : Metered rate b) (now : Nat) :
    Metered rate (b.refill now) := by
  obtain ⟨x, hx, hwithin⟩ := h
  exact ⟨_, exact_refill hx now, Bucket.within_refill _ hrate hwithin⟩

theorem Metered.tryConsume (hrate : 0 ≤ rate) (h : Metered rate b) (now : Nat) :
    Metered rate (b.tryConsume (Floating.ofNat 1) now).2 := by
  obtain ⟨x, hx, hwithin⟩ := h
  exact ⟨_, (exact_tryConsume hx now).2, Bucket.within_take hrate zero_le_one hwithin⟩

/-- After a refill the instant is that of the refill, unless it has been overtaken. -/
theorem lastRefill_refill (h : Metered rate b) (hle : b.lastRefill ≤ now) :
    (b.refill now).lastRefill = now := by
  obtain ⟨x, hx, -⟩ := h
  have hlast := (exact_refill hx now).last
  rw [Bucket.last_refill, hx.last, max_seconds, Nat.max_eq_right hle] at hlast
  by_contra hne
  rcases Nat.lt_or_gt_of_ne hne with hlt | hlt
  · exact absurd hlast (seconds_lt_iff.2 hlt).ne'
  · exact absurd hlast (seconds_lt_iff.2 hlt).ne

/-- Later than the last refill, there is a token if what was missing has come in. -/
theorem tryConsume_iff {tokens : Rat} (h : Metered rate b) (htokens : b.tokens = .num tokens)
    (hlt : b.lastRefill < now) :
    (b.tryConsume (Floating.ofNat 1) now).1 = true ↔
      1 - tokens ≤ (seconds now - seconds b.lastRefill) * rate := by
  obtain ⟨x, hx, -⟩ := h
  have hsame : x.tokens = tokens := ExtRat.num.inj (hx.tokens.symm.trans htokens)
  rw [(exact_tryConsume hx now).1, ← hx.last,
    Bucket.take_iff (le_max_right rate 1) (hx.last ▸ seconds_lt_iff.2 hlt), hsame,
    sub_le_iff_le_add']

theorem seconds_add (t n : Nat) : seconds (t + n * 10 ^ 9) = seconds t + n := by
  unfold seconds
  push_cast
  ring

/-- What is missing, in seconds, is how long to wait. -/
theorem granted_from_iff {tokens : Rat} (hrate : 0 < rate) (h : Metered rate b)
    (htokens : b.tokens = .num tokens) {n : Nat} (hn : 1 ≤ n) :
    (∀ now, b.lastRefill + n * 10 ^ 9 ≤ now →
        (b.tryConsume (Floating.ofNat 1) now).1 = true) ↔
      (1 - tokens) / rate ≤ n := by
  rw [div_le_iff₀ hrate]
  constructor
  · intro hall
    have hgranted := hall _ le_rfl
    rw [tryConsume_iff h htokens (by omega), seconds_add, add_sub_cancel_left] at hgranted
    exact hgranted
  · intro hle now hnow
    rw [tryConsume_iff h htokens (by omega)]
    have hlater : seconds b.lastRefill + n ≤ seconds now := by
      rw [← seconds_add]
      rcases Nat.eq_or_lt_of_le hnow with heq | hlt
      · rw [heq]
      · exact (seconds_lt_iff.2 hlt).le
    have hsecs : (n : Rat) * rate ≤ (seconds now - seconds b.lastRefill) * rate :=
      mul_le_mul_of_nonneg_right (by linarith) hrate.le
    exact hle.trans hsecs

end TokenBucket

/-! ## The refusal -/

namespace TenantBucket

open TokenBucket (Metered)

variable {rate tokens : Rat} {b : TenantBucket ExtRat}

/-- The slowest rate that `time_until_available` divides by. -/
theorem minRate_pos : (0 : Rat) < 1 / 10 ^ 9 := by norm_num

theorem timeUntilAvailable_eq (hrate : 1 / 10 ^ 9 ≤ rate) (hmetered : Metered rate b.bucket)
    (htokens : b.bucket.tokens = .num tokens) (hlt : tokens < 1) :
    b.bucket.timeUntilAvailable (Floating.ofNat 1) = .num ((1 - tokens) / rate) := by
  obtain ⟨x, hx, -⟩ := hmetered
  have hpos : 0 < rate := minRate_pos.trans_le hrate
  have hlit : (Floating.lit 1 9 : ExtRat) = .num (1 / 10 ^ 9) := by
    show ExtRat.num ((1 : Nat) / 10 ^ 9) = _
    rw [Nat.cast_one]
  unfold TokenBucket.timeUntilAvailable
  rw [htokens, hx.rate, hlit, ExtRat.ofNat_eq, Nat.cast_one, ExtRat.le_num,
    decide_eq_false (not_le.2 hlt), if_neg Bool.false_ne_true, ExtRat.max_num, max_eq_left hrate,
    ExtRat.num_sub, ExtRat.num_div _ _ hpos.ne']

/-- The seconds in the refusal are the least whole number, not 0, that is not below what is
missing. -/
theorem rateRefusal_isLeast (hrate : 1 / 10 ^ 9 ≤ rate) (hmetered : Metered rate b.bucket)
    (htokens : b.bucket.tokens = .num tokens) (hlt : tokens < 1) {r : BitVec 64} {reason : String}
    (h : b.rateRefusal = .rateLimited r reason) :
    IsLeast {n : Nat | 1 ≤ n ∧ (1 - tokens) / rate ≤ n} r.toNat := by
  have hpos : 0 < rate := minRate_pos.trans_le hrate
  obtain ⟨x, hx, hwithin⟩ := hmetered
  have hsame : x.tokens = tokens := ExtRat.num.inj (hx.tokens.symm.trans htokens)
  -- less than a token is missing, so the seconds are a `u64`
  have hbound : (1 - tokens) / rate ≤ (2 ^ 64 - 1 : Nat) := by
    rw [div_le_iff₀ hpos]
    have hmissing : 1 - tokens ≤ 1 := by
      have hnonneg := hwithin.1
      linarith
    have hlarge : (1 : Rat) ≤ (2 ^ 64 - 1 : Nat) * (1 / 10 ^ 9) := by norm_num
    exact hmissing.trans (hlarge.trans (mul_le_mul_of_nonneg_left hrate (Nat.cast_nonneg _)))
  have hceil := ExtRat.toNat_ceilU64_le_iff hbound
  unfold rateRefusal at h
  rw [timeUntilAvailable_eq hrate ⟨x, hx, hwithin⟩ htokens hlt] at h
  injection h with hr _
  rw [← hr]
  split
  · rename_i hone
    exact ⟨⟨le_rfl, (hceil 1).1 hone⟩, fun n hn => hn.1⟩
  · rename_i hone
    refine ⟨⟨by omega, (hceil _).1 le_rfl⟩, fun n hn => ?_⟩
    exact (hceil n).2 hn.2

end TenantBucket

/-! ## All calls -/

namespace TenantScheduler

open TokenBucket (Metered)

variable {config : TenantConfig ExtRat} {id : TenantId} {rate : Rat} {s : TenantScheduler ExtRat}

/-- The rate of a tenant. -/
def rateOf (config : TenantConfig ExtRat) (id : TenantId) : ExtRat :=
  (config.resolveQuota id).maxRps.getD Floating.maxValue

/-- The bucket of the tenant has exact numbers. -/
structure TenantMetered (config : TenantConfig ExtRat) (id : TenantId) (rate : Rat)
    (s : TenantScheduler ExtRat) : Prop where
  sameConfig : s.config = config
  bucket : ∀ b, s.buckets.lookup id = some b → Metered rate b.bucket

theorem TenantMetered.insert (h : TenantMetered config id rate s) {id' : TenantId}
    {b : TenantBucket ExtRat} (hb : id' = id → Metered rate b.bucket) :
    TenantMetered config id rate { s with buckets := s.buckets.insert id' b } where
  sameConfig := h.sameConfig
  bucket b' hb' := by
    rcases AList.lookup_of_insert hb' with ⟨hid, rfl⟩ | ⟨-, hold⟩
    · exact hb hid.symm
    · exact h.bucket b' hold

theorem metered_tenant_new (hquota : rateOf config id = .num rate) (hrate : 0 ≤ rate) (now : Nat) :
    Metered rate (TenantBucket.new (config.resolveQuota id) now).bucket := by
  have hnew : (TenantBucket.new (config.resolveQuota id) now).bucket =
      TokenBucket.newExact rate (some (max rate 1)) now := by
    show TokenBucket.new (rateOf config id)
      (some (Floating.max (rateOf config id) (Floating.ofNat 1))) now = _
    rw [hquota, ExtRat.ofNat_eq, ExtRat.max_num, Nat.cast_one]
    rfl
  rw [hnew]
  exact TokenBucket.metered_new hrate now

/-- What is found or created for a tenant, and the scheduler after that. -/
theorem TenantMetered.getOrCreate (hquota : rateOf config id = .num rate) (hrate : 0 ≤ rate)
    (h : TenantMetered config id rate s) (id' : TenantId) (now : Nat) :
    (id' = id → Metered rate (s.getOrCreateBucket id' now).1.bucket) ∧
      TenantMetered config id rate (s.getOrCreateBucket id' now).2 := by
  unfold getOrCreateBucket
  cases hb : s.buckets.lookup id' with
  | some b =>
    refine ⟨?_, h⟩
    rintro rfl
    exact h.bucket b hb
  | none =>
    have hnew : id' = id →
        Metered rate (TenantBucket.new (s.config.resolveQuota id') now).bucket := by
      rintro rfl
      rw [h.sameConfig]
      exact metered_tenant_new hquota hrate now
    exact ⟨hnew, h.insert hnew⟩

theorem bucket_checkLimits (b : TenantBucket ExtRat) (now : Nat) :
    (b.checkLimits now).2.bucket = (b.bucket.tryConsume (Floating.ofNat 1) now).2 := by
  unfold TenantBucket.checkLimits
  dsimp only
  split
  · rfl
  · split
    · rfl
    · rfl

/-- A call keeps the bucket exact. -/
theorem TenantMetered.perform (hquota : rateOf config id = .num rate) (hrate : 0 ≤ rate)
    (h : TenantMetered config id rate s) (c : TenantCall) :
    TenantMetered config id rate (s.perform c) := by
  cases c with
  | check id' now =>
    show TenantMetered config id rate (s.checkAdmission id' now).2
    cases henabled : s.config.enabled with
    | true =>
      obtain ⟨hb, hs⟩ := h.getOrCreate hquota hrate id' now
      rw [checkAdmission_eq henabled]
      refine hs.insert fun hid => ?_
      rw [bucket_checkLimits]
      exact (hb hid).tryConsume hrate now
    | false =>
      unfold checkAdmission
      rw [henabled]
      exact h
  | start id' now =>
    obtain ⟨hb, hs⟩ := h.getOrCreate hquota hrate id' now
    exact hs.insert hb
  | finish id' =>
    show TenantMetered config id rate (s.recordRequestEnd id')
    unfold recordRequestEnd
    cases hb : s.buckets.lookup id' with
    | some b =>
      refine h.insert ?_
      rintro rfl
      exact h.bucket b hb
    | none => exact h
  | capacity total used => exact ⟨h.sameConfig, h.bucket⟩

theorem tenantMetered_run (hquota : rateOf config id = .num rate) (hrate : 0 ≤ rate)
    (order : MapOrder TenantId) (calls : List TenantCall) :
    TenantMetered config id rate ((new config order).run calls) := by
  have hnew : TenantMetered config id rate (new config order) := ⟨rfl, fun b hb => by
    rw [show (new config order).buckets.lookup id = none from rfl] at hb
    exact absurd hb.symm (Option.some_ne_none b)⟩
  exact Run.foldl_preserves (P := TenantMetered config id rate)
    (fun s c h => h.perform hquota hrate c) hnew calls

/-- After any calls, a tenant that is refused for its rate is told the least whole number of
seconds, not 0, from which on it has a token. -/
theorem retryAfter_isLeast (config : TenantConfig ExtRat) (order : MapOrder TenantId)
    (calls : List TenantCall) (id : TenantId) (t : Nat) {rate : Rat} {r : BitVec 64}
    {reason : String}
    (hquota : rateOf config id = .num rate) (hrate : 1 / 10 ^ 9 ≤ rate)
    (hlater : (((new config order).run calls).bucketOf id t).bucket.lastRefill ≤ t)
    (htoken : (((new config order).run calls).bucketOf id t).hasToken t = false)
    (hrefused : (((new config order).run calls).checkAdmission id t).1 = .rateLimited r reason) :
    ∃ b, (((new config order).run calls).checkAdmission id t).2.buckets.lookup id = some b ∧
      IsLeast {n : Nat | 1 ≤ n ∧ ∀ now, t + n * 10 ^ 9 ≤ now →
        (b.bucket.tryConsume (Floating.ofNat 1) now).1 = true} r.toNat := by
  have hpos : 0 < rate := TenantBucket.minRate_pos.trans_le hrate
  have hs := tenantMetered_run hquota hpos.le order calls
  generalize (new config order).run calls = s at hlater htoken hrefused hs ⊢
  have henabled : s.config.enabled = true := by
    refine enabled_of_refused id t ?_
    rw [hrefused]
    simp
  have hlimits := TenantBucket.checkLimits_of_noToken htoken
  have hmetered : Metered rate (s.bucketOf id t).bucket :=
    (hs.getOrCreate hquota hpos.le id t).1 rfl
  have hrefusal : ((s.bucketOf id t).refilled t).rateRefusal = .rateLimited r reason := by
    rw [checkAdmission_eq henabled] at hrefused
    unfold bucketOf at hlimits
    dsimp only at hrefused
    rw [hlimits] at hrefused
    exact hrefused
  have hlast := TokenBucket.lastRefill_refill hmetered hlater
  have hrefilled := hmetered.refill hpos.le t
  obtain ⟨x, hx, -⟩ := hrefilled
  have hlt : x.tokens < 1 := by
    unfold TenantBucket.hasToken at htoken
    rw [hx.tokens, ExtRat.ofNat_eq, Nat.cast_one, ExtRat.le_num] at htoken
    exact not_le.1 (of_decide_eq_false htoken)
  have hsecs := TenantBucket.rateRefusal_isLeast hrate (hmetered.refill hpos.le t) hx.tokens hlt
    hrefusal
  -- the seconds after which the missing tokens have come in
  have hsame : {n : Nat | 1 ≤ n ∧ ∀ now, t + n * 10 ^ 9 ≤ now →
      (((s.bucketOf id t).refilled t).bucket.tryConsume (Floating.ofNat 1) now).1 = true} =
      {n : Nat | 1 ≤ n ∧ (1 - x.tokens) / rate ≤ n} := by
    ext n
    refine and_congr_right fun hn => ?_
    rw [← TokenBucket.granted_from_iff hpos (hmetered.refill hpos.le t) hx.tokens hn, hlast]
    rfl
  refine ⟨(s.bucketOf id t).refilled t, ?_, hsame ▸ hsecs⟩
  rw [lookup_checkAdmission id t henabled, hlimits]

/-- A request every two seconds. -/
def everyTwoSeconds : TenantConfig ExtRat where
  enabled := true
  defaultMaxRps := some (.num (1 / 2))
  defaultMaxConcurrent := none
  saturationThreshold := .num (4 / 5)
  tenants := []

/-- Half a second after a request, there is the next token in one and a half: in 2 seconds. -/
theorem retryAfter_isLeast_two :
    ∃ b, (((new everyTwoSeconds (.same _)).run [.check ⟨"a"⟩ 0]).checkAdmission ⟨"a"⟩
        500000000).2.buckets.lookup ⟨"a"⟩ = some b ∧
      IsLeast {n : Nat | 1 ≤ n ∧ ∀ now, 500000000 + n * 10 ^ 9 ≤ now →
        (b.bucket.tryConsume (Floating.ofNat 1) now).1 = true} 2 := by
  have hquota : rateOf everyTwoSeconds ⟨"a"⟩ = .num (1 / 2) := rfl
  have hrefused : (((new everyTwoSeconds (.same _)).run [.check ⟨"a"⟩ 0]).checkAdmission ⟨"a"⟩
      500000000).1 = .rateLimited 2 "tenant a exceeded RPS limit of 0" := by decide +kernel
  exact retryAfter_isLeast everyTwoSeconds (.same _) [.check ⟨"a"⟩ 0] ⟨"a"⟩ 500000000 hquota
    (by norm_num) (by decide +kernel) (by decide +kernel) hrefused

end TenantScheduler

end HierKvGateway
