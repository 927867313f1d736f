import HierKvGateway.Core.Request
import HierKvGateway.Routing.TokenBucket
import Mathlib.Data.BitVec
import Mathlib.Data.List.AList

/-!
# Routing.TenantScheduler — admission of tenants

The tenant scheduler (`tenant_scheduler.rs`, `tenant.rs`). A request is checked against the rate
limit of its tenant, the number of its requests in flight and, when the backends are saturated, its
priority. The state of a tenant is created when it first sends a request.
-/

namespace HierKvGateway

/-- Tenant priority level. -/
inductive TenantPriority where
  | background
  | normal
  | premium
deriving DecidableEq, Repr

/-- The limits of a tenant. -/
structure TenantQuota (F : Type) where
  tenantId : TenantId
  priority : TenantPriority
  maxRps : Option F
  maxConcurrent : Option (BitVec 32)
  reservedCapacityFraction : F
deriving DecidableEq, Repr

/-- A tenant in the configuration. -/
structure TenantQuotaConfig (F : Type) where
  id : String
  priority : TenantPriority
  maxRps : Option F
  maxConcurrent : Option (BitVec 32)
  reservedCapacityFraction : F
deriving DecidableEq, Repr

/-- `TenantConfig`. -/
structure TenantConfig (F : Type) where
  enabled : Bool
  defaultMaxRps : Option F
  defaultMaxConcurrent : Option (BitVec 32)
  saturationThreshold : F
  tenants : List (TenantQuotaConfig F)
deriving DecidableEq, Repr

/-- The result of an admission check. -/
inductive AdmissionDecision where
  | admitted
  | rateLimited (retryAfterSecs : BitVec 64) (reason : String)
  | queued
deriving DecidableEq, Repr

/-- The state of a tenant. -/
structure TenantBucket (F : Type) where
  quota : TenantQuota F
  bucket : TokenBucket F
  inFlight : BitVec 64
deriving DecidableEq, Repr

/-- In which order a `DashMap` is iterated. It is that of the shards and of the slots in them, which
the hashes of the keys decide, and differs from map to map. -/
structure MapOrder (α : Type) where
  iter : List α → List α
  perm : ∀ keys, (iter keys).Perm keys

/-- The order of the keys themselves. -/
def MapOrder.same (α : Type) : MapOrder α := ⟨id, fun _ => .rfl⟩

/-- The tenant scheduler, with the order in which its map is iterated. -/
structure TenantScheduler (F : Type) where
  config : TenantConfig F
  order : MapOrder TenantId
  buckets : AList fun _ : TenantId => TenantBucket F
  totalCapacity : BitVec 64
  usedCapacity : BitVec 64

/-- `SaturationState::new`: the fraction of the capacity that is in use. -/
def capacityUsed {F : Type} [Floating F] (total used : BitVec 64) : F :=
  if 0 < total.toNat then Floating.ofNat used.toNat / Floating.ofNat total.toNat
  else Floating.ofNat 0

/-- `TenantScheduler::resolve_quota`: what the configuration says of a tenant. -/
def TenantConfig.resolveQuota {F : Type} [Floating F] (config : TenantConfig F) (id : TenantId) :
    TenantQuota F :=
  match config.tenants.find? fun t => t.id = id.str with
  | some t =>
    { tenantId := id
      priority := t.priority
      maxRps := t.maxRps.or config.defaultMaxRps
      maxConcurrent := t.maxConcurrent.or config.defaultMaxConcurrent
      reservedCapacityFraction :=
        if t.priority = .premium then t.reservedCapacityFraction else Floating.ofNat 0 }
  | none =>
    { tenantId := id
      priority := .normal
      maxRps := config.defaultMaxRps
      maxConcurrent := config.defaultMaxConcurrent
      reservedCapacityFraction := Floating.ofNat 0 }

namespace TenantBucket

variable {F : Type}

/-- `TenantBucket::new`, at an instant. -/
def new [Floating F] (quota : TenantQuota F) (now : Nat) : TenantBucket F :=
  let rate := quota.maxRps.getD Floating.maxValue
  let burst := Floating.max rate (Floating.ofNat 1)
  ⟨quota, .new rate (some burst) now, 0⟩

/-- The requests in flight have reached the limit. -/
def atMaxConcurrent (b : TenantBucket F) : Bool :=
  b.quota.maxConcurrent.any fun max => max.toNat ≤ b.inFlight.toNat

/-- The refusal of a tenant that is at its limit of concurrent requests. -/
def concurrencyRefusal (b : TenantBucket F) : AdmissionDecision :=
  .rateLimited 1 ("tenant " ++ b.quota.tenantId.str ++ " at max concurrent requests (" ++
    toString (b.quota.maxConcurrent.getD 0).toNat ++ ")")

/-- The refusal of a tenant that has no token. -/
def rateRefusal [Rounding F] (b : TenantBucket F) : AdmissionDecision :=
  let retryAfter := Rounding.ceilU64 (b.bucket.timeUntilAvailable (Floating.ofNat 1))
  .rateLimited (if retryAfter.toNat ≤ 1 then 1 else retryAfter)
    ("tenant " ++ b.quota.tenantId.str ++ " exceeded RPS limit of " ++
      Rounding.displayRounded (b.quota.maxRps.getD Floating.maxValue))

/-- The checks of `check_admission` that are about the tenant alone: the rate limit, then the limit
of concurrent requests. -/
def checkLimits [Rounding F] (now : Nat) (b : TenantBucket F) :
    Option AdmissionDecision × TenantBucket F :=
  let (ok, bucket) := b.bucket.tryConsume (Floating.ofNat 1) now
  let b := { b with bucket := bucket }
  if !ok then (some b.rateRefusal, b)
  else if b.atMaxConcurrent then (some b.concurrencyRefusal, b)
  else (none, b)

end TenantBucket

/-- The decision by priority, for the fraction of the capacity that is in use and the fraction that
is reserved. -/
def TenantConfig.decidePriority {F : Type} [Floating F] (config : TenantConfig F)
    (priority : TenantPriority) (used reserved : F) : AdmissionDecision :=
  if Floating.le config.saturationThreshold used then
    match priority with
    | .premium => .admitted
    | .normal => if Floating.lt used (Floating.ofNat 1 - reserved) then .admitted else .queued
    | .background => .queued
  else .admitted

namespace TenantScheduler

variable {F : Type}

/-- `TenantScheduler::new`. -/
def new (config : TenantConfig F) (order : MapOrder TenantId) : TenantScheduler F :=
  ⟨config, order, ∅, 100, 0⟩

/-- `TenantScheduler::update_capacity`. -/
def updateCapacity (total used : BitVec 64) (s : TenantScheduler F) : TenantScheduler F :=
  { s with totalCapacity := if total.toNat ≤ 1 then 1 else total, usedCapacity := used }

section Floats

variable [Floating F]

/-- `get_or_create_bucket`, at an instant. -/
def getOrCreateBucket (id : TenantId) (now : Nat) (s : TenantScheduler F) :
    TenantBucket F × TenantScheduler F :=
  match s.buckets.lookup id with
  | some b => (b, s)
  | none =>
    let b := TenantBucket.new (s.config.resolveQuota id) now
    (b, { s with buckets := s.buckets.insert id b })

/-- The reserved fractions of premium tenants, added up one after the other. -/
def reservedSum (quotas : List (TenantQuota F)) : F :=
  quotas.foldl (fun total quota =>
    if quota.priority = .premium then total + quota.reservedCapacityFraction else total)
    (Floating.ofNat 0)

/-- The buckets, in the order of the map. -/
def iterBuckets (s : TenantScheduler F) : List (TenantBucket F) :=
  (s.order.iter s.buckets.keys).filterMap fun id => s.buckets.lookup id

/-- `total_reserved_fraction`. -/
def totalReservedFraction (s : TenantScheduler F) : F :=
  Floating.min (reservedSum (s.iterBuckets.map (·.quota))) (Floating.lit 9 1)

/-- The saturation check of `check_admission`. -/
def saturationDecision (s : TenantScheduler F) (priority : TenantPriority) : AdmissionDecision :=
  s.config.decidePriority priority (capacityUsed s.totalCapacity s.usedCapacity)
    s.totalReservedFraction

/-- `record_request_start`, at an instant. -/
def recordRequestStart (id : TenantId) (now : Nat) (s : TenantScheduler F) : TenantScheduler F :=
  let (b, s) := s.getOrCreateBucket id now
  { s with buckets := s.buckets.insert id { b with inFlight := b.inFlight + 1 } }

end Floats

/-- `record_request_end`. -/
def recordRequestEnd (id : TenantId) (s : TenantScheduler F) : TenantScheduler F :=
  match s.buckets.lookup id with
  | some b => { s with buckets := s.buckets.insert id { b with inFlight := b.inFlight - 1 } }
  | none => s

/-- `check_admission`, at an instant. -/
def checkAdmission [Rounding F] (id : TenantId) (now : Nat) (s : TenantScheduler F) :
    AdmissionDecision × TenantScheduler F :=
  if !s.config.enabled then (.admitted, s)
  else
    let (b, s) := s.getOrCreateBucket id now
    let (refusal, b) := b.checkLimits now
    let s := { s with buckets := s.buckets.insert id b }
    match refusal with
    | some decision => (decision, s)
    | none => (s.saturationDecision b.quota.priority, s)

end TenantScheduler

end HierKvGateway
