import HierKvGateway.Lib.Update
import HierKvGateway.Routing.TenantScheduler

/-!
# Routing.Reservations — what premium tenants have reserved

When the backends are saturated, the capacity that premium tenants have reserved is kept from normal
ones. It is added up over the tenants that have a bucket, and these are the ones that have sent a
request: a premium tenant that has been idle has nothing reserved.

`TenantScheduler.decision_agrees_iff` says for which histories a normal tenant gets the same
decision. It holds for any floating-point numbers: they are added up in the order in which the map
is iterated, and two maps with the same tenants may give two sums.
-/

namespace HierKvGateway

/-- A call on the tenant scheduler. -/
inductive TenantCall where
  | check (id : TenantId) (now : Nat)
  | start (id : TenantId) (now : Nat)
  | finish (id : TenantId)
  | capacity (total used : BitVec 64)
deriving DecidableEq, Repr

/-- The tenant whose bucket a call creates. -/
def TenantCall.touches (enabled : Bool) : TenantCall → Option TenantId
  | .check id _ => if enabled then some id else none
  | .start id _ => some id
  | .finish _ => none
  | .capacity _ _ => none

namespace TenantScheduler

/-- What a call does. -/
def perform {F : Type} [Rounding F] (c : TenantCall) (s : TenantScheduler F) : TenantScheduler F :=
  match c with
  | .check id now => (s.checkAdmission id now).2
  | .start id now => s.recordRequestStart id now
  | .finish id => s.recordRequestEnd id
  | .capacity total used => s.updateCapacity total used

/-- The scheduler after the calls of a history. -/
def run {F : Type} [Rounding F] (h : List TenantCall) (s : TenantScheduler F) : TenantScheduler F :=
  h.foldl (fun s c => s.perform c) s

/-- The tenants that have sent a request. -/
def seen (enabled : Bool) (h : List TenantCall) : Finset TenantId :=
  (h.filterMap (TenantCall.touches enabled)).toFinset

/-- The tenants that have a bucket when a check of `id` looks at the reservations, in the order of
the map. -/
def tenants {F : Type} (id : TenantId) (s : TenantScheduler F) : List TenantId :=
  s.order.iter (id :: s.buckets.keys.erase id)

/-- The fraction of the capacity that is left to normal tenants, with the reservations that are
configured for these tenants, added up one after the other. -/
def available {F : Type} [Floating F] (config : TenantConfig F) (ids : List TenantId) : F :=
  Floating.ofNat 1 - Floating.min (reservedSum (ids.map config.resolveQuota)) (Floating.lit 9 1)

/-- The capacity in use is below what is left to normal tenants. -/
def hasRoom {F : Type} [Floating F] (config : TenantConfig F) (ids : List TenantId)
    (total used : BitVec 64) : Bool :=
  Floating.lt (capacityUsed total used) (available config ids)

section Floats

variable {F : Type} [Rounding F]

/-- The tenants `ids` have a bucket each, and the others have none. The limits in it are the
configured ones. -/
structure Seen (config : TenantConfig F) (ids : Finset TenantId) (s : TenantScheduler F) :
    Prop where
  sameConfig : s.config = config
  keys : ∀ id, id ∈ s.buckets ↔ id ∈ ids
  quota : ∀ id b, s.buckets.lookup id = some b → b.quota = config.resolveQuota id

variable {config : TenantConfig F} {ids : Finset TenantId} {s : TenantScheduler F}
variable {id : TenantId} {now : Nat}

theorem seen_snoc (enabled : Bool) (h : List TenantCall) (c : TenantCall) :
    seen enabled (h ++ [c]) =
      match c.touches enabled with
      | some id => insert id (seen enabled h)
      | none => seen enabled h := by
  unfold seen
  rw [List.filterMap_append, List.toFinset_append, Finset.union_comm]
  cases hc : c.touches enabled with
  | some id =>
    rw [List.filterMap_cons_some hc, List.filterMap_nil, List.toFinset_cons, List.toFinset_nil,
      Finset.insert_union, Finset.empty_union]
  | none =>
    rw [List.filterMap_cons_none hc, List.filterMap_nil, List.toFinset_nil, Finset.empty_union]

/-! ## The tenants that have a bucket -/

theorem Seen.insert (h : Seen config ids s) {b : TenantBucket F}
    (hb : b.quota = config.resolveQuota id) :
    Seen config (insert id ids) { s with buckets := s.buckets.insert id b } where
  sameConfig := h.sameConfig
  keys id' := by
    rw [AList.mem_insert, Finset.mem_insert, h.keys]
  quota id' b' hb' := by
    rcases AList.lookup_of_insert hb' with ⟨rfl, rfl⟩ | ⟨-, hb'⟩
    · exact hb
    · exact h.quota id' b' hb'

theorem Seen.update (h : Seen config ids s) (hid : id ∈ ids) {b : TenantBucket F}
    (hb : b.quota = config.resolveQuota id) :
    Seen config ids { s with buckets := s.buckets.insert id b } := by
  have hnew := h.insert hb
  rw [Finset.insert_eq_of_mem hid] at hnew
  exact hnew

/-- A tenant that sends a request has a bucket from then on. -/
theorem Seen.getOrCreate (h : Seen config ids s) (id : TenantId) (now : Nat) :
    (s.getOrCreateBucket id now).1.quota = config.resolveQuota id ∧
      Seen config (Insert.insert id ids) (s.getOrCreateBucket id now).2 := by
  unfold getOrCreateBucket
  cases hb : s.buckets.lookup id with
  | some b =>
    have hid : id ∈ ids := by
      rw [← h.keys, ← AList.lookup_isSome, hb]
      rfl
    refine ⟨h.quota id b hb, ?_⟩
    rw [Finset.insert_eq_of_mem hid]
    exact h
  | none =>
    have hquota : (TenantBucket.new (s.config.resolveQuota id) now).quota =
        config.resolveQuota id := by
      rw [h.sameConfig]
      rfl
    exact ⟨hquota, h.insert hquota⟩

theorem quota_checkLimits (b : TenantBucket F) : (b.checkLimits now).2.quota = b.quota := by
  unfold TenantBucket.checkLimits
  dsimp only
  split
  · rfl
  · split
    · rfl
    · rfl

/-- `check_admission` with the scheduler enabled: refused by the limits of the tenant, or decided
by its priority. -/
theorem checkAdmission_eq (henabled : s.config.enabled = true) :
    let b := (s.getOrCreateBucket id now).1
    let s' : TenantScheduler F := { (s.getOrCreateBucket id now).2 with
      buckets := (s.getOrCreateBucket id now).2.buckets.insert id (b.checkLimits now).2 }
    s.checkAdmission id now =
      (((b.checkLimits now).1).getD (s'.saturationDecision b.quota.priority), s') := by
  intro b s'
  unfold checkAdmission
  rw [henabled, Bool.not_true, if_neg Bool.false_ne_true]
  dsimp only
  cases hrefusal : (b.checkLimits now).1 with
  | some decision => rfl
  | none =>
    rw [quota_checkLimits]
    rfl

theorem seen_checkAdmission (h : Seen config ids s) (henabled : config.enabled = true)
    (id : TenantId) (now : Nat) :
    Seen config (Insert.insert id ids) (s.checkAdmission id now).2 := by
  obtain ⟨hquota, hs⟩ := h.getOrCreate id now
  rw [checkAdmission_eq (by rw [h.sameConfig, henabled])]
  refine hs.update (Finset.mem_insert_self id ids) ?_
  rw [quota_checkLimits, hquota]

theorem seen_perform {h : List TenantCall} (hs : Seen config (seen config.enabled h) s)
    (c : TenantCall) : Seen config (seen config.enabled (h ++ [c])) (s.perform c) := by
  rw [seen_snoc]
  cases c with
  | check id now =>
    cases henabled : config.enabled with
    | true =>
      rw [henabled] at hs
      exact seen_checkAdmission hs henabled id now
    | false =>
      have hsame : s.checkAdmission id now = (.admitted, s) := by
        unfold checkAdmission
        rw [hs.sameConfig, henabled]
        rfl
      show Seen config _ (s.checkAdmission id now).2
      rw [hsame]
      rw [henabled] at hs
      exact hs
  | start id now =>
    obtain ⟨hquota, hnew⟩ := hs.getOrCreate id now
    exact hnew.update (Finset.mem_insert_self id _) hquota
  | finish id =>
    show Seen config _ (s.recordRequestEnd id)
    unfold recordRequestEnd
    cases hb : s.buckets.lookup id with
    | some b =>
      have hid : id ∈ seen config.enabled h := by
        rw [← hs.keys, ← AList.lookup_isSome, hb]
        rfl
      exact hs.update hid (hs.quota id b hb)
    | none => exact hs
  | capacity total used => exact ⟨hs.sameConfig, hs.keys, hs.quota⟩

theorem seen_run (config : TenantConfig F) (order : MapOrder TenantId) (h : List TenantCall) :
    Seen config (seen config.enabled h) ((new config order).run h) := by
  induction h using List.reverseRecOn with
  | nil =>
    refine ⟨rfl, ?_, ?_⟩
    · intro id
      exact iff_of_false (AList.notMem_empty id) (Finset.notMem_empty id)
    · intro id b hb
      rw [show ((new config order).run []).buckets = ∅ from rfl, AList.lookup_empty] at hb
      exact absurd hb.symm (Option.some_ne_none b)
  | append_singleton h c ih =>
    unfold run at ih ⊢
    rw [List.foldl_append, List.foldl_cons, List.foldl_nil]
    exact seen_perform ih c

/-! ## The sum of the reserved fractions -/

/-- The limits in the buckets are the configured ones, in the order of the map. -/
theorem quotas_iterBuckets (h : Seen config ids s) :
    s.iterBuckets.map (·.quota) = (s.order.iter s.buckets.keys).map config.resolveQuota := by
  unfold iterBuckets
  rw [List.map_filterMap, ← List.filterMap_eq_map]
  refine List.filterMap_congr fun id hid => ?_
  rw [(s.order.perm _).mem_iff, ← AList.mem_keys, ← AList.lookup_isSome] at hid
  obtain ⟨b, hb⟩ := Option.isSome_iff_exists.1 hid
  rw [hb, Option.map_some, h.quota id b hb]
  rfl

/-- After any calls, the tenants that count are the one that is checked and those that have sent a
request, each once. -/
theorem tenants_run (config : TenantConfig F) (order : MapOrder TenantId) (h : List TenantCall)
    (id : TenantId) :
    (((new config order).run h).tenants id).Nodup ∧
      ∀ id', id' ∈ ((new config order).run h).tenants id ↔
        id' = id ∨ id' ∈ seen config.enabled h := by
  have hs := seen_run config order h
  generalize (new config order).run h = s at hs ⊢
  have hperm : (s.tenants id).Perm (id :: s.buckets.keys.erase id) := s.order.perm _
  constructor
  · rw [hperm.nodup_iff]
    exact List.nodup_cons.2 ⟨s.buckets.keys_nodup.not_mem_erase, s.buckets.keys_nodup.erase id⟩
  · intro id'
    rw [hperm.mem_iff, List.mem_cons, s.buckets.keys_nodup.mem_erase_iff, ← AList.mem_keys, hs.keys]
    by_cases hid : id' = id
    · exact iff_of_true (Or.inl hid) (Or.inl hid)
    · exact or_congr_right (and_iff_right hid)

/-! ## The decision on a normal tenant -/

/-- The backends are saturated. -/
def saturated (s : TenantScheduler F) : Bool :=
  Floating.le s.config.saturationThreshold (capacityUsed s.totalCapacity s.usedCapacity)

section

variable {s₁ s₂ : TenantScheduler F}

theorem rateLimited_of_checkLimits {b : TenantBucket F} {decision : AdmissionDecision}
    (h : (b.checkLimits now).1 = some decision) :
    ∃ retry reason, decision = .rateLimited retry reason := by
  unfold TenantBucket.checkLimits at h
  dsimp only at h
  split at h
  · exact ⟨_, _, (Option.some.inj h).symm⟩
  · split at h
    · exact ⟨_, _, (Option.some.inj h).symm⟩
    · exact absurd h.symm (Option.some_ne_none decision)

theorem checkLimits_of_not_rateLimited (henabled : s.config.enabled = true)
    (h : ∀ retry reason, (s.checkAdmission id now).1 ≠ .rateLimited retry reason) :
    ((s.getOrCreateBucket id now).1.checkLimits now).1 = none := by
  cases hrefusal : ((s.getOrCreateBucket id now).1.checkLimits now).1 with
  | none => rfl
  | some decision =>
    obtain ⟨retry, reason, hdecision⟩ := rateLimited_of_checkLimits hrefusal
    refine absurd ?_ (h retry reason)
    rw [checkAdmission_eq henabled, hrefusal]
    exact hdecision

theorem getOrCreateBucket_congr (hconfig : s₁.config = s₂.config)
    (h : s₁.buckets.lookup id = s₂.buckets.lookup id) :
    (s₁.getOrCreateBucket id now).1 = (s₂.getOrCreateBucket id now).1 := by
  unfold getOrCreateBucket
  rw [h, hconfig]
  cases s₂.buckets.lookup id with
  | some b => rfl
  | none => rfl

theorem capacity_getOrCreateBucket (s : TenantScheduler F) (id : TenantId) (now : Nat) :
    (s.getOrCreateBucket id now).2.totalCapacity = s.totalCapacity ∧
      (s.getOrCreateBucket id now).2.usedCapacity = s.usedCapacity := by
  unfold getOrCreateBucket
  cases s.buckets.lookup id with
  | some b => exact ⟨rfl, rfl⟩
  | none => exact ⟨rfl, rfl⟩

end

/-- After a check of `id`, the map has its bucket and those it had. -/
theorem keys_checkAdmission (henabled : s.config.enabled = true) :
    (s.checkAdmission id now).2.buckets.keys = id :: s.buckets.keys.erase id := by
  rw [checkAdmission_eq henabled]
  dsimp only
  rw [AList.keys_insert]
  unfold getOrCreateBucket
  cases s.buckets.lookup id with
  | some b => rfl
  | none =>
    dsimp only
    rw [AList.keys_insert, List.erase_cons_head]

theorem order_checkAdmission (henabled : s.config.enabled = true) :
    (s.checkAdmission id now).2.order = s.order := by
  rw [checkAdmission_eq henabled]
  unfold getOrCreateBucket
  cases s.buckets.lookup id with
  | some b => rfl
  | none => rfl

/-- The reservations that a check of `id` finds. -/
theorem totalReservedFraction_checkAdmission (h : Seen config ids s)
    (henabled : config.enabled = true) :
    (s.checkAdmission id now).2.totalReservedFraction =
      Floating.min (reservedSum ((s.tenants id).map config.resolveQuota)) (Floating.lit 9 1) := by
  have hconfig : s.config.enabled = true := by rw [h.sameConfig, henabled]
  unfold totalReservedFraction tenants
  rw [quotas_iterBuckets (seen_checkAdmission h henabled id now), keys_checkAdmission hconfig,
    order_checkAdmission hconfig]

/-- The decision on a normal tenant that is within its limits. -/
theorem checkAdmission_normal (h : Seen config ids s) (henabled : config.enabled = true)
    (hnormal : (config.resolveQuota id).priority = .normal)
    (hlimits : ((s.getOrCreateBucket id now).1.checkLimits now).1 = none) :
    (s.checkAdmission id now).1 =
      if s.saturated then
        if hasRoom config (s.tenants id) s.totalCapacity s.usedCapacity then .admitted
        else .queued
      else .admitted := by
  obtain ⟨hquota, hnew⟩ := h.getOrCreate id now
  obtain ⟨htotal, hused⟩ := capacity_getOrCreateBucket s id now
  have hreserved : (s.checkAdmission id now).2.totalReservedFraction = _ :=
    totalReservedFraction_checkAdmission h henabled
  have hconfig : s.config.enabled = true := by rw [h.sameConfig, henabled]
  rw [checkAdmission_eq hconfig] at hreserved ⊢
  rw [hlimits]
  dsimp only [Option.getD_none] at hreserved ⊢
  unfold saturationDecision TenantConfig.decidePriority
  rw [hreserved, hquota, hnormal]
  dsimp only
  rw [htotal, hused, hnew.sameConfig]
  unfold saturated
  rw [h.sameConfig]
  rfl

/-- For which two histories a normal tenant that is within its limits, with the same bucket and the
same capacity, gets the same decision: the backends are not saturated, or the capacity in use is on
the same side of what the tenants that have sent a request leave available. Their reservations are
added up in the order of the map, which may differ. -/
theorem decision_agrees_iff (config : TenantConfig F)
    (order₁ order₂ : MapOrder TenantId) (h₁ h₂ : List TenantCall) (id : TenantId) (now : Nat)
    (henabled : config.enabled = true) (hnormal : (config.resolveQuota id).priority = .normal) :
    let s₁ := (new config order₁).run h₁
    let s₂ := (new config order₂).run h₂
    s₁.buckets.lookup id = s₂.buckets.lookup id →
    s₁.totalCapacity = s₂.totalCapacity → s₁.usedCapacity = s₂.usedCapacity →
    (∀ retry reason, (s₁.checkAdmission id now).1 ≠ .rateLimited retry reason) →
    ((s₁.checkAdmission id now).1 = (s₂.checkAdmission id now).1 ↔
      s₁.saturated = false ∨
        hasRoom config (s₁.tenants id) s₁.totalCapacity s₁.usedCapacity =
          hasRoom config (s₂.tenants id) s₁.totalCapacity s₁.usedCapacity) := by
  intro s₁ s₂ hown htotal hused hlimits
  have hs₁ : Seen config _ s₁ := seen_run config order₁ h₁
  have hs₂ : Seen config _ s₂ := seen_run config order₂ h₂
  have hnone₁ := checkLimits_of_not_rateLimited (by rw [hs₁.sameConfig, henabled]) hlimits
  have hnone₂ : ((s₂.getOrCreateBucket id now).1.checkLimits now).1 = none := by
    rw [← getOrCreateBucket_congr (hs₁.sameConfig.trans hs₂.sameConfig.symm) hown]
    exact hnone₁
  have hsat : s₂.saturated = s₁.saturated := by
    unfold saturated
    rw [hs₁.sameConfig, hs₂.sameConfig, htotal, hused]
  rw [checkAdmission_normal hs₁ henabled hnormal hnone₁,
    checkAdmission_normal hs₂ henabled hnormal hnone₂, hsat, ← htotal, ← hused]
  generalize hasRoom config (s₁.tenants id) _ _ = room₁
  generalize hasRoom config (s₂.tenants id) _ _ = room₂
  cases s₁.saturated with
  | false => exact ⟨fun _ => Or.inl rfl, fun _ => rfl⟩
  | true =>
    -- two decisions of this kind are equal if the conditions are
    cases room₁ with
    | false =>
      cases room₂ with
      | false => exact ⟨fun _ => Or.inr rfl, fun _ => rfl⟩
      | true => exact ⟨nofun, nofun⟩
    | true =>
      cases room₂ with
      | false => exact ⟨nofun, nofun⟩
      | true => exact ⟨fun _ => Or.inr rfl, fun _ => rfl⟩

end Floats

/-- Two premium tenants, with three tenths and a twentieth of the capacity reserved. -/
def premiumConfig : TenantConfig ExtRat where
  enabled := true
  defaultMaxRps := none
  defaultMaxConcurrent := none
  saturationThreshold := .num (1 / 2)
  tenants := [⟨"gold", .premium, none, none, .num (3 / 10)⟩,
    ⟨"amber", .premium, none, none, .num (1 / 20)⟩]

/-- Both premium tenants have sent a request, one of them first or the other, and the maps are
iterated in opposite orders. -/
theorem decision_agrees_iff_reversed :
    (((new premiumConfig (.same _)).run
        [.capacity 100 80, .check ⟨"gold"⟩ 0, .start ⟨"amber"⟩ 0]).checkAdmission ⟨"silver"⟩ 0).1 =
      (((new premiumConfig ⟨List.reverse, List.reverse_perm⟩).run
        [.check ⟨"amber"⟩ 0, .capacity 100 80, .check ⟨"gold"⟩ 0]).checkAdmission
          ⟨"silver"⟩ 0).1 := by
  refine (decision_agrees_iff premiumConfig (.same _) ⟨List.reverse, List.reverse_perm⟩
    [.capacity 100 80, .check ⟨"gold"⟩ 0, .start ⟨"amber"⟩ 0]
    [.check ⟨"amber"⟩ 0, .capacity 100 80, .check ⟨"gold"⟩ 0] ⟨"silver"⟩ 0 rfl (by decide +kernel)
    (by decide +kernel) (by decide +kernel) (by decide +kernel) ?_).2 (Or.inr (by decide +kernel))
  have hqueued : (((new premiumConfig (.same _)).run
      [.capacity 100 80, .check ⟨"gold"⟩ 0, .start ⟨"amber"⟩ 0]).checkAdmission ⟨"silver"⟩ 0).1 =
        .queued := by decide +kernel
  intro retry reason
  rw [hqueued]
  exact nofun

/-- Four fifths are in use: the tenant is admitted while the premium tenants have been idle, and
queued once one has sent a request. -/
theorem idle_premium_unreserved :
    let s₁ := (new premiumConfig (.same _)).run [.capacity 100 80]
    let s₂ := (new premiumConfig (.same _)).run [.capacity 100 80, .check ⟨"gold"⟩ 0]
    (premiumConfig.resolveQuota ⟨"silver"⟩).priority = .normal ∧
      s₁.buckets.lookup ⟨"silver"⟩ = s₂.buckets.lookup ⟨"silver"⟩ ∧
      s₁.totalCapacity = s₂.totalCapacity ∧ s₁.usedCapacity = s₂.usedCapacity ∧
      (s₁.checkAdmission ⟨"silver"⟩ 0).1 = .admitted ∧
      (s₂.checkAdmission ⟨"silver"⟩ 0).1 = .queued := by
  decide +kernel

end TenantScheduler

end HierKvGateway
