import HierKvGateway.Core.ExtRat
import HierKvGateway.Lib.Bucket

/-!
# Routing.TokenBucket — the rate limit of a tenant

A token bucket for each tenant (`tenant_scheduler.rs`). Instants are nanoseconds; a request may come
to the bucket with an instant that another request has overtaken.

With exact numbers it is a `Bucket` in which time is counted in seconds (`exact_run`), so the
bound of the library holds for it (`TokenBucket.bounded`).
-/

namespace HierKvGateway

/-- A token bucket. -/
structure TokenBucket (F : Type) where
  rate : F
  maxBurst : F
  tokens : F
  lastRefill : Nat
deriving DecidableEq, Repr

namespace TokenBucket

section Model

variable {F : Type} [Floating F]

/-- The seconds between two instants; none if the second is the earlier. -/
def elapsedSecs (last now : Nat) : F :=
  Floating.ofNat ((now - last) / 10 ^ 9) +
    Floating.ofNat ((now - last) % 10 ^ 9) / Floating.ofNat (10 ^ 9)

/-- `TokenBucket::new`, at an instant. -/
def new (rate : F) (maxBurst : Option F) (now : Nat) : TokenBucket F :=
  let burst := maxBurst.getD (Floating.max rate (Floating.ofNat 1))
  ⟨rate, burst, burst, now⟩

/-- `TokenBucket::refill`. -/
def refill (now : Nat) (b : TokenBucket F) : TokenBucket F :=
  let elapsed := elapsedSecs b.lastRefill now
  if Floating.lt (Floating.ofNat 0) elapsed then
    { b with tokens := Floating.min (b.tokens + elapsed * b.rate) b.maxBurst, lastRefill := now }
  else b

/-- `TokenBucket::try_consume`. -/
def tryConsume (n : F) (now : Nat) (b : TokenBucket F) : Bool × TokenBucket F :=
  let b := b.refill now
  if Floating.le n b.tokens then (true, { b with tokens := b.tokens - n }) else (false, b)

/-- `TokenBucket::time_until_available`, in seconds. -/
def timeUntilAvailable (n : F) (b : TokenBucket F) : F :=
  if Floating.le n b.tokens then Floating.ofNat 0
  else (n - b.tokens) / Floating.max b.rate (Floating.lit 1 9)

/-- The bucket after trying to consume one token at each of the times. -/
def run (times : List Nat) (b : TokenBucket F) : TokenBucket F :=
  times.foldl (fun b now => (b.tryConsume (Floating.ofNat 1) now).2) b

/-- How many of these tries succeed. -/
def successes : List Nat → TokenBucket F → Nat
  | [], _ => 0
  | now :: times, b =>
    (if (b.tryConsume (Floating.ofNat 1) now).1 then 1 else 0) +
      successes times (b.tryConsume (Floating.ofNat 1) now).2

end Model

/-! ## Exact numbers -/

/-- An instant in seconds. -/
def seconds (now : Nat) : Rat := now / 10 ^ 9

/-- The bucket has exact numbers, and is the bucket `x` of the library. -/
structure Exact (rate burst : Rat) (b : TokenBucket ExtRat) (x : Bucket Rat) : Prop where
  rate : b.rate = .num rate
  maxBurst : b.maxBurst = .num burst
  tokens : b.tokens = .num x.tokens
  last : x.last = seconds b.lastRefill

variable {rate burst : Rat} {b : TokenBucket ExtRat} {x : Bucket Rat}

theorem seconds_lt_iff {last now : Nat} : seconds last < seconds now ↔ last < now := by
  unfold seconds
  rw [div_lt_div_iff_of_pos_right (by norm_num), Nat.cast_lt]

theorem max_seconds (last now : Nat) :
    max (seconds last) (seconds now) = seconds (max last now) := by
  rcases Nat.lt_or_ge last now with h | h
  · rw [max_eq_right (seconds_lt_iff.2 h).le, Nat.max_eq_right h.le]
  · rw [max_eq_left (not_lt.1 fun hlt => absurd (seconds_lt_iff.1 hlt) (Nat.not_lt.2 h)),
      Nat.max_eq_left h]

theorem elapsedSecs_eq (last now : Nat) :
    (elapsedSecs last now : ExtRat) = .num (((now - last : Nat) : Rat) / 10 ^ 9) := by
  unfold elapsedSecs
  rw [ExtRat.ofNat_eq, ExtRat.ofNat_eq, ExtRat.ofNat_eq, ExtRat.num_div _ _ (by norm_num),
    ExtRat.num_add]
  congr 1
  have hsplit : ((now - last : Nat) : Rat) =
      10 ^ 9 * ((now - last) / 10 ^ 9 : Nat) + ((now - last) % 10 ^ 9 : Nat) := by
    exact_mod_cast (Nat.div_add_mod (now - last) (10 ^ 9)).symm
  rw [hsplit]
  push_cast
  ring

theorem exact_refill (h : Exact rate burst b x) (now : Nat) :
    Exact rate burst (b.refill now) (x.refill rate burst (seconds now)) := by
  have helapsed := elapsedSecs_eq b.lastRefill now
  unfold refill Bucket.refill
  dsimp only
  rw [helapsed, ExtRat.ofNat_eq, ExtRat.lt_num, h.last]
  by_cases hlt : b.lastRefill < now
  · have hpos : ((0 : Nat) : Rat) < ((now - b.lastRefill : Nat) : Rat) / 10 ^ 9 := by
      have : (0 : Rat) < ((now - b.lastRefill : Nat) : Rat) := by
        exact_mod_cast Nat.sub_pos_of_lt hlt
      rw [Nat.cast_zero]
      positivity
    have hsub : ((now - b.lastRefill : Nat) : Rat) / 10 ^ 9 =
        seconds now - seconds b.lastRefill := by
      unfold seconds
      rw [Nat.cast_sub hlt.le]
      ring
    rw [if_pos (decide_eq_true hpos), if_pos (seconds_lt_iff.2 hlt)]
    refine ⟨h.rate, h.maxBurst, ?_, rfl⟩
    show Floating.min (b.tokens + _ * b.rate) b.maxBurst = _
    rw [h.tokens, h.rate, h.maxBurst, ExtRat.num_mul, ExtRat.num_add, ExtRat.min_num, hsub]
  · have hzero : now - b.lastRefill = 0 := Nat.sub_eq_zero_of_le (Nat.not_lt.1 hlt)
    rw [hzero, Nat.cast_zero, zero_div, if_neg (by simp), if_neg (mt seconds_lt_iff.1 hlt)]
    exact h

/-- Consuming a token is taking one out. -/
theorem exact_tryConsume (h : Exact rate burst b x) (now : Nat) :
    (b.tryConsume (Floating.ofNat 1) now).1 = (x.take rate burst 1 (seconds now)).1 ∧
      Exact rate burst (b.tryConsume (Floating.ofNat 1) now).2
        (x.take rate burst 1 (seconds now)).2 := by
  have hrefill := exact_refill h now
  unfold tryConsume Bucket.take
  dsimp only
  rw [hrefill.tokens, ExtRat.ofNat_eq, ExtRat.le_num, Nat.cast_one]
  by_cases hle : 1 ≤ (x.refill rate burst (seconds now)).tokens
  · rw [if_pos (decide_eq_true hle), if_pos hle]
    exact ⟨rfl, hrefill.rate, hrefill.maxBurst, ExtRat.num_sub _ _, hrefill.last⟩
  · rw [if_neg (by rw [decide_eq_false hle]; exact Bool.false_ne_true), if_neg hle]
    exact ⟨rfl, hrefill⟩

theorem exact_run (h : Exact rate burst b x) (times : List Nat) :
    Exact rate burst (b.run times) (x.after rate burst 1 (times.map seconds)) := by
  induction times generalizing b x with
  | nil => exact h
  | cons now times ih => exact ih (exact_tryConsume h now).2

theorem exact_successes (h : Exact rate burst b x) (times : List Nat) :
    b.successes times = x.granted rate burst 1 (times.map seconds) := by
  induction times generalizing b x with
  | nil => rfl
  | cons now times ih =>
    obtain ⟨hok, hnext⟩ := exact_tryConsume h now
    rw [List.map_cons, successes, Bucket.granted, hok, ih hnext]

/-- The burst of a bucket: the rate, but at least one token, if none is given. -/
def burstOf (rate : Rat) (maxBurst : Option Rat) : Rat := maxBurst.getD (max rate 1)

/-- A new bucket with exact numbers. -/
def newExact (rate : Rat) (maxBurst : Option Rat) (created : Nat) : TokenBucket ExtRat :=
  new (.num rate) (maxBurst.map .num) created

theorem exact_new (rate : Rat) (maxBurst : Option Rat) (created : Nat) :
    Exact rate (burstOf rate maxBurst) (newExact rate maxBurst created)
      ⟨burstOf rate maxBurst, seconds created⟩ := by
  have hburst : (maxBurst.map ExtRat.num).getD (Floating.max (.num rate) (Floating.ofNat 1)) =
      .num (burstOf rate maxBurst) := by
    cases maxBurst with
    | none =>
      show Floating.max (ExtRat.num rate) (Floating.ofNat 1) = .num (max rate 1)
      rw [ExtRat.ofNat_eq, ExtRat.max_num, Nat.cast_one]
    | some burst => rfl
  exact ⟨rfl, hburst, hburst, rfl⟩

theorem burstOf_nonneg {rate : Rat} {maxBurst : Option Rat} (hrate : 0 ≤ rate)
    (hburst : ∀ burst ∈ maxBurst, 0 ≤ burst) : 0 ≤ burstOf rate maxBurst := by
  cases maxBurst with
  | none => exact hrate.trans (le_max_left rate 1)
  | some burst => exact hburst burst rfl

theorem foldl_max_seconds (times : List Nat) (last : Nat) :
    (times.map seconds).foldl max (seconds last) = seconds (times.foldl max last) := by
  induction times generalizing last with
  | nil => rfl
  | cons now times ih => rw [List.map_cons, List.foldl_cons, List.foldl_cons, max_seconds, ih]

/-- Whatever the times of the calls, the tokens stay between none and the burst, and any calls in
a row are granted at most the burst and what comes in at the rate while the latest time grows. -/
theorem bounded (rate : Rat) (maxBurst : Option Rat) (created : Nat) (before during : List Nat)
    (hrate : 0 ≤ rate) (hburst : ∀ burst ∈ maxBurst, 0 ≤ burst) :
    (∃ tokens : Rat, ((newExact rate maxBurst created).run before).tokens = .num tokens ∧
      0 ≤ tokens ∧ tokens ≤ burstOf rate maxBurst) ∧
    ((newExact rate maxBurst created).run before).maxBurst = .num (burstOf rate maxBurst) ∧
    (((newExact rate maxBurst created).run before).successes during : Rat) ≤
      burstOf rate maxBurst +
        rate * (seconds ((before ++ during).foldl max created) -
          seconds (before.foldl max created)) := by
  let x : Bucket Rat := Bucket.after rate (burstOf rate maxBurst) 1 (before.map seconds)
    ⟨burstOf rate maxBurst, seconds created⟩
  have hexact :
      Exact rate (burstOf rate maxBurst) ((newExact rate maxBurst created).run before) x :=
    exact_run (exact_new rate maxBurst created) before
  have hwithin : x.Within (burstOf rate maxBurst) :=
    Bucket.within_after hrate zero_le_one _ ⟨burstOf_nonneg hrate hburst, le_rfl⟩
  have hend := Bucket.within_after (n := 1) hrate zero_le_one (during.map seconds) hwithin
  have hgranted := Bucket.granted_mul_add_le rate (burstOf rate maxBurst) 1 (during.map seconds) x
  -- the times of the library's bucket are the latest instants
  have hlast : x.last = seconds (before.foldl max created) := by
    show (Bucket.after rate (burstOf rate maxBurst) 1 (before.map seconds)
      ⟨_, seconds created⟩).last = _
    rw [Bucket.last_after, foldl_max_seconds]
  have hlast' : (x.after rate (burstOf rate maxBurst) 1 (during.map seconds)).last =
      seconds ((before ++ during).foldl max created) := by
    rw [Bucket.last_after, hlast, foldl_max_seconds, List.foldl_append]
  rw [hlast, hlast', mul_one] at hgranted
  refine ⟨⟨x.tokens, hexact.tokens, hwithin⟩, hexact.maxBurst, ?_⟩
  rw [exact_successes hexact]
  have hle := hwithin.2
  have hpos := hend.1
  linarith

/-- Two tokens a second: of four calls in one second, the last with an instant that has been
overtaken, at most four are granted. -/
theorem bounded_four :
    (((newExact 2 none 0).run []).successes [0, 0, 1000000000, 500000000] : Rat) ≤
      burstOf 2 none + 2 * (seconds 1000000000 - seconds 0) :=
  (bounded 2 none 0 [] [0, 0, 1000000000, 500000000] (by norm_num) nofun).2.2

end TokenBucket

end HierKvGateway
