import HierKvGateway.Core.ExtRat
import HierKvGateway.Metadata.Store

/-!
# Routing.Adaptive — the weight controller

The controller (`adaptive.rs`) averages the outcomes of forwards and the KV hits, and recomputes the
weights of the hybrid strategy from them: failures and uneven load raise the weight of load, KV hits
that of the KV cache. The weights are shares of one, with a floor.

The square root in the load spread is a parameter.
-/

namespace HierKvGateway

/-- `AdaptiveConfig`, as the controller reads it. -/
structure AdaptiveConfig (F : Type) where
  emaAlpha : F
  maxAdjustment : F
  minWeight : F
  adjustIntervalSecs : Nat
deriving DecidableEq, Repr

/-- The weights, with that of the cost strategy. -/
structure AdaptiveWeights (F : Type) where
  kv : F
  load : F
  topology : F
  cost : F
deriving DecidableEq, Repr

/-- The averages of the forwards to a backend. -/
structure OutcomeStats (F : Type) where
  emaSuccess : F
  emaLatencyMs : F
  /-- How many forwards there were; it wraps. -/
  samples : BitVec 64
deriving DecidableEq, Repr

/-- `AdaptiveWeightController`. -/
structure AdaptiveWeightController (F : Type) where
  base : AdaptiveWeights F
  cfg : AdaptiveConfig F
  outcomes : AList fun _ : BackendId => OutcomeStats F
  kvHitEma : Option F
  lastAdjust : Nat
  current : AdaptiveWeights F

variable {F : Type} [Floating F]

namespace OutcomeStats

/-- `OutcomeStats::default`. -/
def default : OutcomeStats F := ⟨Floating.ofNat 1, Floating.ofNat 0, 0⟩

/-- The next average: the first sample itself, then blended. -/
def ema (prev value alpha : F) (samples : BitVec 64) : F :=
  if samples = 0 then value else prev + alpha * (value - prev)

/-- `Duration::as_secs_f64`, in milliseconds. -/
def latencyMs (d : Duration) : F :=
  (Floating.ofNat d.secs + Floating.ofNat d.subsecNanos / Floating.ofNat (10 ^ 9)) *
    Floating.ofNat 1000

/-- After a forward that succeeded. -/
def success (alpha : F) (latency : Duration) (s : OutcomeStats F) : OutcomeStats F where
  emaSuccess := ema s.emaSuccess (Floating.ofNat 1) alpha s.samples
  emaLatencyMs := ema s.emaLatencyMs (latencyMs latency) alpha s.samples
  samples := s.samples + 1

/-- After a forward that failed. -/
def failure (alpha : F) (s : OutcomeStats F) : OutcomeStats F where
  emaSuccess := ema s.emaSuccess (Floating.ofNat 0) alpha s.samples
  emaLatencyMs := s.emaLatencyMs
  samples := s.samples + 1

end OutcomeStats

namespace AdaptiveWeightController

/-! ## Recording -/

/-- `AdaptiveWeightController::new`. -/
def new (base : AdaptiveWeights F) (cfg : AdaptiveConfig F) (now : Nat) :
    AdaptiveWeightController F where
  base := base
  cfg := cfg
  outcomes := ∅
  kvHitEma := none
  lastAdjust := now
  current := base

/-- The factor of the averages. -/
def alpha (ctl : AdaptiveWeightController F) : F :=
  Floating.clamp ctl.cfg.emaAlpha Floating.epsilon (Floating.ofNat 1)

/-- `outcome_stats`. -/
def outcomeStats (backend : BackendId) (ctl : AdaptiveWeightController F) :
    Option (OutcomeStats F) := ctl.outcomes.lookup backend

/-- Update the averages of a backend; they are created with the first outcome. -/
def recordOutcome (next : OutcomeStats F → OutcomeStats F) (backend : BackendId)
    (ctl : AdaptiveWeightController F) : AdaptiveWeightController F :=
  { ctl with
    outcomes := ctl.outcomes.insert backend
      (next ((ctl.outcomes.lookup backend).getD .default)) }

/-- `record_success`. -/
def recordSuccess (backend : BackendId) (latency : Duration) (ctl : AdaptiveWeightController F) :
    AdaptiveWeightController F := ctl.recordOutcome (.success ctl.alpha latency) backend

/-- `record_failure`. -/
def recordFailure (backend : BackendId) (ctl : AdaptiveWeightController F) :
    AdaptiveWeightController F := ctl.recordOutcome (.failure ctl.alpha) backend

/-- `record_kv_overlap`. -/
def recordKvOverlap (overlap promptBlocks : BitVec 32) (ctl : AdaptiveWeightController F) :
    AdaptiveWeightController F :=
  if promptBlocks = 0 then ctl
  else
    let ratio := Floating.clamp
      (Floating.ofNat overlap.toNat / Floating.ofNat promptBlocks.toNat)
      (Floating.ofNat 0) (Floating.ofNat 1)
    { ctl with
      kvHitEma := some <| match ctl.kvHitEma with
        | some prev => prev + ctl.alpha * (ratio - prev)
        | none => ratio }

/-! ## Shares of one, with a floor -/

/-- An element that is not clamped gets its part of the budget. -/
def rescale (restSum budget nRest v : F) : F :=
  if Floating.lt (Floating.ofNat 0) restSum then v / restSum * budget
  else budget / Floating.max nRest (Floating.ofNat 1)

/-- A round of `normalize_with_floor`: the elements with their `clamped` flags, and whether one was
newly clamped. -/
def normalizeRound (floor : F) (w : List (F × Bool)) : List (F × Bool) × Bool :=
  let fixed := Floating.sum ((w.filter fun p => p.2).map (·.1))
  let restSum := Floating.sum ((w.filter fun p => !p.2).map (·.1))
  let budget := Floating.ofNat 1 - fixed
  let nRest : F := Floating.ofNat (w.countP fun p => !p.2)
  let share := rescale restSum budget nRest
  let next (p : F × Bool) :=
    if p.2 then p
    else if Floating.lt (share p.1) floor then (floor, true)
    else (share p.1, false)
  (w.map next, w.any fun p => !p.2 && Floating.lt (share p.1) floor)

/-- The loop, for so many rounds at most. -/
def normalizeLoop (floor : F) : Nat → List (F × Bool) → Option (List (F × Bool))
  | 0, _ => none
  | n + 1, w =>
    let (w, newlyClamped) := normalizeRound floor w
    if newlyClamped then normalizeLoop floor n w else some w

/-- `normalize_with_floor`. More rounds than there are elements, and one, are never needed. -/
def normalizeWithFloor (w : List F) (floor : F) : Option (List F) :=
  (normalizeLoop floor (w.length + 1) (w.map fun v => (v, false))).map fun w => w.map (·.1)

/-! ## Recomputing the weights -/

/-- How far the worst success rate is from 1. -/
def failurePressure (ctl : AdaptiveWeightController F) : F :=
  let rates := (ctl.outcomes.entries.filter fun e => e.2.samples ≠ 0).map fun e => e.2.emaSuccess
  let worst := rates.foldl (fun acc s => some (match acc with
    | some m => Floating.min m s
    | none => s)) none
  match worst with
  | some minSuccess =>
    Floating.clamp (Floating.ofNat 1 - minSuccess) (Floating.ofNat 0) (Floating.ofNat 1)
  | none => Floating.ofNat 0

/-- The coefficient of variation of the active requests (`load_spread`). -/
def loadSpread (sqrt : F → F) (store : MetadataStore F) : F :=
  let values : List F := store.backendsAll.filterMap fun b =>
    (store.loadGetMetrics b.id).map fun m => Floating.ofNat m.activeRequests.toNat
  if values.length < 2 then Floating.ofNat 0
  else
    let n := Floating.ofNat values.length
    let mean := Floating.sum values / n
    if Floating.le mean (Floating.ofNat 0) then Floating.ofNat 0
    else sqrt (Floating.sum (values.map fun v => (v - mean) * (v - mean)) / n) / mean

/-- How much the weight of the KV cache is raised: by hits above one half. -/
def kvBoost (maxAdj : F) (ctl : AdaptiveWeightController F) : F :=
  match ctl.kvHitEma with
  | some r =>
    Floating.clamp ((r - Floating.lit 5 1) * Floating.ofNat 2) (Floating.ofNat 0)
      (Floating.ofNat 1) * maxAdj
  | none => Floating.ofNat 0

/-- How much the weight of load is raised: by the greater of failures and uneven load. -/
def loadBoost (sqrt : F → F) (store : MetadataStore F) (maxAdj : F)
    (ctl : AdaptiveWeightController F) : F :=
  Floating.clamp (Floating.max ctl.failurePressure (loadSpread sqrt store)) (Floating.ofNat 0)
    (Floating.ofNat 1) * maxAdj

/-- `compute`. -/
def compute (sqrt : F → F) (store : MetadataStore F) (ctl : AdaptiveWeightController F) :
    AdaptiveWeights F :=
  let maxAdj := Floating.max ctl.cfg.maxAdjustment (Floating.ofNat 0)
  let wKv := ctl.base.kv * (Floating.ofNat 1 + ctl.kvBoost maxAdj)
  let wLoad := ctl.base.load * (Floating.ofNat 1 + ctl.loadBoost sqrt store maxAdj)
  let wTopo := ctl.base.topology
  let wCost := ctl.base.cost
  let sum := wKv + wLoad + wTopo + wCost
  if Floating.le sum (Floating.ofNat 0) then ctl.base
  else
    let floor := Floating.clamp ctl.cfg.minWeight (Floating.ofNat 0)
      (Floating.ofNat 1 / Floating.ofNat 4)
    match normalizeWithFloor [wKv / sum, wLoad / sum, wTopo / sum, wCost / sum] floor with
    | some [kv, load, topology, cost] => ⟨kv, load, topology, cost⟩
    -- the loop ends, with as many elements
    | _ => ctl.base

/-- Recompute the weights if the interval, in whole seconds, is over. -/
def adjust (sqrt : F → F) (store : MetadataStore F) (now : Nat)
    (ctl : AdaptiveWeightController F) : AdaptiveWeightController F :=
  if (now - ctl.lastAdjust) / 10 ^ 9 < ctl.cfg.adjustIntervalSecs then ctl
  else { ctl with lastAdjust := now, current := ctl.compute sqrt store }

/-- `effective_weights`, at an instant. -/
def effectiveWeights (sqrt : F → F) (store : MetadataStore F) (now : Nat)
    (ctl : AdaptiveWeightController F) : AdaptiveWeights F × AdaptiveWeightController F :=
  let ctl := ctl.adjust sqrt store now
  (ctl.current, ctl)

end AdaptiveWeightController

end HierKvGateway
