import HierKvGateway.Lib.LastWrite
import HierKvGateway.Routing.CostScores
import Mathlib.Tactic.GCongr
import Mathlib.Tactic.Positivity

/-!
# Routing.CostAware — the cost-aware plugin

The plugin (`cost_aware.rs`) projects what a request will cost in dollars with each candidate, from
a table of prices per million tokens (`cost.rs`). What happens to a candidate without a price is
configured: it is excluded, or costs nothing.

`CostAwareStrategy.isCost_rawCost`: whatever the table says, the cost is not negative and not NaN;
`CostAwareStrategy.rawCost_mono`: where no price of one model is above that of another, the request
does not cost more with it.
-/

namespace HierKvGateway

/-- Floating-point numbers with a cast to 32 bits. -/
class Casting (F : Type) extends Floating F where
  /-- `x as u32`: without the fraction, and no lower or higher than a `u32` can be; 0 for NaN. -/
  toU32 : F → BitVec 32

instance : Casting ExtRat where
  toU32
    | .nan => 0
    | .negInf => 0
    | .num q => BitVec.ofNat 32 (min q.floor.toNat (2 ^ 32 - 1))
    | .posInf => BitVec.allOnes 32

/-! ## Prices -/

/-- The prices of a model, in dollars per million tokens. -/
structure ModelPrice (F : Type) where
  inputPer1m : F
  outputPer1m : F
deriving DecidableEq, Repr

/-- A price table with a projection. -/
structure CostModel (F : Type) where
  priceFor : String → Option (ModelPrice F)
  projectedCost : String → BitVec 32 → BitVec 32 → Option F

/-- A price in the configuration. -/
structure PriceEntry (F : Type) where
  model : String
  inputPer1m : F
  outputPer1m : F
deriving DecidableEq, Repr

/-- `PriceEntry::to_price`. -/
def PriceEntry.toPrice {F : Type} (e : PriceEntry F) : ModelPrice F := ⟨e.inputPer1m, e.outputPer1m⟩

/-- A fixed price table. -/
structure StaticCostModel (F : Type) where
  prices : String → Option (ModelPrice F)

/-- The configuration of the plugin. -/
structure CostConfig (F : Type) where
  enabled : Bool
  prices : List (PriceEntry F)
  weight : F
  outputCostScale : F
  excludeOnUnknownPrice : Bool

section Prices

variable {F : Type} [Floating F]

/-- `ModelPrice::FREE`. -/
def ModelPrice.free : ModelPrice F := ⟨Floating.ofNat 0, Floating.ofNat 0⟩

/-- The projection of the trait: the tokens at their prices. -/
def CostModel.ofPrices (priceFor : String → Option (ModelPrice F)) : CostModel F where
  priceFor := priceFor
  projectedCost model promptTokens estOutputTokens :=
    (priceFor model).map fun p =>
      let cIn := Floating.ofNat promptTokens.toNat / Floating.ofNat 1000000 * p.inputPer1m
      let cOut := Floating.ofNat estOutputTokens.toNat / Floating.ofNat 1000000 * p.outputPer1m
      cIn + cOut

omit [Floating F] in
/-- `StaticCostModel::from_entries`: of two entries for a model, the later one. -/
def StaticCostModel.fromEntries (entries : List (PriceEntry F)) : StaticCostModel F where
  prices := LastWrite.apply (fun _ => none) (entries.map fun e => (e.model, e.toPrice))

/-- A fixed table as a cost model. -/
def StaticCostModel.costModel (m : StaticCostModel F) : CostModel F := .ofPrices m.prices

/-- `CostConfig::default`. -/
def CostConfig.default : CostConfig F where
  enabled := false
  prices := []
  weight := Floating.lit 15 2
  outputCostScale := Floating.ofNat 1
  excludeOnUnknownPrice := false

omit [Floating F] in
/-- `CostConfig::build_model`. -/
def CostConfig.buildModel (cfg : CostConfig F) : StaticCostModel F := .fromEntries cfg.prices

end Prices

/-- The prices are numbers that are not negative. -/
structure ModelPrice.Exact (p : ModelPrice ExtRat) : Prop where
  input : p.inputPer1m.NonNegative
  output : p.outputPer1m.NonNegative

/-- No price is above the other model's. -/
def ModelPrice.NotAbove (p p' : ModelPrice ExtRat) : Prop :=
  Floating.le p.inputPer1m p'.inputPer1m = true ∧ Floating.le p.outputPer1m p'.outputPer1m = true

/-! ## The strategy -/

/-- The cost-aware strategy. -/
structure CostAwareStrategy (F : Type) where
  model : CostModel F
  cfg : CostConfig F

namespace CostAwareStrategy

section Score

variable {F σ : Type} [Casting F]

/-- `SCORE_COST_SCALE`. -/
def scoreCostScale : F := Floating.ofNat 1000000

/-- The output tokens that are paid for. -/
def estOut (c : CostAwareStrategy F) (ctx : RoutingContext) : BitVec 32 :=
  Casting.toU32 (Floating.ofNat ctx.estimatedOutputTokens.toNat * c.cfg.outputCostScale)

/-- `resolve_served_model` and `estimate_prompt_tokens` are those of the KV-capacity strategy. -/
def projected (c : CostAwareStrategy F) (ctx : RoutingContext) (store : MetadataStore F)
    (cand : BackendId) : Option F :=
  (KvCapacityStrategy.resolveServedModel cand ctx.modelName store).bind fun servedModel =>
    c.model.projectedCost servedModel (KvCapacityStrategy.estimatePromptTokens ctx) (c.estOut ctx)

/-- The score of a candidate. -/
def scoreOf (c : CostAwareStrategy F) (ctx : RoutingContext) (store : MetadataStore F)
    (cand : BackendId) : ScoredBackend F :=
  match c.projected ctx store cand with
  | some cost =>
    let cost := Floating.max cost (Floating.ofNat 0)
    ⟨cand, Floating.ofNat 1 / (Floating.ofNat 1 + cost * scoreCostScale), cost, 0⟩
  | none =>
    -- no models, or no price
    if c.cfg.excludeOnUnknownPrice then ⟨cand, Floating.ofNat 0, Floating.infinity, 0⟩
    else ⟨cand, Floating.ofNat 1, Floating.ofNat 0, 0⟩

/-- `CostAwareStrategy` as a strategy. -/
def strategy (c : CostAwareStrategy F) : RoutingStrategy F σ where
  name := "cost_aware"
  evaluate ctx candidates store s := (.ok (candidates.map (c.scoreOf ctx store)), s)
  isAvailable _ := true
  weight := c.cfg.weight

theorem backendId_scoreOf (c : CostAwareStrategy F) (ctx : RoutingContext) (store : MetadataStore F)
    (cand : BackendId) : (c.scoreOf ctx store cand).backendId = cand := by
  unfold scoreOf
  split
  · rfl
  · split
    · rfl
    · rfl

end Score

variable {c : CostAwareStrategy ExtRat} {ctx : RoutingContext} {store : MetadataStore ExtRat}

/-- The cost is a number that is not negative, or infinite. -/
theorem isCost_rawCost (c : CostAwareStrategy ExtRat) (ctx : RoutingContext)
    (store : MetadataStore ExtRat) (cand : BackendId) :
    (c.scoreOf ctx store cand).rawCost.IsCost := by
  unfold scoreOf
  split
  · exact ExtRat.isCost_max_zero _
  · split
    · exact Or.inl rfl
    · exact Or.inr ⟨0, le_rfl, (ExtRat.ofNat_eq 0).trans (congrArg _ Nat.cast_zero)⟩

/-- The score of a candidate with a price is between 0 and 1, and falls with the cost. -/
theorem isRate_score (c : CostAwareStrategy ExtRat) (ctx : RoutingContext)
    (store : MetadataStore ExtRat) (cand : BackendId) :
    (c.scoreOf ctx store cand).score.IsRate := by
  unfold scoreOf
  split
  · rename_i cost _
    have hscale : (scoreCostScale : ExtRat) = .num 1000000 := ExtRat.ofNat_eq 1000000
    have hcost := ExtRat.isCost_max_zero cost
    dsimp only
    rw [hscale]
    have hcomm : ∀ x : ExtRat, x.IsCost → x * .num 1000000 = .num 1000000 * x := by
      rintro x (rfl | ⟨q, -, rfl⟩)
      · rfl
      · rw [ExtRat.num_mul, ExtRat.num_mul, mul_comm]
    rw [hcomm _ hcost]
    exact (hcost.mul (by norm_num)).isRate_reciprocal
  · split
    · exact ExtRat.isRate_zero
    · exact ExtRat.isRate_one

/-- What is projected for a candidate whose model has a price. -/
theorem rawCost_of_price {priceFor : String → Option (ModelPrice ExtRat)}
    (hmodel : c.model = .ofPrices priceFor) {cand : BackendId} {p : ModelPrice ExtRat}
    (hp : (KvCapacityStrategy.resolveServedModel cand ctx.modelName store).bind priceFor = some p)
    {input output : Rat} (hinput : p.inputPer1m = .num input) (houtput : p.outputPer1m = .num output)
    (hinput0 : 0 ≤ input) (houtput0 : 0 ≤ output) :
    (c.scoreOf ctx store cand).rawCost =
      .num ((KvCapacityStrategy.estimatePromptTokens ctx).toNat / 1000000 * input +
        (c.estOut ctx).toNat / 1000000 * output) := by
  have hmillion : (1000000 : Rat) ≠ 0 := by norm_num
  have hprojected : c.projected ctx store cand =
      some (.num ((KvCapacityStrategy.estimatePromptTokens ctx).toNat / 1000000 * input +
        (c.estOut ctx).toNat / 1000000 * output)) := by
    rcases Option.bind_eq_some_iff.1 hp with ⟨served, hserved, hprice⟩
    unfold projected
    rw [hserved, hmodel]
    unfold CostModel.ofPrices
    simp only [Option.bind_some, hprice, Option.map_some, hinput, houtput, ExtRat.ofNat_eq,
      Nat.cast_ofNat, ExtRat.num_div _ _ hmillion, ExtRat.num_mul, ExtRat.num_add]
  unfold scoreOf
  rw [hprojected]
  dsimp only
  rw [ExtRat.ofNat_eq, ExtRat.max_num, Nat.cast_zero, max_eq_left]
  positivity

/-- Where no price of one model is above that of another, the request does not cost more with
it. -/
theorem rawCost_mono {priceFor : String → Option (ModelPrice ExtRat)}
    (hmodel : c.model = .ofPrices priceFor) {x y : BackendId} {p p' : ModelPrice ExtRat}
    (hx : (KvCapacityStrategy.resolveServedModel x ctx.modelName store).bind priceFor = some p)
    (hy : (KvCapacityStrategy.resolveServedModel y ctx.modelName store).bind priceFor = some p')
    (hp : p.Exact) (hp' : p'.Exact) (h : p.NotAbove p') :
    Floating.le (c.scoreOf ctx store x).rawCost (c.scoreOf ctx store y).rawCost = true := by
  rcases hp with ⟨⟨input, hinput0, hinput⟩, ⟨output, houtput0, houtput⟩⟩
  rcases hp' with ⟨⟨input', hinput0', hinput'⟩, ⟨output', houtput0', houtput'⟩⟩
  rcases h with ⟨hle, hle'⟩
  rw [hinput, hinput', ExtRat.le_num, decide_eq_true_eq] at hle
  rw [houtput, houtput', ExtRat.le_num, decide_eq_true_eq] at hle'
  rw [rawCost_of_price hmodel hx hinput houtput hinput0 houtput0,
    rawCost_of_price hmodel hy hinput' houtput' hinput0' houtput0', ExtRat.le_num,
    decide_eq_true_eq]
  gcongr

end CostAwareStrategy

end HierKvGateway
