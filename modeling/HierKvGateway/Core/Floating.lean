import Mathlib.Init

/-!
# Core.Floating — floating-point numbers

Scores, costs and weights are `f64` in the source. The model takes the operations the
program uses as a class, so that a result holds for the IEEE operations and for exact ones alike.
-/

namespace HierKvGateway

/-- What the program asks of a floating-point type. -/
class Floating (F : Type) extends Add F, Sub F, Mul F, Div F, Neg F where
  /-- The literal `m / 10 ^ k`; `as f64` of a natural number for `k = 0`. -/
  lit : Nat → Nat → F
  /-- `f64::partial_cmp`: `none` if a number is NaN. -/
  partialCmp : F → F → Option Ordering
  isFinite : F → Bool
  infinity : F
  /-- `f64::MAX`. -/
  maxValue : F
  exp : F → F

namespace Floating

variable {F : Type} [Floating F]

/-- The literal of a natural number. -/
def ofNat (n : Nat) : F := lit n 0

/-- `a < b`. -/
def lt (a b : F) : Bool := partialCmp a b == some .lt

/-- `a <= b`. -/
def le (a b : F) : Bool := partialCmp a b == some .lt || partialCmp a b == some .eq

/-- `f64::max`: of a NaN and a number, the number. -/
def max (a b : F) : F := if le a b then b else if (partialCmp a a).isNone then b else a

/-- `f64::min`: of a NaN and a number, the number. -/
def min (a b : F) : F :=
  if le a b then a else if (partialCmp a a).isNone then b else if (partialCmp b b).isNone then a
  else b

/-- `f64::clamp`. -/
def clamp (x lo hi : F) : F :=
  let x := if lt x lo then lo else x
  if lt hi x then hi else x

/-- `f64::EPSILON`. -/
def epsilon : F := lit 2220446049250313080847263336181640625 52

/-- The sum of numbers, in order. -/
def sum (l : List F) : F := l.foldl (· + ·) (ofNat 0)

/-- `partial_cmp(..).unwrap_or(Equal)`. -/
def cmp (a b : F) : Ordering := (partialCmp a b).getD .eq

end Floating

/-- What the program asks of a floating-point type to tell a number to a client. -/
class Rounding (F : Type) extends Floating F where
  /-- `x.ceil() as u64`. -/
  ceilU64 : F → BitVec 64
  /-- `format!("{:.0}", x)`. -/
  displayRounded : F → String

end HierKvGateway
