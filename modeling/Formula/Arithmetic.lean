import Formula.Operation
import Formula.Number

/-!
What formulas need of a number system, and the rule of each operation in it. The doubles are one
such system; the rules are written once for all of them.
-/

namespace Formula

/-- A number system that formulas have values in. -/
structure Arithmetic (α : Type) where
  ofFloat : Float → α
  ofNat : Nat → α
  emptySum : α
  add : α → α → α
  sub : α → α → α
  mul : α → α → α
  div : α → α → α
  neg : α → α
  exp : α → α

namespace Arithmetic

variable {α : Type} (A : Arithmetic α)

/-- Double arithmetic. Sums start from negative zero, so that a sum of negative zeros keeps its
sign. -/
def double : Arithmetic Float where
  ofFloat := id
  ofNat := Float.ofNat
  emptySum := -0.0
  add := Float.add
  sub := Float.sub
  mul := Float.mul
  div := Float.div
  neg := Float.neg
  exp := Float.exp

def sum (values : List α) : α :=
  values.foldl A.add A.emptySum

def mean : List α → α
  | [] => A.ofNat 0
  | values => A.div (A.sum values) (A.ofNat values.length)

def square (value : α) : α :=
  A.mul value value

def variance (values : List α) : α :=
  A.mean (values.map fun v => A.square (A.sub v (A.mean values)))

/-- A bell curve of that amplitude, center and width at a point. -/
def gauss (amplitude center width point : α) : α :=
  A.mul amplitude
    (A.exp (A.div (A.neg (A.square (A.sub point center)))
      (A.mul (A.mul (A.ofNat 2) width) width)))

def binary : BinaryOp → α → α → α
  | .add => A.add
  | .sub => A.sub
  | .mul => A.mul
  | .div => A.div

def statistic : Statistic → List α → α
  | .mean => A.mean
  | .variance => A.variance

/-- The rule of an operation on listed values. Values past those the rule uses are ignored; too few
have no result. -/
def result? : Operation → List α → Option α
  | .binary op, left :: right :: _ => some (A.binary op left right)
  | .negate, operand :: _ => some (A.neg operand)
  | .statistic s, values => some (A.statistic s values)
  | .gauss, amplitude :: center :: width :: point :: _ =>
    some (A.gauss amplitude center width point)
  | _, _ => none

end Arithmetic

end Formula
