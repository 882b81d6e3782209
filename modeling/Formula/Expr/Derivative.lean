import Formula.Expr

/-!
Derivatives as formulas. Every rule gives the plain result of calculus over the operands and their
derivatives; nothing is simplified.
-/

namespace Formula.Expr

def productRule (u u' v v' : Expr) : Expr :=
  u' * v + u * v'

def quotientRule (u u' v v' : Expr) : Expr :=
  (u' * v - u * v') / (v * v)

def binaryRule : BinaryOp → Expr → Expr → Expr → Expr → Expr
  | .add, _, u', _, v' => u' + v'
  | .sub, _, u', _, v' => u' - v'
  | .mul, u, u', v, v' => productRule u u' v v'
  | .div, u, u', v, v' => quotientRule u u' v v'

/-- Twice the mean product of the deviations of the operands and of their derivatives. -/
def varianceRule (operands derivatives : List Expr) : Expr :=
  let center := mean operands
  let center' := mean derivatives
  .const 2 * mean (List.zipWith (fun u u' => (u - center) * (u' - center')) operands derivatives)

def statisticRule : Statistic → List Expr → List Expr → Expr
  | .mean, _, derivatives => mean derivatives
  | .variance, operands, derivatives => varianceRule operands derivatives

/-- The bell curve is an amplitude `a` times the exponential of `-(x - b)² / (2 c²)`. The first
summand differentiates the amplitude, the second the exponent. -/
def gaussRule (a a' b b' c c' x x' : Expr) : Expr :=
  let distance := x - b
  let distance' := x' - b'
  let squared := distance * distance
  let squared' := productRule distance distance' distance distance'
  let width := c * c
  let width' := productRule c c' c c'
  let scale := .const 2 * width
  let scale' := productRule (.const 2) (.const 0) width width'
  a' * .gauss (.const 1) b c x + .gauss a b c x * -quotientRule squared squared' scale scale'

mutual

/-- The derivative by the variable of that name. By any other name every variable counts as a
constant. -/
def derivative (name : String) : Expr → Expr
  | .const _ => .const 0
  | .var v => .const (if v.name = name then 1 else 0)
  | .binary op left right =>
    binaryRule op left (derivative name left) right (derivative name right)
  | .negate operand => -derivative name operand
  | .statistic s operands => statisticRule s operands (derivatives name operands)
  | .gauss amplitude center width point =>
    gaussRule amplitude (derivative name amplitude) center (derivative name center)
      width (derivative name width) point (derivative name point)

def derivatives (name : String) : List Expr → List Expr
  | [] => []
  | e :: rest => derivative name e :: derivatives name rest

end

theorem derivatives_eq_map (name : String) (es : List Expr) :
    derivatives name es = es.map (derivative name) := by
  induction es with
  | nil => rfl
  | cons e rest ih => simp [derivatives, ih]

def successive (e : Expr) : List String → List Expr
  | [] => []
  | name :: rest => e.derivative name :: (e.derivative name).successive rest

/-- The last of the derivatives by names in turn; without names the formula itself. -/
def derivativeBy (e : Expr) (names : List String) : Expr :=
  names.foldl (fun f name => f.derivative name) e

def gradient (e : Expr) : List Expr :=
  Variable.all.map fun v => e.derivative v.name

end Formula.Expr
