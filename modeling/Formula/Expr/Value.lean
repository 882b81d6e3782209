import Formula.Expr

namespace Formula

abbrev Point := List Float

/-- The value of a variable; a point that is too short leaves it undefined. -/
def Point.coordinate (point : Point) (v : Variable) : Float :=
  (point[v.index]?).getD Number.undefined

namespace Expr

section In

variable {α : Type} (A : Arithmetic α) (point : Variable → α)

mutual

def valueIn : Expr → α
  | .const value => A.ofFloat value
  | .var v => point v
  | .binary op left right => A.binary op (valueIn left) (valueIn right)
  | .negate operand => A.neg (valueIn operand)
  | .statistic s operands => A.statistic s (valuesIn operands)
  | .gauss amplitude center width point =>
    A.gauss (valueIn amplitude) (valueIn center) (valueIn width) (valueIn point)

def valuesIn : List Expr → List α
  | [] => []
  | e :: rest => valueIn e :: valuesIn rest

end

theorem valuesIn_eq_map (es : List Expr) : valuesIn A point es = es.map (valueIn A point) := by
  induction es with
  | nil => rfl
  | cons e rest ih => simp [valuesIn, ih]

theorem result?_valueIn {e : Expr} {op : Operation} (h : e.operation? = some op) :
    A.result? op (e.operands.map (valueIn A point)) = some (valueIn A point e) := by
  cases e <;> cases h <;>
    simp [Arithmetic.result?, operands, valueIn, valuesIn_eq_map]

end In

def evaluate (e : Expr) (point : Point) : Float :=
  e.valueIn .double point.coordinate

end Expr

end Formula
