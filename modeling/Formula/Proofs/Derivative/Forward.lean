import Formula.Expr.Value
import Formula.Proofs.Derivative.Rules

/-!
Values and derivatives in one pass. The pass works in doubles and carries with each value its
derivative; it builds no formula. What it finds is, bit for bit, the value of the derivative.
-/

namespace Formula

structure Jet where
  value : Float
  slope : Float

namespace Jet

def binarySlope : BinaryOp → Jet → Jet → Float
  | .add, u, v => u.slope + v.slope
  | .sub, u, v => u.slope - v.slope
  | .mul, u, v => u.slope * v.value + u.value * v.slope
  | .div, u, v => (u.slope * v.value - u.value * v.slope) / (v.value * v.value)

def statisticSlope : Statistic → List Jet → Float
  | .mean, us => Arithmetic.double.mean (us.map slope)
  | .variance, us =>
    let center := Arithmetic.double.mean (us.map value)
    let center' := Arithmetic.double.mean (us.map slope)
    2 * Arithmetic.double.mean (us.map fun u => (u.value - center) * (u.slope - center'))

/-- The exponent is minus a quotient `n / q`, whose derivative is by the rule for quotients. -/
def gaussSlope (a b c x : Jet) : Float :=
  let d := x.value - b.value
  let d' := x.slope - b.slope
  let n := d * d
  let n' := d' * d + d * d'
  let q := 2 * (c.value * c.value)
  let q' := 0 * (c.value * c.value) + 2 * (c.slope * c.value + c.value * c.slope)
  a.slope * Arithmetic.double.gauss 1 b.value c.value x.value +
    Arithmetic.double.gauss a.value b.value c.value x.value * -((n' * q - n * q') / (q * q))

end Jet

namespace Expr

section Forward

variable (name : String) (point : Point)

mutual

/-- The value at the point and the derivative by the variable of that name. -/
def forward : Expr → Jet
  | .const value => ⟨value, 0⟩
  | .var v => ⟨point.coordinate v, if v.name = name then 1 else 0⟩
  | .binary op left right =>
    let u := forward left
    let v := forward right
    ⟨Arithmetic.double.binary op u.value v.value, Jet.binarySlope op u v⟩
  | .negate operand =>
    let u := forward operand
    ⟨-u.value, -u.slope⟩
  | .statistic s operands =>
    let us := forwardAll operands
    ⟨Arithmetic.double.statistic s (us.map Jet.value), Jet.statisticSlope s us⟩
  | .gauss amplitude center width place =>
    let a := forward amplitude
    let b := forward center
    let c := forward width
    let x := forward place
    ⟨Arithmetic.double.gauss a.value b.value c.value x.value, Jet.gaussSlope a b c x⟩

def forwardAll : List Expr → List Jet
  | [] => []
  | e :: rest => forward e :: forwardAll rest

end

theorem forwardAll_eq_map (es : List Expr) :
    forwardAll name point es = es.map (forward name point) := by
  induction es with
  | nil => rfl
  | cons e rest ih => simp [forwardAll, ih]

end Forward

theorem evaluate_statistic (s : Statistic) (es : List Expr) (point : Point) :
    (statistic s es).evaluate point =
      Arithmetic.double.statistic s (es.map (·.evaluate point)) := by
  rw [evaluate, valueIn, valuesIn_eq_map]
  rfl

theorem evaluate_derivative_variance (name : String) (es : List Expr) (point : Point) :
    ((variance es).derivative name).evaluate point =
      Jet.statisticSlope .variance
        (es.map fun e => ⟨e.evaluate point, (e.derivative name).evaluate point⟩) := by
  have center : (mean es).evaluate point =
      Arithmetic.double.mean (es.map (·.evaluate point)) := evaluate_statistic ..
  have center' : (mean (es.map (derivative name))).evaluate point =
      Arithmetic.double.mean (es.map fun e => (e.derivative name).evaluate point) := by
    rw [evaluate_statistic, List.map_map]
    rfl
  have product (f g : Expr) : (f * g).evaluate point = f.evaluate point * g.evaluate point := rfl
  have difference (f g : Expr) : (f - g).evaluate point = f.evaluate point - g.evaluate point := rfl
  rw [derivative_variance, product, evaluate_statistic, List.map_map]
  simp only [Jet.statisticSlope, List.map_map, Function.comp_def, product, difference, center,
    center']
  rfl

theorem forward_eq (e : Expr) (name : String) (point : Point) :
    e.forward name point = ⟨e.evaluate point, (e.derivative name).evaluate point⟩ := by
  induction e with
  | const value => rfl
  | var v => rfl
  | binary op left right ihl ihr =>
    rw [forward, ihl, ihr]
    cases op <;> rfl
  | negate operand ih =>
    rw [forward, ih]
    rfl
  | statistic s es ih =>
    have jets : forwardAll name point es =
        es.map fun e => ⟨e.evaluate point, (e.derivative name).evaluate point⟩ := by
      rw [forwardAll_eq_map]
      exact List.map_congr_left ih
    have values : (forwardAll name point es).map Jet.value = es.map (·.evaluate point) := by
      rw [jets, List.map_map]
      rfl
    rw [forward, values, ← evaluate_statistic, jets]
    congr 1
    cases s with
    | mean =>
      rw [derivative_mean, evaluate_statistic, List.map_map, Jet.statisticSlope, List.map_map]
      rfl
    | variance => rw [evaluate_derivative_variance]
  | gauss a c w p iha ihc ihw ihp =>
    rw [forward, iha, ihc, ihw, ihp]
    rfl

/-- The derivative of a formula has in doubles the value that one pass over the formula finds beside
the value of the formula itself, whatever the point: also where a sum overflows, a divisor is zero or
a coordinate is missing. -/
theorem evaluate_derivative (e : Expr) (name : String) (point : Point) :
    (e.derivative name).evaluate point = (e.forward name point).slope ∧
      e.evaluate point = (e.forward name point).value := by
  rw [forward_eq]
  exact ⟨rfl, rfl⟩

end Expr
end Formula
