import Mathlib.Data.List.Basic
import Formula.Expr.Derivative
import Formula.Proofs.Expr.Subterms

namespace Formula.Expr

theorem rule_induction {motive : Expr → Prop}
    (const : ∀ value, motive (.const value))
    (var : ∀ v, motive (.var v))
    (add : ∀ a b : Expr, motive a → motive b → motive (a + b))
    (sub : ∀ a b : Expr, motive a → motive b → motive (a - b))
    (mul : ∀ a b : Expr, motive a → motive b → motive (a * b))
    (div : ∀ a b : Expr, motive a → motive b → motive (a / b))
    (neg : ∀ a : Expr, motive a → motive (-a))
    (mean : ∀ es, (∀ e ∈ es, motive e) → motive (.mean es))
    (variance : ∀ es, (∀ e ∈ es, motive e) → motive (.variance es))
    (gauss : ∀ a c w p, motive a → motive c → motive w → motive p → motive (.gauss a c w p))
    (e : Expr) : motive e := by
  induction e with
  | const value => exact const value
  | var v => exact var v
  | binary op left right ihl ihr =>
    cases op with
    | add => exact add left right ihl ihr
    | sub => exact sub left right ihl ihr
    | mul => exact mul left right ihl ihr
    | div => exact div left right ihl ihr
  | negate operand ih => exact neg operand ih
  | statistic s es ih =>
    cases s with
    | mean => exact mean es ih
    | variance => exact variance es ih
  | gauss a c w p iha ihc ihw ihp => exact gauss a c w p iha ihc ihw ihp

variable (name : String)

theorem derivative_const (value : Float) : (const value).derivative name = const 0 := rfl

theorem derivative_add (a b : Expr) :
    (a + b).derivative name = a.derivative name + b.derivative name := rfl

theorem derivative_sub (a b : Expr) :
    (a - b).derivative name = a.derivative name - b.derivative name := rfl

theorem derivative_mul (a b : Expr) :
    (a * b).derivative name = a.derivative name * b + a * b.derivative name := rfl

theorem derivative_div (a b : Expr) :
    (a / b).derivative name = (a.derivative name * b - a * b.derivative name) / (b * b) := rfl

theorem derivative_neg (a : Expr) : (-a).derivative name = -a.derivative name := rfl

theorem derivative_mean (es : List Expr) :
    (mean es).derivative name = mean (es.map (derivative name)) := by
  simp only [derivative, statisticRule, derivatives_eq_map]

theorem derivative_variance (es : List Expr) :
    (variance es).derivative name = const 2 * mean (es.map fun e =>
      (e - mean es) * (e.derivative name - mean (es.map (derivative name)))) := by
  simp only [derivative, statisticRule, varianceRule, derivatives_eq_map, List.zipWith_map_right,
    List.zipWith_self]

def exponent (center width point : Expr) : Expr :=
  -((point - center) * (point - center) / (const 2 * (width * width)))

theorem derivative_gauss (a c w p : Expr) :
    (gauss a c w p).derivative name =
      a.derivative name * gauss (const 1) c w p +
        gauss a c w p * (exponent c w p).derivative name := rfl

end Formula.Expr
