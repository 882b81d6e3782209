import Formula.Expr.Value
import Formula.Proofs.Expr.Subterms
import Mathlib.Algebra.DualNumber
import Mathlib.Tactic.FieldSimp
import Mathlib.Tactic.Ring

/-! Exact arithmetic over a field with an exponential, and the same over its dual numbers. A dual
number is a value together with a derivative; its arithmetic is that of numbers whose second part
squares to zero. -/

namespace Formula

open Float.Model (UnpackedFloat)

/-- The number that a finite double stands for, in any field. -/
def Number.exactly (K : Type) [Field K] (value : Float) : K :=
  match value.toModel.unpack with
  | .finite sign mantissa exponent _ => (sign.apply mantissa : ℤ) * 2 ^ exponent
  | _ => 0

namespace Arithmetic

variable {K : Type} [Field K] (exp : K → K)

def exact : Arithmetic K where
  ofFloat := Number.exactly K
  ofNat n := n
  emptySum := 0
  add a b := a + b
  sub a b := a - b
  mul a b := a * b
  div a b := a / b
  neg a := -a
  exp := exp

/-- The exponential is taken to be its own derivative. -/
def dual : Arithmetic (DualNumber K) where
  ofFloat value := .inl (Number.exactly K value)
  ofNat n := n
  emptySum := 0
  add a b := a + b
  sub a b := a - b
  mul a b := a * b
  div a b := a * b⁻¹
  neg a := -a
  exp a := .inl (exp a.fst) + .inr (a.snd * exp a.fst)

theorem exact_sum (values : List K) : (exact exp).sum values = values.sum :=
  List.sum_eq_foldl.symm

theorem exact_mean (values : List K) : (exact exp).mean values = values.sum / values.length := by
  cases values with
  | nil => simp [mean, exact]
  | cons a rest =>
    simp only [mean, exact_sum]
    rfl

theorem dual_sum (values : List (DualNumber K)) : (dual exp).sum values = values.sum :=
  List.sum_eq_foldl.symm

theorem dual_mean (values : List (DualNumber K)) :
    (dual exp).mean values = values.sum * (values.length : DualNumber K)⁻¹ := by
  cases values with
  | nil => simp [mean, dual]
  | cons a rest =>
    simp only [mean, dual_sum]
    rfl

end Arithmetic

end Formula
