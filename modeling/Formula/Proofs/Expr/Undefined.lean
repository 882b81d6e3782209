import Formula.Expr.Value
import Formula.Proofs.Expr.Dependence
import Formula.Proofs.Number.Undefined

namespace Formula

/-- Every operation that `bottom` takes part in gives `bottom`. -/
structure Arithmetic.Strict {α : Type} (A : Arithmetic α) (bottom : α) : Prop where
  left (op : BinaryOp) (a : α) : A.binary op bottom a = bottom
  right (op : BinaryOp) (a : α) : A.binary op a bottom = bottom
  neg : A.neg bottom = bottom
  exp : A.exp bottom = bottom

namespace Arithmetic.Strict

variable {α : Type} {A : Arithmetic α} {bottom : α} (strict : A.Strict bottom)

include strict

theorem square : A.square bottom = bottom :=
  strict.left .mul bottom

theorem foldl_add (values : List α) : values.foldl A.add bottom = bottom := by
  induction values with
  | nil => rfl
  | cons a values ih =>
    have kept : A.add bottom a = bottom := strict.left .add a
    rw [List.foldl_cons, kept, ih]

/-- From the place of `bottom` on the sum does not change any more. -/
theorem sum {values : List α} (mem : bottom ∈ values) : A.sum values = bottom := by
  obtain ⟨before, after, rfl⟩ := List.append_of_mem mem
  have reached (total : α) : A.add total bottom = bottom := strict.right .add total
  rw [Arithmetic.sum, List.foldl_append, List.foldl_cons, reached, strict.foldl_add]

theorem mean {values : List α} (mem : bottom ∈ values) : A.mean values = bottom := by
  cases values with
  | nil => cases mem
  | cons a rest =>
    change A.div (A.sum (a :: rest)) _ = bottom
    rw [strict.sum mem]
    exact strict.left .div _

theorem variance {values : List α} (mem : bottom ∈ values) : A.variance values = bottom := by
  have deviation : A.square (A.sub bottom (A.mean values)) = bottom := by
    have kept : A.sub bottom (A.mean values) = bottom := strict.left .sub _
    rw [kept, strict.square]
  exact strict.mean (List.mem_map.mpr ⟨bottom, mem, deviation⟩)

theorem statistic (s : Statistic) {values : List α} (mem : bottom ∈ values) :
    A.statistic s values = bottom := by
  cases s with
  | mean => exact strict.mean mem
  | variance => exact strict.variance mem

theorem gauss {a c w p : α} (mem : bottom ∈ [a, c, w, p]) : A.gauss a c w p = bottom := by
  have mul_left (b : α) : A.mul bottom b = bottom := strict.left .mul b
  have mul_right (b : α) : A.mul b bottom = bottom := strict.right .mul b
  have sub_left (b : α) : A.sub bottom b = bottom := strict.left .sub b
  have sub_right (b : α) : A.sub b bottom = bottom := strict.right .sub b
  have div_left (b : α) : A.div bottom b = bottom := strict.left .div b
  have div_right (b : α) : A.div b bottom = bottom := strict.right .div b
  simp only [List.mem_cons, List.not_mem_nil, or_false] at mem
  rcases mem with rfl | rfl | rfl | rfl
  · exact mul_left _
  · simp only [Arithmetic.gauss, sub_right, strict.square, strict.neg, div_left, strict.exp, mul_right]
  · simp only [Arithmetic.gauss, mul_right, div_right, strict.exp]
  · simp only [Arithmetic.gauss, sub_left, strict.square, strict.neg, div_left, strict.exp, mul_right]

end Arithmetic.Strict

namespace Expr

section Value

variable {α : Type} {A : Arithmetic α} {bottom : α} {point : Variable → α}

theorem valueIn_of_operand (strict : A.Strict bottom) {e f : Expr} (operand : f ∈ e.operands)
    (undefined : f.valueIn A point = bottom) : e.valueIn A point = bottom := by
  have mem : bottom ∈ e.operands.map (valueIn A point) :=
    List.mem_map.mpr ⟨f, operand, undefined⟩
  cases e with
  | const value => cases operand
  | var v => cases operand
  | binary op l r =>
    rcases List.mem_pair.mp mem with left | right
    · rw [valueIn, ← left]
      exact strict.left op _
    · rw [valueIn, ← right]
      exact strict.right op _
  | negate e =>
    rw [valueIn, ← List.mem_singleton.mp mem]
    exact strict.neg
  | statistic s es =>
    rw [valueIn, valuesIn_eq_map]
    exact strict.statistic s mem
  | gauss a c w p => exact strict.gauss mem

theorem valueIn_of_subterm (strict : A.Strict bottom) {e f : Expr} (occurs : f ∈ e.subterms)
    (undefined : f.valueIn A point = bottom) : e.valueIn A point = bottom := by
  induction e using operand_induction with
  | step e ih =>
    rw [subterms_eq, List.mem_cons, List.mem_flatMap] at occurs
    rcases occurs with rfl | ⟨g, operand, inner⟩
    · exact undefined
    · exact valueIn_of_operand strict operand (ih g operand inner)

end Value

end Expr

/-- Double arithmetic with any function for the exponential. -/
def Arithmetic.doubleWith (exp : Float → Float) : Arithmetic Float :=
  { Arithmetic.double with exp := exp }

theorem Arithmetic.strict_doubleWith {exp : Float → Float}
    (strict : ∀ value, value.isNaN = true → (exp value).isNaN = true) :
    (doubleWith exp).Strict Number.undefined where
  left := Number.undefined_binary
  right := Number.binary_undefined
  neg := Number.neg_undefined
  exp := Number.isNaN_iff.mp (strict _ (Number.isNaN_iff.mpr rfl))

/-- What the point has for the variable is no number, or the point is too short. -/
def Point.Lacks (point : Point) (v : Variable) : Prop :=
  ∀ value, point[v.index]? = some value → value.isNaN = true

theorem Point.coordinate_of_lacks {point : Point} {v : Variable} (lacks : point.Lacks v) :
    point.coordinate v = Number.undefined := by
  unfold coordinate
  cases found : point[v.index]? with
  | none => rfl
  | some value => exact Number.isNaN_iff.mp (lacks value found)

namespace Expr

theorem const_mem_subterms {e : Expr} {value : Float} (occurs : value ∈ e.constants) :
    .const value ∈ e.subterms := by
  obtain ⟨leaf, mem, found⟩ := List.mem_filterMap.mp occurs
  cases leaf with
  | const other =>
    cases found
    exact mem
  | _ => cases found

/-- A formula with a constant that is no number, or with a variable for which the point has none, has
no number for its value: no sum, mean or bell curve around it makes it one, also where it is
multiplied by zero or divides infinity. The exponential is only taken not to make one. -/
theorem evaluate_undefined (exp : Float → Float)
    (strict : ∀ value, value.isNaN = true → (exp value).isNaN = true) (e : Expr) (point : Point)
    (undefined : (∃ value ∈ e.constants, value.isNaN = true) ∨
      ∃ v, e.contains v = true ∧ point.Lacks v) :
    (e.valueIn (.doubleWith exp) point.coordinate).isNaN = true ∧
      (exp = Float.exp → (e.evaluate point).isNaN = true) := by
  have lost : e.valueIn (.doubleWith exp) point.coordinate = Number.undefined := by
    have doubles := Arithmetic.strict_doubleWith strict
    rcases undefined with ⟨value, occurs, nan⟩ | ⟨v, occurs, lacks⟩
    · exact valueIn_of_subterm doubles (const_mem_subterms occurs) (Number.isNaN_iff.mp nan)
    · exact valueIn_of_subterm doubles ((contains_iff_mem_subterms e v).mp occurs)
        (Point.coordinate_of_lacks lacks)
  constructor
  · exact Number.isNaN_iff.mpr lost
  · rintro rfl
    exact Number.isNaN_iff.mpr lost

theorem evaluate_undefined_width :
    (∀ value : Float, value.isNaN = true → (if value.isNaN then value else 1).isNaN = true) ∧
      (gauss (const 0) (var .x) (var .z) (const 1)).contains .z = true ∧ Point.Lacks [2.5] .z ∧
      ((gauss (const 0) (var .x) (var .z) (const 1)).valueIn
        (.doubleWith fun value => if value.isNaN then value else 1)
        (Point.coordinate [2.5])).isNaN = true := by
  have strict : ∀ value : Float, value.isNaN = true →
      (if value.isNaN then value else 1).isNaN = true := by
    intro value nan
    rw [if_pos nan, nan]
  have occurs : (gauss (const 0) (var .x) (var .z) (const 1)).contains .z = true := by decide
  have lacks : Point.Lacks [2.5] .z := by
    intro value found
    cases found
  exact ⟨strict, occurs, lacks, (evaluate_undefined _ strict _ _ (.inr ⟨.z, occurs, lacks⟩)).1⟩

end Expr

end Formula
