import Mathlib.Analysis.Complex.Exponential
import Formula.Proofs.Derivative.Dual
import Formula.Proofs.Derivative.Rules

/-!
Derivatives of derivatives in exact arithmetic. A derivative divides by nothing but products of what
the formula divides by, so it has a value wherever the formula has one; and the order of two
derivatives does not matter for the value.
-/

namespace Formula.Expr

variable {K : Type} [Field K] {exp : K → K} {point : Variable → K}

theorem regular_iff {e : Expr} :
    e.Regular exp point ↔
      (∀ value, e.constant? = some value → value.isFinite = true) ∧
      (∀ d, e.denominator? = some d → d.exactly exp point ≠ 0) ∧
      ∀ f ∈ e.operands, f.Regular exp point := by
  constructor
  · intro h
    refine ⟨?_, fun d divides => h.denominator divides, fun f operand => h.operand operand⟩
    intro value constant
    exact h.finite value (mem_filterMap_subterms.mpr (.inl constant))
  · rintro ⟨finite, nonzero, inner⟩
    constructor
    · intro value occurs
      rcases mem_filterMap_subterms.mp occurs with constant | ⟨f, operand, occurs⟩
      · exact finite value constant
      · exact (inner f operand).finite value occurs
    · intro d occurs
      rcases mem_filterMap_subterms.mp occurs with divides | ⟨f, operand, occurs⟩
      · exact nonzero d divides
      · exact (inner f operand).nonzero d occurs

namespace Regular

variable {a b c d : Expr} {es : List Expr}

theorem const {value : Float} (finite : value.isFinite = true) :
    (Expr.const value).Regular exp point := by
  refine regular_iff.mpr ⟨?_, ?_, ?_⟩
  · rintro _ ⟨⟩
    exact finite
  · rintro _ ⟨⟩
  · rintro _ ⟨⟩

theorem of_operands {e : Expr} (node : e.constant? = none)
    (nonzero : ∀ d, e.denominator? = some d → d.exactly exp point ≠ 0)
    (inner : ∀ f ∈ e.operands, f.Regular exp point) : e.Regular exp point := by
  refine regular_iff.mpr ⟨?_, nonzero, inner⟩
  intro value constant
  rw [node] at constant
  cases constant

theorem binary {op : BinaryOp} (ha : a.Regular exp point) (hb : b.Regular exp point)
    (nonzero : op = .div → b.exactly exp point ≠ 0) : (Expr.binary op a b).Regular exp point := by
  refine .of_operands rfl ?_ (by simp [operands, ha, hb])
  intro d divides
  cases op <;> cases divides
  exact nonzero rfl

theorem add (ha : a.Regular exp point) (hb : b.Regular exp point) : (a + b).Regular exp point :=
  ha.binary hb BinaryOp.noConfusion

theorem sub (ha : a.Regular exp point) (hb : b.Regular exp point) : (a - b).Regular exp point :=
  ha.binary hb BinaryOp.noConfusion

theorem mul (ha : a.Regular exp point) (hb : b.Regular exp point) : (a * b).Regular exp point :=
  ha.binary hb BinaryOp.noConfusion

theorem div (ha : a.Regular exp point) (hb : b.Regular exp point)
    (nonzero : b.exactly exp point ≠ 0) : (a / b).Regular exp point :=
  ha.binary hb fun _ => nonzero

theorem neg (ha : a.Regular exp point) : (-a).Regular exp point :=
  .of_operands rfl (by rintro _ ⟨⟩) (List.forall_mem_singleton.mpr ha)

theorem mean (all : ∀ e ∈ es, e.Regular exp point) : (Expr.mean es).Regular exp point :=
  .of_operands rfl (by rintro _ ⟨⟩) all

theorem variance (all : ∀ e ∈ es, e.Regular exp point) : (Expr.variance es).Regular exp point :=
  .of_operands rfl (by rintro _ ⟨⟩) all

theorem gauss (ha : a.Regular exp point) (hb : b.Regular exp point) (hc : c.Regular exp point)
    (hd : d.Regular exp point) (nonzero : c.exactly exp point ≠ 0) :
    (Expr.gauss a b c d).Regular exp point := by
  refine .of_operands rfl ?_ (by simp [operands, ha, hb, hc, hd])
  rintro _ ⟨⟩
  exact nonzero

end Regular

/-- The formula has a value at the point, and so has its derivative. -/
structure Defined (exp : K → K) (point : Variable → K) (name : String) (e : Expr) : Prop where
  regular : e.Regular exp point
  derivative : (e.derivative name).Regular exp point

namespace Defined

variable {name : String} {a b c d : Expr} {es : List Expr}

theorem const {value : Float} (finite : value.isFinite = true) :
    Defined exp point name (.const value) :=
  ⟨.const finite, .const (by decide)⟩

theorem add (ha : Defined exp point name a) (hb : Defined exp point name b) :
    Defined exp point name (a + b) :=
  ⟨ha.regular.add hb.regular, ha.derivative.add hb.derivative⟩

theorem sub (ha : Defined exp point name a) (hb : Defined exp point name b) :
    Defined exp point name (a - b) :=
  ⟨ha.regular.sub hb.regular, ha.derivative.sub hb.derivative⟩

theorem mul (ha : Defined exp point name a) (hb : Defined exp point name b) :
    Defined exp point name (a * b) :=
  ⟨ha.regular.mul hb.regular, (ha.derivative.mul hb.regular).add (ha.regular.mul hb.derivative)⟩

theorem div (ha : Defined exp point name a) (hb : Defined exp point name b)
    (nonzero : b.exactly exp point ≠ 0) : Defined exp point name (a / b) := by
  refine ⟨ha.regular.div hb.regular nonzero, ?_⟩
  have numerator := (ha.derivative.mul hb.regular).sub (ha.regular.mul hb.derivative)
  have divisor : (b * b).exactly exp point ≠ 0 := by
    rw [exactly_mul]
    exact mul_ne_zero nonzero nonzero
  exact numerator.div (hb.regular.mul hb.regular) divisor

theorem neg (ha : Defined exp point name a) : Defined exp point name (-a) :=
  ⟨ha.regular.neg, ha.derivative.neg⟩

theorem mean (all : ∀ e ∈ es, Defined exp point name e) : Defined exp point name (.mean es) := by
  refine ⟨.mean fun e occurs => (all e occurs).regular, ?_⟩
  rw [derivative_mean]
  exact .mean (List.forall_mem_map.mpr fun e occurs => (all e occurs).derivative)

theorem variance (all : ∀ e ∈ es, Defined exp point name e) :
    Defined exp point name (.variance es) := by
  refine ⟨.variance fun e occurs => (all e occurs).regular, ?_⟩
  have center := mean all
  rw [derivative_variance]
  refine .mul (.const (by decide)) (.mean (List.forall_mem_map.mpr fun e occurs => ?_))
  have slope := center.derivative
  rw [derivative_mean] at slope
  exact ((all e occurs).regular.sub center.regular).mul ((all e occurs).derivative.sub slope)

variable [CharZero K]

theorem exponent (hb : Defined exp point name b) (hc : Defined exp point name c)
    (hd : Defined exp point name d) (nonzero : c.exactly exp point ≠ 0) :
    Defined exp point name (exponent b c d) := by
  have distance := hd.sub hb
  have scale : Defined exp point name (.const 2 * (c * c)) :=
    (Defined.const (by decide)).mul (hc.mul hc)
  have divisor : (Expr.const 2 * (c * c)).exactly exp point ≠ 0 := by
    rw [exactly_mul, exactly_mul, exactly_two]
    exact mul_ne_zero two_ne_zero (mul_ne_zero nonzero nonzero)
  exact ((distance.mul distance).div scale divisor).neg

theorem gauss (ha : Defined exp point name a) (hb : Defined exp point name b)
    (hc : Defined exp point name c) (hd : Defined exp point name d)
    (nonzero : c.exactly exp point ≠ 0) : Defined exp point name (.gauss a b c d) := by
  have curve := ha.regular.gauss hb.regular hc.regular hd.regular nonzero
  have unit : (Expr.gauss (.const 1) b c d).Regular exp point :=
    .gauss (.const (by decide)) hb.regular hc.regular hd.regular nonzero
  have inner := hb.exponent hc hd nonzero
  refine ⟨curve, ?_⟩
  rw [derivative_gauss]
  exact (ha.derivative.mul unit).add (curve.mul inner.derivative)

end Defined

variable [CharZero K]

/-- A derivative divides only by squares of divisors and widths, and by the widths themselves. -/
theorem Regular.defined {e : Expr} (h : e.Regular exp point) (name : String) :
    Defined exp point name e := by
  induction e using rule_induction with
  | const value => exact ⟨h, .const (by decide)⟩
  | var v =>
    refine ⟨h, .const ?_⟩
    split <;> decide
  | add a b iha ihb => exact (iha (h.operand (.head _))).add (ihb (h.operand (.tail _ (.head _))))
  | sub a b iha ihb => exact (iha (h.operand (.head _))).sub (ihb (h.operand (.tail _ (.head _))))
  | mul a b iha ihb => exact (iha (h.operand (.head _))).mul (ihb (h.operand (.tail _ (.head _))))
  | div a b iha ihb =>
    exact (iha (h.operand (.head _))).div (ihb (h.operand (.tail _ (.head _)))) (h.denominator rfl)
  | neg a ih => exact (ih (h.operand (.head _))).neg
  | mean es ih => exact .mean fun e occurs => ih e occurs (h.operand occurs)
  | variance es ih => exact .variance fun e occurs => ih e occurs (h.operand occurs)
  | gauss a c w p iha ihc ihw ihp =>
    exact (iha (h.operand (by simp [operands]))).gauss (ihc (h.operand (by simp [operands])))
      (ihw (h.operand (by simp [operands]))) (ihp (h.operand (by simp [operands])))
      (h.denominator rfl)

theorem Regular.derivativeBy {e : Expr} (h : e.Regular exp point) (names : List String) :
    (e.derivativeBy names).Regular exp point := by
  induction names generalizing e with
  | nil => exact h
  | cons name names ih => exact ih (h.defined name).derivative

def Symmetric (exp : K → K) (point : Variable → K) (v w : String) (e : Expr) : Prop :=
  ((e.derivative v).derivative w).exactly exp point =
    ((e.derivative w).derivative v).exactly exp point

omit [CharZero K] in
theorem exactly_mean_congr {es : List Expr} {f g : Expr → Expr}
    (same : ∀ e ∈ es, (f e).exactly exp point = (g e).exactly exp point) :
    (mean (es.map f)).exactly exp point = (mean (es.map g)).exactly exp point := by
  rw [exactly_mean, exactly_mean, List.map_map, List.map_map]
  exact congrArg _ (List.map_congr_left same)

theorem exactly_gauss_amplitude (a c w p : Expr) :
    (gauss a c w p).exactly exp point =
      a.exactly exp point * (gauss (const 1) c w p).exactly exp point := by
  rw [exactly_gauss, exactly_gauss, exactly_one]
  simp [Arithmetic.gauss, Arithmetic.exact]

namespace Symmetric

variable {v w : String} {a b c d : Expr} {es : List Expr}

section

omit [CharZero K]

theorem add (ha : Symmetric exp point v w a) (hb : Symmetric exp point v w b) :
    Symmetric exp point v w (a + b) := by
  unfold Symmetric at *
  simp only [derivative_add, exactly_add, ha, hb]

theorem sub (ha : Symmetric exp point v w a) (hb : Symmetric exp point v w b) :
    Symmetric exp point v w (a - b) := by
  unfold Symmetric at *
  simp only [derivative_sub, exactly_sub, ha, hb]

theorem mul (ha : Symmetric exp point v w a) (hb : Symmetric exp point v w b) :
    Symmetric exp point v w (a * b) := by
  unfold Symmetric at *
  simp only [derivative_add, derivative_mul, exactly_add, exactly_mul, ha, hb]
  ring

theorem div (ha : Symmetric exp point v w a) (hb : Symmetric exp point v w b) :
    Symmetric exp point v w (a / b) := by
  unfold Symmetric at *
  simp only [derivative_sub, derivative_mul, derivative_div, exactly_add, exactly_sub, exactly_mul,
    exactly_div, ha, hb]
  -- both have the fourth power of the divisor below
  congr 1
  ring

theorem neg (ha : Symmetric exp point v w a) : Symmetric exp point v w (-a) := by
  unfold Symmetric at *
  simp only [derivative_neg, exactly_neg, ha]

theorem mean (all : ∀ e ∈ es, Symmetric exp point v w e) :
    Symmetric exp point v w (.mean es) := by
  unfold Symmetric
  simp only [derivative_mean, List.map_map]
  exact exactly_mean_congr all

theorem variance (all : ∀ e ∈ es, Symmetric exp point v w e) :
    Symmetric exp point v w (.variance es) := by
  have center := mean all
  unfold Symmetric at *
  simp only [derivative_mean, List.map_map] at center
  simp only [derivative_variance, derivative_mul, derivative_const, derivative_mean, List.map_map,
    exactly_add, exactly_mul, exactly_zero, zero_mul, zero_add]
  congr 1
  apply exactly_mean_congr
  intro e occurs
  simp only [Function.comp_apply, derivative_sub, derivative_mul, derivative_mean, List.map_map,
    exactly_add, exactly_sub, exactly_mul, all e occurs, center]
  ring

theorem exponent (hb : Symmetric exp point v w b) (hc : Symmetric exp point v w c)
    (hd : Symmetric exp point v w d) : Symmetric exp point v w (exponent b c d) := by
  have distance := hd.sub hb
  have two : Symmetric exp point v w (.const 2) := rfl
  exact ((distance.mul distance).div (two.mul (hc.mul hc))).neg

end

theorem gauss (ha : Symmetric exp point v w a) (hb : Symmetric exp point v w b)
    (hc : Symmetric exp point v w c) (hd : Symmetric exp point v w d) :
    Symmetric exp point v w (.gauss a b c d) := by
  have inner := hb.exponent hc hd
  unfold Symmetric at *
  -- with amplitude one, the curve and its derivatives are common factors
  simp only [derivative_add, derivative_mul, derivative_gauss, derivative_const, exactly_add,
    exactly_mul, exactly_zero, exactly_gauss_amplitude a, ha, inner]
  ring

end Symmetric

theorem symmetric (v w : String) (e : Expr) : Symmetric exp point v w e := by
  induction e using rule_induction with
  | const value => rfl
  | var u => rfl
  | add a b iha ihb => exact iha.add ihb
  | sub a b iha ihb => exact iha.sub ihb
  | mul a b iha ihb => exact iha.mul ihb
  | div a b iha ihb => exact iha.div ihb
  | neg a ih => exact ih.neg
  | mean es ih => exact .mean ih
  | variance es ih => exact .variance ih
  | gauss a c w p iha ihc ihw ihp => exact iha.gauss ihc ihw ihp

/-- Where a formula has a value, all its derivatives have one, however often they are taken, and the
order of two of them does not matter. -/
theorem derivative_mixed {K : Type} [Field K] [CharZero K] (exp : K → K) (point : Variable → K)
    (e : Expr) (regular : e.Regular exp point) :
    (∀ names, (e.derivativeBy names).Regular exp point) ∧
      ∀ v w, ((e.derivative v).derivative w).exactly exp point =
        ((e.derivative w).derivative v).exactly exp point :=
  ⟨regular.derivativeBy, fun v w => symmetric v w e⟩

theorem derivative_mixed_curve :
    let e := div (variance [mul (var .x) (var .y), var .z]) (gauss (var .y) (const 1) (var .x) (var .z))
    let point : Variable → ℝ := fun _ => 3
    e.Regular Real.exp point ∧
      (e.derivativeBy ["x", "x", "y"]).Regular Real.exp point ∧
      ((e.derivative "x").derivative "y").exactly Real.exp point =
        ((e.derivative "y").derivative "x").exactly Real.exp point := by
  intro e point
  have regular : e.Regular Real.exp point := by
    refine ⟨by decide, ?_⟩
    have occur : e.denominators = [gauss (var .y) (const 1) (var .x) (var .z), var .x] := rfl
    have curve : (gauss (var .y) (const 1) (var .x) (var .z)).exactly Real.exp point ≠ 0 := by
      rw [exactly_gauss]
      simp [point, valueIn, Arithmetic.gauss, Arithmetic.exact, Real.exp_ne_zero]
    have width : (var .x).exactly Real.exp point ≠ 0 := three_ne_zero
    rw [occur]
    simpa using ⟨curve, width⟩
  obtain ⟨defined, symmetric⟩ := derivative_mixed Real.exp point e regular
  exact ⟨regular, defined _, symmetric "x" "y"⟩

end Formula.Expr
