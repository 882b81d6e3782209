import Mathlib
import Formula.Proofs.Derivative.Dual
import Formula.Proofs.Expr.Dependence

namespace Formula

open TrivSqZeroExt (fst snd inl inr)

/-- The dual number holds the value of the function at `t` and its derivative there. -/
structure Tangent (f : ℝ → ℝ) (t : ℝ) (a : DualNumber ℝ) : Prop where
  value : f t = a.fst
  slope : HasDerivAt f a.snd t

namespace Tangent

variable {f g : ℝ → ℝ} {t : ℝ} {a b : DualNumber ℝ}

theorem const (c t : ℝ) : Tangent (fun _ => c) t (inl c) :=
  ⟨rfl, hasDerivAt_const t c⟩

theorem add (hf : Tangent f t a) (hg : Tangent g t b) : Tangent (fun s => f s + g s) t (a + b) :=
  ⟨by simp [hf.value, hg.value], hf.slope.add hg.slope⟩

theorem sub (hf : Tangent f t a) (hg : Tangent g t b) : Tangent (fun s => f s - g s) t (a - b) :=
  ⟨by simp [hf.value, hg.value], hf.slope.sub hg.slope⟩

theorem neg (hf : Tangent f t a) : Tangent (fun s => -f s) t (-a) :=
  ⟨by simp [hf.value], hf.slope.neg⟩

theorem mul (hf : Tangent f t a) (hg : Tangent g t b) : Tangent (fun s => f s * g s) t (a * b) := by
  refine ⟨by simp [hf.value, hg.value], (hf.slope.mul hg.slope).congr_deriv ?_⟩
  simp only [hf.value, hg.value, TrivSqZeroExt.snd_mul, MulOpposite.smul_eq_mul_unop,
    MulOpposite.unop_op, smul_eq_mul]
  ring

theorem div (hf : Tangent f t a) (hg : Tangent g t b) (nonzero : b.fst ≠ 0) :
    Tangent (fun s => f s / g s) t ((Arithmetic.dual Real.exp).div a b) := by
  refine ⟨?_, (hf.slope.div hg.slope (hg.value ▸ nonzero)).congr_deriv ?_⟩
  · rw [(Arithmetic.hom_fst Real.exp).div, hf.value, hg.value]
    rfl
  · rw [Arithmetic.snd_div Real.exp a b nonzero, hf.value, hg.value, sq]

theorem exp (hf : Tangent f t a) :
    Tangent (fun s => Real.exp (f s)) t ((Arithmetic.dual Real.exp).exp a) := by
  refine ⟨?_, hf.slope.exp.congr_deriv ?_⟩
  · simp [Arithmetic.dual, hf.value]
  · simp [Arithmetic.dual, hf.value, mul_comm]

theorem mean {ι : Type} {items : List ι} {f : ι → ℝ → ℝ} {a : ι → DualNumber ℝ}
    (h : ∀ i ∈ items, Tangent (f i) t (a i)) :
    Tangent (fun s => (Arithmetic.exact Real.exp).mean (items.map fun i => f i s)) t
      ((Arithmetic.dual Real.exp).mean (items.map a)) := by
  have sum : Tangent (fun s => (items.map fun i => f i s).sum) t (items.map a).sum := by
    induction items with
    | nil => simpa using const 0 t
    | cons i rest ih =>
      simp only [List.map_cons, List.sum_cons]
      exact (h i List.mem_cons_self).add (ih fun j hj => h j (List.mem_cons_of_mem _ hj))
  have count : ((items.length : ℕ) : DualNumber ℝ)⁻¹ = inl ((items.length : ℝ)⁻¹) := by
    rw [← TrivSqZeroExt.inl_natCast, TrivSqZeroExt.inv_inl]
  simp only [Arithmetic.exact_mean, Arithmetic.dual_mean, List.length_map, count, div_eq_mul_inv]
  exact sum.mul (const _ t)

theorem variance {ι : Type} {items : List ι} {f : ι → ℝ → ℝ} {a : ι → DualNumber ℝ}
    (h : ∀ i ∈ items, Tangent (f i) t (a i)) :
    Tangent (fun s => (Arithmetic.exact Real.exp).variance (items.map fun i => f i s)) t
      ((Arithmetic.dual Real.exp).variance (items.map a)) := by
  simp only [Arithmetic.variance, List.map_map]
  apply mean
  intro i hi
  have deviation := (h i hi).sub (mean h)
  exact deviation.mul deviation

theorem gauss {fa fc fw fp : ℝ → ℝ} {a c w p : DualNumber ℝ} (ha : Tangent fa t a)
    (hc : Tangent fc t c) (hw : Tangent fw t w) (hp : Tangent fp t p) (nonzero : w.fst ≠ 0) :
    Tangent (fun s => (Arithmetic.exact Real.exp).gauss (fa s) (fc s) (fw s) (fp s)) t
      ((Arithmetic.dual Real.exp).gauss a c w p) := by
  have distance := hp.sub hc
  have scale := ((const 2 t).mul hw).mul hw
  have divisor : (inl (2 : ℝ) * w * w : DualNumber ℝ).fst ≠ 0 := by simp [nonzero]
  have two : (inl (2 : ℝ) : DualNumber ℝ) = ((2 : ℕ) : DualNumber ℝ) := by
    rw [← TrivSqZeroExt.inl_natCast]
    norm_num
  rw [two] at scale divisor
  have exponent := (distance.mul distance).neg.div scale divisor
  exact ha.mul exponent.exp

theorem valueIn (v : Variable) (point : Variable → ℝ) (e : Expr) (h : e.Regular Real.exp point) :
    Tangent (fun s => e.exactly Real.exp (Function.update point v s)) (point v)
      (e.valueIn (Arithmetic.dual Real.exp) (Expr.seed point v.name)) := by
  have nonzero {d : Expr} (regular : d.exactly Real.exp point ≠ 0) :
      (d.valueIn (Arithmetic.dual Real.exp) (Expr.seed point v.name)).fst ≠ 0 := by
    rwa [Expr.fst_valueIn_dual]
  induction e with
  | const value => exact const _ _
  | var w =>
    -- the coordinate that moves is the identity, and the others stay where they are
    by_cases same : w = v
    · subst same
      refine ⟨?_, ?_⟩
      · simp [Expr.valueIn, Expr.seed]
      · simpa [Expr.exactly, Expr.valueIn, Expr.seed] using hasDerivAt_id' (point w)
    · have other : w.name ≠ v.name := fun h => same (Variable.name_injective h)
      have fixed (s : ℝ) : (Expr.var w).exactly Real.exp (Function.update point v s) = point w := by
        rw [Expr.exactly, Expr.valueIn, Function.update_of_ne same]
      have still : Expr.seed point v.name w = inl (point w) := by simp [Expr.seed, other]
      simp only [fixed, Expr.valueIn, still]
      exact const _ _
  | binary op left right ihl ihr =>
    have left_tangent := ihl (h.operand (by simp [Expr.operands]))
    have right_tangent := ihr (h.operand (by simp [Expr.operands]))
    cases op with
    | add => exact left_tangent.add right_tangent
    | sub => exact left_tangent.sub right_tangent
    | mul => exact left_tangent.mul right_tangent
    | div => exact left_tangent.div right_tangent (nonzero (h.denominator rfl))
  | negate operand ih => exact (ih (h.operand (by simp [Expr.operands]))).neg
  | statistic s es ih =>
    have tangents : ∀ e ∈ es, _ := fun e occurs => ih e occurs (h.operand occurs)
    simp only [Expr.exactly, Expr.valueIn, Expr.valuesIn_eq_map]
    cases s with
    | mean => exact mean tangents
    | variance => exact variance tangents
  | gauss a c w p iha ihc ihw ihp =>
    exact (iha (h.operand (by simp [Expr.operands]))).gauss
      (ihc (h.operand (by simp [Expr.operands])))
      (ihw (h.operand (by simp [Expr.operands]))) (ihp (h.operand (by simp [Expr.operands])))
      (nonzero (h.denominator rfl))

end Tangent

namespace Expr

theorem exactly_derivative_absent {K : Type} [Field K] [CharZero K] (exp : K → K)
    (point : Variable → K) (name : String) (e : Expr) (h : e.Regular exp point)
    (absent : ∀ v, e.contains v = true → v.name ≠ name) :
    (e.derivative name).exactly exp point = 0 := by
  have still : e.valueIn (Arithmetic.dual exp) (seed point name) =
      e.valueIn (Arithmetic.dual exp) fun v => inl (point v) :=
    valueIn_congr _ _ _ e fun v occurs => by simp [seed, absent v occurs]
  have second := congrArg snd (valueIn_dual exp point name e h)
  rw [still, ← (Arithmetic.hom_inl exp).valueIn, TrivSqZeroExt.snd_inl, snd_pair] at second
  exact second.symm

/-- The derivative of a formula is right wherever the formula has a value: in every field with an
exponential its value is the second part of the value in dual numbers, and zero if no variable of
the formula has the name; over the reals it is the partial derivative. -/
theorem derivative_exact (e : Expr) (name : String) :
    (∀ (K : Type) [Field K] [CharZero K] (exp : K → K) (point : Variable → K),
      e.Regular exp point →
        (e.derivative name).exactly exp point =
            (e.valueIn (Arithmetic.dual exp) (seed point name)).snd ∧
          ((∀ v, e.contains v = true → v.name ≠ name) →
            (e.derivative name).exactly exp point = 0)) ∧
      ∀ (v : Variable) (point : Variable → ℝ), v.name = name → e.Regular Real.exp point →
        HasDerivAt (fun t => e.exactly Real.exp (Function.update point v t))
          ((e.derivative name).exactly Real.exp point) (point v) := by
  constructor
  · intro K _ _ exp point h
    refine ⟨?_, exactly_derivative_absent exp point name e h⟩
    rw [valueIn_dual exp point name e h, snd_pair]
  · rintro v point rfl h
    have slope := (Tangent.valueIn v point e h).slope
    rwa [valueIn_dual Real.exp point v.name e h, snd_pair] at slope

theorem derivative_exact_quotient :
    let e := div (mean [var .x, var .y]) (gauss (const 1) (var .x) (const 2) (var .x))
    let point : Variable → ℝ := fun _ => 3
    e.Regular Real.exp point ∧
      (e.derivative "y").exactly Real.exp point =
        (e.valueIn (Arithmetic.dual Real.exp) (seed point "y")).snd ∧
      (e.derivative "w").exactly Real.exp point = 0 ∧
      HasDerivAt (fun t => e.exactly Real.exp (Function.update point .y t))
        ((e.derivative "y").exactly Real.exp point) 3 := by
  intro e point
  have regular : e.Regular Real.exp point := by
    refine ⟨by decide, ?_⟩
    have occur : e.denominators =
        [gauss (const 1) (var .x) (const 2) (var .x), const 2] := rfl
    have curve : (gauss (const 1) (var .x) (const 2) (var .x)).exactly Real.exp point ≠ 0 := by
      rw [exactly_gauss, exactly_one]
      simp [Arithmetic.gauss, Arithmetic.exact, Real.exp_ne_zero]
    have width : (const 2).exactly Real.exp point ≠ 0 := by
      rw [exactly_two]
      exact two_ne_zero
    rw [occur]
    simpa using ⟨curve, width⟩
  exact ⟨regular, ((derivative_exact e "y").1 ℝ Real.exp point regular).1,
    ((derivative_exact e "w").1 ℝ Real.exp point regular).2 (fun v _ => by cases v <;> decide),
    (derivative_exact e "y").2 .y point rfl regular⟩

end Expr

end Formula
