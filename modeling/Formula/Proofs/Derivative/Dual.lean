import Formula.Expr.Derivative
import Formula.Expr.Query
import Formula.Proofs.Derivative.Exact

namespace Formula

open TrivSqZeroExt (fst snd inl inr)

/-- A map between number systems that keeps every operation of formulas. -/
structure Arithmetic.Hom {α β : Type} (A : Arithmetic α) (B : Arithmetic β) (φ : α → β) : Prop where
  ofFloat : ∀ value, φ (A.ofFloat value) = B.ofFloat value
  ofNat : ∀ n, φ (A.ofNat n) = B.ofNat n
  emptySum : φ A.emptySum = B.emptySum
  add : ∀ a b, φ (A.add a b) = B.add (φ a) (φ b)
  sub : ∀ a b, φ (A.sub a b) = B.sub (φ a) (φ b)
  mul : ∀ a b, φ (A.mul a b) = B.mul (φ a) (φ b)
  div : ∀ a b, φ (A.div a b) = B.div (φ a) (φ b)
  neg : ∀ a, φ (A.neg a) = B.neg (φ a)
  exp : ∀ a, φ (A.exp a) = B.exp (φ a)

namespace Arithmetic.Hom

variable {α β : Type} {A : Arithmetic α} {B : Arithmetic β} {φ : α → β} (h : A.Hom B φ)

include h

theorem sum (values : List α) : φ (A.sum values) = B.sum (values.map φ) := by
  have fold (start : α) :
      φ (values.foldl A.add start) = (values.map φ).foldl B.add (φ start) := by
    induction values generalizing start with
    | nil => rfl
    | cons a rest ih => simp only [List.foldl_cons, List.map_cons, ih, h.add]
  simp only [Arithmetic.sum, fold, h.emptySum]

theorem mean (values : List α) : φ (A.mean values) = B.mean (values.map φ) := by
  cases values with
  | nil => exact h.ofNat 0
  | cons a rest =>
    simp only [Arithmetic.mean, h.div, h.sum, h.ofNat, List.map_cons, List.length_cons,
      List.length_map]

theorem variance (values : List α) : φ (A.variance values) = B.variance (values.map φ) := by
  simp only [Arithmetic.variance, h.mean, List.map_map]
  congr 1
  apply List.map_congr_left
  intro v _
  simp only [Function.comp_apply, square, h.mul, h.sub, h.mean]

theorem gauss (a c w p : α) : φ (A.gauss a c w p) = B.gauss (φ a) (φ c) (φ w) (φ p) := by
  simp only [Arithmetic.gauss, square, h.mul, h.exp, h.div, h.neg, h.sub, h.ofNat]

theorem valueIn (point : Variable → α) (e : Expr) :
    φ (e.valueIn A point) = e.valueIn B (fun v => φ (point v)) := by
  induction e with
  | const value => exact h.ofFloat value
  | var v => rfl
  | binary op left right ihl ihr =>
    rw [Expr.valueIn, Expr.valueIn, ← ihl, ← ihr]
    cases op with
    | add => exact h.add _ _
    | sub => exact h.sub _ _
    | mul => exact h.mul _ _
    | div => exact h.div _ _
  | negate operand ih => rw [Expr.valueIn, Expr.valueIn, h.neg, ih]
  | statistic s es ih =>
    have values : (es.map (Expr.valueIn A point)).map φ =
        es.map (Expr.valueIn B fun v => φ (point v)) := by
      rw [List.map_map]
      exact List.map_congr_left ih
    simp only [Expr.valueIn, Expr.valuesIn_eq_map, ← values]
    cases s with
    | mean => exact h.mean _
    | variance => exact h.variance _
  | gauss a c w p iha ihc ihw ihp =>
    simp only [Expr.valueIn, h.gauss, iha, ihc, ihw, ihp]

end Arithmetic.Hom

namespace Arithmetic

variable {K : Type} [Field K] (exp : K → K)

theorem hom_fst : (dual exp).Hom (exact exp) fst := by
  constructor <;> intros <;> simp [dual, exact, div_eq_mul_inv]

theorem hom_inl : (exact exp).Hom (dual exp) inl := by
  constructor <;> intros <;> ext <;> simp [dual, exact, div_eq_mul_inv]

theorem exact_mean_mul_left {ι : Type} (k : K) (items : List ι) (f : ι → K) :
    (exact exp).mean (items.map fun i => k * f i) = k * (exact exp).mean (items.map f) := by
  rw [exact_mean, exact_mean, List.sum_map_mul_left, List.length_map, List.length_map,
    mul_div_assoc]

/- The second part of each operation of dual numbers. -/

theorem snd_div (a b : DualNumber K) (nonzero : b.fst ≠ 0) :
    ((dual exp).div a b).snd = (a.snd * b.fst - a.fst * b.snd) / (b.fst * b.fst) := by
  simp only [dual, TrivSqZeroExt.snd_mul, TrivSqZeroExt.snd_inv, TrivSqZeroExt.fst_inv,
    MulOpposite.smul_eq_mul_unop, MulOpposite.unop_op, smul_eq_mul]
  field_simp
  ring

theorem snd_mean (values : List (DualNumber K)) :
    ((dual exp).mean values).snd = (exact exp).mean (values.map snd) := by
  have total : values.sum.snd = (values.map snd).sum :=
    map_list_sum (TrivSqZeroExt.sndHom K K) values
  rw [dual_mean, exact_mean]
  simp [total, div_eq_mul_inv]

theorem snd_variance (values : List (DualNumber K)) :
    ((dual exp).variance values).snd =
      2 * (exact exp).mean (values.map fun v =>
        (v.fst - (exact exp).mean (values.map fst)) *
          (v.snd - (exact exp).mean (values.map snd))) := by
  have center : ((dual exp).mean values).fst = (exact exp).mean (values.map fst) :=
    (hom_fst exp).mean values
  have square (v : DualNumber K) :
      ((dual exp).square ((dual exp).sub v ((dual exp).mean values))).snd =
      2 * ((v.fst - (exact exp).mean (values.map fst)) *
        (v.snd - (exact exp).mean (values.map snd))) := by
    rw [← center, ← snd_mean]
    change ((v - (dual exp).mean values) * (v - (dual exp).mean values)).snd = _
    simp only [TrivSqZeroExt.snd_mul, TrivSqZeroExt.fst_sub, TrivSqZeroExt.snd_sub,
      MulOpposite.smul_eq_mul_unop, MulOpposite.unop_op, smul_eq_mul]
    ring
  simp only [variance, snd_mean exp (values.map _), List.map_map, Function.comp_def, square,
    exact_mean_mul_left]

theorem snd_gauss (a c w p : DualNumber K) (nonzero : w.fst ≠ 0) (two : (2 : K) ≠ 0) :
    ((dual exp).gauss a c w p).snd =
      a.snd * (exact exp).gauss 1 c.fst w.fst p.fst +
        (exact exp).gauss a.fst c.fst w.fst p.fst *
          ((p.fst - c.fst) * ((p.fst - c.fst) * w.snd - w.fst * (p.snd - c.snd)) /
            (w.fst * w.fst * w.fst)) := by
  have fst_two : (((2 : ℕ) : DualNumber K)).fst = 2 := by rw [TrivSqZeroExt.fst_natCast]; norm_num
  have snd_two : (((2 : ℕ) : DualNumber K)).snd = 0 := TrivSqZeroExt.snd_natCast 2
  set exponent : DualNumber K :=
    (dual exp).div (-((p - c) * (p - c))) (((2 : ℕ) : DualNumber K) * w * w) with definition
  have first : exponent.fst = -((p.fst - c.fst) * (p.fst - c.fst)) / (2 * w.fst * w.fst) := by
    rw [definition, (hom_fst exp).div]
    simp [exact, fst_two, -Nat.cast_ofNat]
  have second : exponent.snd =
      (p.fst - c.fst) * ((p.fst - c.fst) * w.snd - w.fst * (p.snd - c.snd)) /
        (w.fst * w.fst * w.fst) := by
    rw [definition, snd_div]
    · simp [fst_two, snd_two, -Nat.cast_ofNat]
      field_simp
      ring
    · simp [fst_two, nonzero, two, -Nat.cast_ofNat]
  change (a * (inl (exp exponent.fst) + inr (exponent.snd * exp exponent.fst))).snd = _
  rw [first, second]
  simp [gauss, square, exact]
  ring

end Arithmetic

namespace Expr

variable {K : Type} [Field K] (exp : K → K) (point : Variable → K)

/-- Exact arithmetic gives the formula a value at the point: its constants are finite, and no divisor
and no width of a bell curve that occurs in it is zero there. -/
structure Regular (e : Expr) : Prop where
  finite : ∀ value ∈ e.constants, value.isFinite = true
  nonzero : ∀ d ∈ e.denominators, d.valueIn (Arithmetic.exact exp) point ≠ 0

variable {exp point}

theorem Regular.operand {e f : Expr} (h : e.Regular exp point) (operand : f ∈ e.operands) :
    f.Regular exp point :=
  ⟨fun value occurs => h.finite value (constants_subset operand occurs),
    fun d occurs => h.nonzero d (denominators_subset operand occurs)⟩

theorem Regular.denominator {e d : Expr} (h : e.Regular exp point)
    (divides : e.denominator? = some d) : d.valueIn (Arithmetic.exact exp) point ≠ 0 :=
  h.nonzero d (denominator_mem divides)

variable (exp point)

abbrev exactly (e : Expr) : K :=
  e.valueIn (Arithmetic.exact exp) point

theorem exactly_add (a b : Expr) :
    (a + b).exactly exp point = a.exactly exp point + b.exactly exp point := rfl

theorem exactly_sub (a b : Expr) :
    (a - b).exactly exp point = a.exactly exp point - b.exactly exp point := rfl

theorem exactly_mul (a b : Expr) :
    (a * b).exactly exp point = a.exactly exp point * b.exactly exp point := rfl

theorem exactly_div (a b : Expr) :
    (a / b).exactly exp point = a.exactly exp point / b.exactly exp point := rfl

theorem exactly_neg (a : Expr) : (-a).exactly exp point = -a.exactly exp point := rfl

theorem exactly_mean (es : List Expr) :
    (mean es).exactly exp point = (Arithmetic.exact exp).mean (es.map (exactly exp point)) := by
  simp only [exactly, valueIn, valuesIn_eq_map, Arithmetic.statistic]

theorem exactly_gauss (a c w p : Expr) :
    (gauss a c w p).exactly exp point = (Arithmetic.exact exp).gauss (a.exactly exp point)
      (c.exactly exp point) (w.exactly exp point) (p.exactly exp point) := rfl

theorem exactly_zero : (const 0).exactly exp point = 0 := rfl

/-- The dual number of the value of one formula and, as its derivative, the value of another. -/
def pair (e e' : Expr) : DualNumber K :=
  inl (e.exactly exp point) + inr (e'.exactly exp point)

@[simp] theorem fst_pair (e e' : Expr) : (pair exp point e e').fst = e.exactly exp point := by
  simp [pair]

@[simp] theorem snd_pair (e e' : Expr) : (pair exp point e e').snd = e'.exactly exp point := by
  simp [pair]

/- Each rule for derivatives gives the second part of its operation in dual numbers. -/

theorem snd_binary (op : BinaryOp) (l l' r r' : Expr)
    (nonzero : op = .div → r.exactly exp point ≠ 0) :
    ((Arithmetic.dual exp).binary op (pair exp point l l') (pair exp point r r')).snd =
      (binaryRule op l l' r r').exactly exp point := by
  cases op with
  | add => simp [Arithmetic.binary, Arithmetic.dual, binaryRule, exactly_add]
  | sub => simp [Arithmetic.binary, Arithmetic.dual, binaryRule, exactly_sub]
  | mul =>
    simp [Arithmetic.binary, Arithmetic.dual, binaryRule, productRule, exactly_add, exactly_mul]
    ring
  | div =>
    rw [Arithmetic.binary, Arithmetic.snd_div exp _ _ (by simpa using nonzero rfl)]
    simp [binaryRule, quotientRule, exactly_div, exactly_sub, exactly_mul]

variable [CharZero K]

theorem exactly_one : (const 1).exactly exp point = 1 := by
  change ((2 ^ 52 : ℤ) : K) * 2 ^ (-52 : ℤ) = 1
  norm_num

theorem exactly_two : (const 2).exactly exp point = 2 := by
  change ((2 ^ 52 : ℤ) : K) * 2 ^ (-51 : ℤ) = 2
  norm_num

theorem snd_statistic (s : Statistic) (es : List Expr) (f : Expr → Expr) :
    ((Arithmetic.dual exp).statistic s (es.map fun e => pair exp point e (f e))).snd =
      (statisticRule s es (es.map f)).exactly exp point := by
  cases s with
  | mean =>
    rw [Arithmetic.statistic, Arithmetic.snd_mean, statisticRule, exactly_mean]
    simp [List.map_map, Function.comp_def]
  | variance =>
    rw [Arithmetic.statistic, Arithmetic.snd_variance, statisticRule, varianceRule]
    simp [exactly_mul, exactly_two, exactly_mean, exactly_sub, List.zipWith_map_right,
      List.zipWith_self, List.map_map, Function.comp_def]

theorem snd_gauss (a a' c c' w w' p p' : Expr) (nonzero : w.exactly exp point ≠ 0) :
    ((Arithmetic.dual exp).gauss (pair exp point a a') (pair exp point c c') (pair exp point w w')
      (pair exp point p p')).snd = (gaussRule a a' c c' w w' p p').exactly exp point := by
  rw [Arithmetic.snd_gauss exp _ _ _ _ (by simpa using nonzero) two_ne_zero]
  simp only [fst_pair, snd_pair, gaussRule, quotientRule, productRule, exactly_add, exactly_mul,
    exactly_neg, exactly_div, exactly_sub, exactly_two, exactly_zero, exactly_gauss, exactly_one]
  congr 2
  field_simp
  ring

/-- The point of dual numbers at which the variable of that name moves at speed one. -/
def seed (name : String) (v : Variable) : DualNumber K :=
  inl (point v) + inr (if v.name = name then 1 else 0)

omit [CharZero K] in
theorem fst_valueIn_dual (name : String) (e : Expr) :
    (e.valueIn (Arithmetic.dual exp) (seed point name)).fst = e.exactly exp point := by
  have fst_seed (v : Variable) : (seed point name v).fst = point v := by
    rw [seed, TrivSqZeroExt.fst_add, TrivSqZeroExt.fst_inl, TrivSqZeroExt.fst_inr, add_zero]
  rw [(Arithmetic.hom_fst exp).valueIn]
  simp only [fst_seed, exactly]

/-- In dual numbers the value of a formula carries the value of its derivative. -/
theorem valueIn_dual (name : String) (e : Expr) (h : e.Regular exp point) :
    e.valueIn (Arithmetic.dual exp) (seed point name) = pair exp point e (e.derivative name) := by
  -- the first parts agree in any case
  have of_snd {f : Expr} (second : (f.valueIn (Arithmetic.dual exp) (seed point name)).snd =
      (f.derivative name).exactly exp point) :
      f.valueIn (Arithmetic.dual exp) (seed point name) = pair exp point f (f.derivative name) :=
    TrivSqZeroExt.ext (by rw [fst_valueIn_dual, fst_pair]) (by rw [second, snd_pair])
  induction e with
  | const value => exact of_snd rfl
  | var v =>
    apply of_snd
    change (seed point name v).snd = _
    rw [derivative, seed, TrivSqZeroExt.snd_add, TrivSqZeroExt.snd_inl, TrivSqZeroExt.snd_inr,
      zero_add]
    split
    · rw [exactly_one]
    · rw [exactly_zero]
  | binary op left right ihl ihr =>
    apply of_snd
    rw [valueIn, ihl (h.operand (by simp [operands])), ihr (h.operand (by simp [operands])),
      snd_binary exp point op _ _ _ _ (fun division => h.denominator (by rw [division]; rfl)),
      derivative]
  | negate operand ih =>
    apply of_snd
    rw [valueIn, ih (h.operand (by simp [operands]))]
    simp [Arithmetic.dual, derivative, exactly_neg]
  | statistic s es ih =>
    apply of_snd
    have values : es.map (valueIn (Arithmetic.dual exp) (seed point name)) =
        es.map fun e => pair exp point e (e.derivative name) :=
      List.map_congr_left fun e occurs => ih e occurs (h.operand occurs)
    rw [valueIn, valuesIn_eq_map, values, snd_statistic, derivative, derivatives_eq_map]
  | gauss a c w p iha ihc ihw ihp =>
    apply of_snd
    rw [valueIn, iha (h.operand (by simp [operands])), ihc (h.operand (by simp [operands])),
      ihw (h.operand (by simp [operands])), ihp (h.operand (by simp [operands])),
      snd_gauss exp point _ _ _ _ _ _ _ _ (h.denominator rfl), derivative]

end Expr

end Formula
