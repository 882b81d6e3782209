import Mathlib.Order.Monotone.Basic
import Formula.Proofs.Derivative.Rules
import Formula.Proofs.Expr.Depth
import Formula.Proofs.Reading.Nesting
import Formula.Proofs.Reading.Unbracketed

/-!
How much deeper than a formula its derivatives are. A rule puts at most ten levels over the operands
and their derivatives; ten are those over the derivative of the width of a bell curve. Only a
variance of nothing has no operands and yet a derivative deeper than itself.
-/

namespace Formula

theorem parse_render_within {n : Notation} {e : Expr} {m : Nat} (leading : n = .bare → e.Leading)
    (within : e.nesting ≤ m) : parse n (some m) (e.render n) = .ok e := by
  cases n with
  | bare => exact parse_leading leading
  | operatorFirst => exact (parse_render_limit_iff .first e m).mpr within
  | operatorLast => exact (parse_render_limit_iff .last e m).mpr within

namespace Expr

section Rules

variable {a a' b b' c c' x x' : Expr} {m : Nat}

theorem depth_productRule_le : (productRule a a' b b').depth ≤ m + 2 ↔
    (a'.depth ≤ m ∧ b.depth ≤ m) ∧ a.depth ≤ m ∧ b'.depth ≤ m := by
  simp only [productRule, depth_add_le, depth_mul_le]

theorem depth_quotientRule_le : (quotientRule a a' b b').depth ≤ m + 3 ↔
    ((a'.depth ≤ m ∧ b.depth ≤ m) ∧ a.depth ≤ m ∧ b'.depth ≤ m) ∧ b.depth ≤ m + 1 := by
  simp only [quotientRule, depth_div_le, depth_sub_le, depth_mul_le, and_self]

theorem depth_binaryRule_le (op : BinaryOp) (ha : a.depth ≤ m) (ha' : a'.depth ≤ m)
    (hb : b.depth ≤ m) (hb' : b'.depth ≤ m) : (binaryRule op a a' b b').depth ≤ m + 3 := by
  cases op with
  | add =>
    simp only [binaryRule, depth_add_le]
    omega
  | sub =>
    simp only [binaryRule, depth_sub_le]
    omega
  | mul =>
    simp only [binaryRule, depth_productRule_le]
    omega
  | div =>
    simp only [binaryRule, depth_quotientRule_le]
    omega

theorem depth_gaussRule_le (pos : 0 < m) (ha : a.depth ≤ m) (ha' : a'.depth ≤ m)
    (hb : b.depth ≤ m) (hb' : b'.depth ≤ m) (hc : c.depth ≤ m) (hc' : c'.depth ≤ m)
    (hx : x.depth ≤ m) (hx' : x'.depth ≤ m) :
    (gaussRule a a' b b' c c' x x').depth ≤ m + 10 := by
  simp only [gaussRule, depth_add_le, depth_mul_le, depth_neg_le, depth_quotientRule_le,
    depth_productRule_le, depth_sub_le, depth_gauss_le, depth_const]
  omega

end Rules

section Operands

variable {name : String} {m : Nat}

theorem depth_derivative_variance_le {es : List Expr} (pos : 0 < m)
    (bounded : ∀ e ∈ es, e.depth ≤ m ∧ (e.derivative name).depth ≤ m) :
    ((variance es).derivative name).depth ≤ m + 5 := by
  have center : (mean es).depth ≤ m + 1 := by
    rw [depth_mean_le]
    exact fun e mem => (bounded e mem).1
  have center' : (mean (es.map (derivative name))).depth ≤ m + 1 := by
    rw [depth_mean_le, List.forall_mem_map]
    exact fun e mem => (bounded e mem).2
  rw [derivative_variance, depth_mul_le, depth_const, depth_mean_le, List.forall_mem_map]
  refine ⟨by omega, ?_⟩
  intro e mem
  have operand := bounded e mem
  rw [depth_mul_le, depth_sub_le, depth_sub_le]
  omega

theorem depth_derivative_of_operands {e : Expr} (pos : 0 < m)
    (bounded : ∀ f ∈ e.operands, f.depth ≤ m ∧ (f.derivative name).depth ≤ m) :
    (e.derivative name).depth ≤ m + 10 := by
  cases e with
  | const value => simp [derivative, depth_const]
  | var v => simp [derivative, depth_const]
  | binary op left right =>
    simp only [operands, List.forall_mem_cons] at bounded
    obtain ⟨⟨ha, ha'⟩, ⟨hb, hb'⟩, -⟩ := bounded
    have rule := depth_binaryRule_le op ha ha' hb hb'
    exact Nat.le_trans rule (by omega)
  | negate operand =>
    simp only [operands, List.forall_mem_cons] at bounded
    have rule : (-operand.derivative name).depth ≤ m + 1 := depth_neg_le.mpr bounded.1.2
    exact Nat.le_trans rule (by omega)
  | statistic s es =>
    cases s with
    | mean =>
      rw [derivative_mean, depth_mean_le, List.forall_mem_map]
      intro f mem
      have operand := bounded f mem
      omega
    | variance =>
      have rule := depth_derivative_variance_le pos bounded
      exact Nat.le_trans rule (by omega)
  | gauss a c w p =>
    simp only [operands, List.forall_mem_cons] at bounded
    obtain ⟨⟨ha, ha'⟩, ⟨hc, hc'⟩, ⟨hw, hw'⟩, ⟨hp, hp'⟩, -⟩ := bounded
    exact depth_gaussRule_le pos ha ha' hc hc' hw hw' hp hp'

theorem depth_derivative_without_operands {e : Expr} (none : e.operands = []) :
    (e.derivative name).depth ≤ 2 := by
  cases e with
  | const value => simp [derivative, depth_const]
  | var v => simp [derivative, depth_const]
  | statistic s es =>
    cases none
    cases s with
    | mean => exact Nat.le_succ 1
    | variance => exact Nat.le_refl 2
  | _ => cases none

end Operands

theorem depth_derivative_add_le (e : Expr) (name : String) :
    (e.derivative name).depth + 8 ≤ 10 * e.depth := by
  induction e using operand_induction with
  | step e ih =>
    obtain ⟨m, deep⟩ := Nat.exists_eq_succ_of_ne_zero (Nat.ne_of_gt e.depth_pos)
    have shallower : ∀ f ∈ e.operands, f.depth ≤ m := depth_le_iff.mp (Nat.le_of_eq deep)
    -- Without operands a rule may still add a level, the second one for a variance of nothing.
    cases some : e.operands with
    | nil =>
      have shallow : (e.derivative name).depth ≤ 2 := depth_derivative_without_operands some
      omega
    | cons first rest =>
      -- An operand makes `m` positive, so the bound for its derivative is one for itself.
      have pos : 0 < m := by
        have leaf := first.depth_pos
        have operand := shallower first (by simp [some])
        omega
      have rule : (e.derivative name).depth ≤ (10 * m - 8) + 10 := by
        apply depth_derivative_of_operands (by omega)
        intro f mem
        have operand := shallower f mem
        have derivative := ih f mem
        omega
      omega

/-- What the depth of a derivative does not exceed, by the depth of the formula. -/
def deepened (depth : Nat) : Nat :=
  10 * depth - 8

theorem deepened_monotone : Monotone deepened := by
  intro depth deeper le
  unfold deepened
  omega

theorem deepened_iterate_le (steps depth : Nat) :
    deepened^[steps] depth ≤ 10 ^ steps * depth := by
  induction steps generalizing depth with
  | zero => simp
  | succ steps ih =>
    calc
      deepened^[steps + 1] depth = deepened^[steps] (deepened depth) := rfl
      _ ≤ 10 ^ steps * deepened depth := ih _
      _ ≤ 10 ^ steps * (10 * depth) := Nat.mul_le_mul_left _ (Nat.sub_le ..)
      _ = 10 ^ (steps + 1) * depth := by rw [Nat.pow_succ, Nat.mul_assoc]

theorem depth_derivative_le (e : Expr) (name : String) :
    (e.derivative name).depth ≤ deepened e.depth := by
  have bound := e.depth_derivative_add_le name
  unfold deepened
  omega

theorem depth_derivativeBy_le (e : Expr) (names : List String) :
    (e.derivativeBy names).depth ≤ deepened^[names.length] e.depth := by
  induction names generalizing e with
  | nil => exact Nat.le_refl _
  | cons name names ih =>
    calc
      (e.derivativeBy (name :: names)).depth = ((e.derivative name).derivativeBy names).depth := rfl
      _ ≤ deepened^[names.length] (e.derivative name).depth := ih _
      _ ≤ deepened^[names.length] (deepened e.depth) :=
        deepened_monotone.iterate _ (e.depth_derivative_le name)

/-- Bell curves, each in the width of the next, around a variance of nothing. -/
def nestedWidths : Nat → Expr
  | 0 => .variance []
  | k + 1 => .gauss (.const 1) (.const 0) (nestedWidths k) (.var .x)

theorem depth_nestedWidths (k : Nat) : (nestedWidths k).depth = k + 1 := by
  induction k with
  | zero => rfl
  | succ k ih =>
    change 1 + max 1 (max 1 (max (nestedWidths k).depth (max 1 0))) = k + 1 + 1
    omega

theorem at?_derivative_gauss (a c w p : Expr) (name : String) :
    ((gauss a c w p).derivative name).at? [1, 1, 0, 0, 1, 1, 1, 1, 0, 0] =
      some (w.derivative name) := rfl

theorem le_nesting_nestedWidths (k : Nat) (name : String) :
    deepened (k + 1) ≤ ((nestedWidths k).derivative name).nesting := by
  induction k with
  | zero => exact Nat.le_refl 2
  | succ k ih =>
    have inner : ((nestedWidths k).derivative name).nesting + 10 ≤
        ((nestedWidths (k + 1)).derivative name).nesting :=
      nesting_add_length_le (at?_derivative_gauss _ _ (nestedWidths k) _ name)
    unfold deepened at ih ⊢
    omega

theorem derivative_nestedWidths (k : Nat) (name : String) :
    ((nestedWidths k).derivative name).depth = deepened (k + 1) ∧
      ((nestedWidths k).derivative name).nesting = deepened (k + 1) := by
  have deep := (nestedWidths k).depth_derivative_le name
  have nested := ((nestedWidths k).derivative name).nesting_le_depth
  have lower := le_nesting_nestedWidths k name
  rw [depth_nestedWidths] at deep
  omega

/-- A derivative is at most ten times as deep as its formula, less eight, and derivatives by names in
turn at most so with each name. That many open brackets are limit enough to read what is written for
them. For no depth would less do, neither for the derivative nor for the limit. -/
theorem derivative_depth (e : Expr) (names : List String) :
    (∀ name, (e.derivative name).depth ≤ 10 * e.depth - 8) ∧
    (e.derivativeBy names).depth ≤ deepened^[names.length] e.depth ∧
    deepened^[names.length] e.depth ≤ 10 ^ names.length * e.depth ∧
    (∀ n limit, (n = .bare → (e.derivativeBy names).Leading) →
      deepened^[names.length] e.depth ≤ limit →
      parse n (some limit) ((e.derivativeBy names).render n) = .ok (e.derivativeBy names)) ∧
    ∀ k, ∃ f : Expr, f.depth = k + 1 ∧ ∀ name,
      (f.derivative name).depth = 10 * (k + 1) - 8 ∧
      ∀ p : Place, ∀ limit < 10 * (k + 1) - 8, ∃ place,
        parse p.notation (some limit) ((f.derivative name).render p.notation) =
          .error ⟨.tooDeep limit, place⟩ := by
  refine ⟨e.depth_derivative_le, e.depth_derivativeBy_le names, deepened_iterate_le _ _, ?_, ?_⟩
  · intro n limit leading enough
    have deep := e.depth_derivativeBy_le names
    have nested := (e.derivativeBy names).nesting_le_depth
    exact parse_render_within leading (by omega)
  · intro k
    refine ⟨nestedWidths k, depth_nestedWidths k, ?_⟩
    intro name
    obtain ⟨deep, nested⟩ := derivative_nestedWidths k name
    refine ⟨deep, ?_⟩
    intro p limit short
    apply parse_render_tooDeep
    rw [nested]
    exact short

theorem derivative_depth_width :
    (gauss (const 1) (const 0) (variance []) (var .x)).depth = 2 ∧
    ((gauss (const 1) (const 0) (variance []) (var .x)).derivative "x").depth = 12 ∧
    deepened^[2] 2 = 112 ∧
    parse .operatorLast (some 112)
        (((gauss (const 1) (const 0) (variance []) (var .x)).derivativeBy ["x", "z"]).render
          .operatorLast) =
      .ok ((gauss (const 1) (const 0) (variance []) (var .x)).derivativeBy ["x", "z"]) ∧
    parse .bare (some 12) (((mean [var .x]).derivativeBy ["x"]).render .bare) =
      .ok ((mean [var .x]).derivativeBy ["x"]) := by
  have bracketed := (gauss (const 1) (const 0) (variance []) (var .x)).derivative_depth ["x", "z"]
  have bare := (mean [var .x]).derivative_depth ["x"]
  have leading : ((mean [var .x]).derivativeBy ["x"]).Leading :=
    leading_of_settled ⟨leading_of_not_hasVariadic rfl, List.forall_mem_nil _⟩
  refine ⟨rfl, rfl, rfl, ?_, ?_⟩
  · exact bracketed.2.2.2.1 .operatorLast 112 (fun impossible => by cases impossible) (by decide)
  · exact bare.2.2.2.1 .bare 12 (fun _ => leading) (by decide)

end Expr

end Formula
