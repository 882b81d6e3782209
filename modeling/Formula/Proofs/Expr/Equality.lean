import Formula.Expr.Written
import Formula.Proofs.Derivative.Matching
import Formula.Proofs.Expr.Same
import Formula.Proofs.Number.Equality

/-!
Equality of formulas, which compares their numbers as doubles are compared. It is symmetric and
transitive, and neither derivatives nor questions about the shape tell equal formulas apart. Only
zeros of different signs are equal without being the same.
-/

namespace Formula.Expr

theorem sameAll_iff {es fs : List Expr} :
    sameAll es fs = true ↔ List.Forall₂ (fun e f => same e f = true) es fs := by
  induction es generalizing fs with
  | nil => cases fs <;> simp [sameAll]
  | cons e es ih => cases fs <;> simp [sameAll, ih]

theorem matches_of_same {a b : Expr} (equal : same a b = true) :
    Matches (fun u w => (u == w) = true) Eq a b := by
  induction a generalizing b with
  | const value =>
    cases b with
    | const other => exact .const equal
    | _ => simp [same] at equal
  | var v =>
    cases b with
    | var w => exact .var (eq_of_beq equal)
    | _ => simp [same] at equal
  | binary op l r ihl ihr =>
    cases b with
    | binary op' l' r' =>
      simp only [same, Bool.and_eq_true, beq_iff_eq] at equal
      obtain ⟨⟨rfl, left⟩, right⟩ := equal
      exact .binary op (ihl left) (ihr right)
    | _ => simp [same] at equal
  | negate e ih =>
    cases b with
    | negate e' => exact .negate (ih equal)
    | _ => simp [same] at equal
  | statistic s es ih =>
    cases b with
    | statistic s' es' =>
      simp only [same, Bool.and_eq_true, beq_iff_eq] at equal
      obtain ⟨rfl, all⟩ := equal
      have each := (List.forall₂_and_left es es').mpr
        ⟨fun e mem f => @ih e mem f, sameAll_iff.mp all⟩
      exact .statistic s (each.imp fun _ _ both => both.1 _ both.2)
    | _ => simp [same] at equal
  | gauss a c w p iha ihc ihw ihp =>
    cases b with
    | gauss a' c' w' p' =>
      simp only [same, Bool.and_eq_true] at equal
      obtain ⟨⟨⟨amplitude, center⟩, width⟩, point⟩ := equal
      exact .gauss (iha amplitude) (ihc center) (ihw width) (ihp point)
    | _ => simp [same] at equal

theorem same_of_matches {a b : Expr} (h : Matches (fun u w => (u == w) = true) Eq a b) :
    same a b = true := by
  induction h with
  | const related => exact related
  | var related => simp [same, related]
  | binary op _ _ left right => simp [same, left, right]
  | negate _ operand => exact operand
  | statistic s _ operands =>
    have all := sameAll_iff.mpr (operands.imp fun _ _ => Exists.snd)
    simp [same, all]
  | gauss _ _ _ _ amplitude center width point => simp [same, amplitude, center, width, point]

theorem same_iff_matches {a b : Expr} :
    (a == b) = true ↔ Matches (fun u w => (u == w) = true) Eq a b :=
  ⟨matches_of_same, same_of_matches⟩

theorem same_symm {a b : Expr} (equal : (a == b) = true) : (b == a) = true := by
  rw [same_iff_matches] at equal ⊢
  exact equal.symm (fun _ _ => Number.beq_symm) fun _ _ => Eq.symm

theorem same_trans {a b c : Expr} (first : (a == b) = true) (second : (b == c) = true) :
    (a == c) = true := by
  rw [same_iff_matches] at first second ⊢
  exact first.trans second (fun _ _ _ => Number.beq_trans) fun _ _ _ => Eq.trans

theorem same_derivative {a b : Expr} (equal : (a == b) = true) (name : String) :
    (a.derivative name == b.derivative name) = true := by
  rw [same_iff_matches] at equal ⊢
  have zero : ((0 : Float) == 0) = true := by decide
  have one : ((1 : Float) == 1) = true := by decide
  have two : ((2 : Float) == 2) = true := by decide
  refine Matches.derivative zero one two ?_ equal
  rintro v w rfl
  exact Iff.rfl

theorem fold_eq_of_same {α : Type} {leaf : α} {var : Variable → α} {node : Operation → List α → α}
    {a b : Expr} (equal : (a == b) = true) :
    a.fold (fun _ => leaf) var node = b.fold (fun _ => leaf) var node := by
  refine (same_iff_matches.mp equal).fold_eq (fun _ _ _ => rfl) ?_
  rintro v w rfl
  rfl

/-- Zeros at the same place have the same sign. -/
def SameZeros (a b : Expr) : Prop :=
  ∀ path u w, a.at? path = some (.const u) → b.at? path = some (.const w) →
    ∀ s t, Number.zeroSign? u = some s → Number.zeroSign? w = some t → s = t

theorem eq_of_same {a b : Expr} (equal : (a == b) = true) (zeros : a.SameZeros b) : a = b := by
  apply Matches.eq
  apply (same_iff_matches.mp equal).of_places
  intro path u w found found' compared
  exact Number.eq_of_beq_of_signs compared (zeros path u w found found')

/-- Equality of formulas is symmetric and transitive, and it is reflexive on the formulas whose
constants are numbers. Equal formulas have equal derivatives, the same size, depth and variables,
and, if no zero of one has the other sign in the other, the same texts and values. -/
theorem same_laws (a b c : Expr) :
    ((a == b) = true → (b == a) = true) ∧
      ((a == b) = true → (b == c) = true → (a == c) = true) ∧
      ((a == a) = true ↔ ∀ value ∈ a.constants, value.isNaN = false) ∧
      ((a == b) = true →
        (∀ name, (a.derivative name == b.derivative name) = true) ∧
          a.nodeCount = b.nodeCount ∧ a.depth = b.depth ∧ (∀ v, a.contains v = b.contains v) ∧
          (a.SameZeros b →
            (∀ n, a.render n = b.render n) ∧ ∀ point, a.evaluate point = b.evaluate point)) := by
  refine ⟨same_symm, same_trans, same_self_iff, ?_⟩
  intro equal
  refine ⟨same_derivative equal, fold_eq_of_same equal, fold_eq_of_same equal,
    fun v => fold_eq_of_same equal, ?_⟩
  intro zeros
  cases eq_of_same equal zeros
  exact ⟨fun n => rfl, fun point => rfl⟩

theorem same_laws_signed :
    (var .x + const 0 == var .x + const (-0.0)) = true ∧
      (var .x + const (-0.0) == var .x + const 0) = true ∧
      ((var .x + const 0).derivative "x" == (var .x + const (-0.0)).derivative "x") = true ∧
      (var .x + const 0).depth = (var .x + const (-0.0)).depth ∧
      (var .x + const 0).render .operatorFirst ≠ (var .x + const (-0.0)).render .operatorFirst := by
  have equal : (var .x + const 0 == var .x + const (-0.0)) = true := by decide
  have laws := same_laws (var .x + const 0) (var .x + const (-0.0)) (var .x)
  exact ⟨equal, laws.1 equal, (laws.2.2.2 equal).1 "x", (laws.2.2.2 equal).2.2.1, by decide⟩

end Formula.Expr
