import Mathlib
import Formula.Expr.Query
import Formula.Proofs.Expr.Subterms

namespace Formula

theorem Number.beq_self_iff {value : Float} : (value == value) = true ↔ value.isNaN = false := by
  simp

namespace Expr

theorem mem_constants_iff {e : Expr} {value : Float} :
    value ∈ e.constants ↔ e.constant? = some value ∨ ∃ f ∈ e.operands, value ∈ f.constants :=
  mem_filterMap_subterms

theorem sameAll_self_iff {es : List Expr} :
    sameAll es es = true ↔ ∀ e ∈ es, same e e = true := by
  induction es with
  | nil => simp [sameAll]
  | cons e es ih => simp [sameAll, ih]

theorem constants_operands {e : Expr} (node : e.constant? = none) {P : Float → Prop} :
    (∀ value ∈ e.constants, P value) ↔ ∀ f ∈ e.operands, ∀ value ∈ f.constants, P value := by
  constructor
  · intro all f operand value mem
    exact all value (mem_constants_iff.mpr (.inr ⟨f, operand, mem⟩))
  · intro all value mem
    rcases mem_constants_iff.mp mem with found | ⟨f, operand, mem⟩
    · rw [node] at found
      cases found
    · exact all f operand value mem

theorem same_operands {e : Expr} (node : e.constant? = none) :
    same e e = true ↔ ∀ f ∈ e.operands, same f f = true := by
  cases e with
  | const value => cases node
  | var v => simp [same, operands]
  | binary op l r => simp [same, operands]
  | negate f => simp [same, operands]
  | statistic s es => simp [same, operands, sameAll_self_iff]
  | gauss a c w p => simp [same, operands, and_assoc]

theorem same_self_iff {e : Expr} :
    (e == e) = true ↔ ∀ value ∈ e.constants, value.isNaN = false := by
  change same e e = true ↔ _
  induction e using operand_induction with
  | step e ih =>
    cases constant : e.constant? with
    | none =>
      rw [same_operands constant, constants_operands constant]
      exact forall₂_congr ih
    | some value =>
      cases e with
      | const found =>
        cases constant
        have only : (Expr.const value).constants = [value] := rfl
        rw [only, same, Number.beq_self_iff, List.forall_mem_singleton]
      | _ => cases constant

end Expr

end Formula
