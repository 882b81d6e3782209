import Formula.Expr.Query
import Formula.Expr.Value
import Formula.Proofs.Expr.Subterms

namespace Formula

theorem Variable.name_injective : Function.Injective name := by
  intro v w same
  have found := ofName?_name w
  rw [← same, ofName?_name] at found
  exact Option.some.inj found

namespace Expr

theorem contains_iff_mem_subterms (e : Expr) (v : Variable) :
    e.contains v = true ↔ .var v ∈ e.subterms := by
  induction e with
  | const value => simp [contains, fold, subterms]
  | var w =>
    simp only [contains, fold, subterms, List.mem_singleton, Expr.var.injEq, beq_iff_eq]
    exact eq_comm
  | binary op left right ihl ihr => simpa [contains, fold, subterms] using or_congr ihl ihr
  | negate operand ih => simpa [contains, fold, subterms] using ih
  | statistic s es ih =>
    have operands : (∃ e ∈ es, e.contains v = true) ↔ ∃ e ∈ es, .var v ∈ e.subterms :=
      exists_congr fun e => and_congr_right fun occurs => ih e occurs
    simpa [contains, fold, foldAll_eq_map, subterms, subtermsAll_eq_flatMap] using operands
  | gauss a c w p iha ihc ihw ihp =>
    simpa [contains, fold, subterms, or_assoc] using
      or_congr iha (or_congr ihc (or_congr ihw ihp))

theorem contains_of_operand {e f : Expr} {v : Variable} (operand : f ∈ e.operands)
    (occurs : f.contains v = true) : e.contains v = true := by
  rw [contains_iff_mem_subterms] at occurs ⊢
  exact mem_subterms_of_operand operand occurs

theorem valueIn_congr {α : Type} (A : Arithmetic α) (p q : Variable → α) (e : Expr)
    (agree : ∀ v, e.contains v = true → p v = q v) : e.valueIn A p = e.valueIn A q := by
  have below {e f : Expr} (agree : ∀ v, e.contains v = true → p v = q v)
      (operand : f ∈ e.operands) :
      ∀ v, f.contains v = true → p v = q v := fun v occurs =>
    agree v (contains_of_operand operand occurs)
  induction e with
  | const value => rfl
  | var v => exact agree v ((contains_iff_mem_subterms _ v).mpr (self_mem_subterms _))
  | binary op left right ihl ihr =>
    rw [valueIn, valueIn, ihl (below agree (by simp [operands])),
      ihr (below agree (by simp [operands]))]
  | negate operand ih => rw [valueIn, valueIn, ih (below agree (by simp [operands]))]
  | statistic s es ih =>
    have values : es.map (valueIn A p) = es.map (valueIn A q) :=
      List.map_congr_left fun e occurs => ih e occurs (below agree occurs)
    rw [valueIn, valueIn, valuesIn_eq_map, valuesIn_eq_map, values]
  | gauss a c w d iha ihc ihw ihd =>
    rw [valueIn, valueIn, iha (below agree (by simp [operands])),
      ihc (below agree (by simp [operands])), ihw (below agree (by simp [operands])),
      ihd (below agree (by simp [operands]))]

end Expr

end Formula
