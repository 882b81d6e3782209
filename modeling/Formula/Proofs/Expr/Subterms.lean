import Formula.Expr

namespace Formula.Expr

/-- Induction by constructors. A statistic has the statement for each of its operands. -/
@[induction_eliminator]
theorem induction {motive : Expr → Prop}
    (const : ∀ value, motive (.const value))
    (var : ∀ v, motive (.var v))
    (binary : ∀ op left right, motive left → motive right → motive (.binary op left right))
    (negate : ∀ operand, motive operand → motive (.negate operand))
    (statistic : ∀ s operands, (∀ e ∈ operands, motive e) → motive (.statistic s operands))
    (gauss : ∀ amplitude center width point, motive amplitude → motive center → motive width →
      motive point → motive (.gauss amplitude center width point)) (e : Expr) : motive e :=
  @Expr.rec motive (fun es => ∀ e ∈ es, motive e) const var binary negate statistic gauss
    (by simp) (fun _ _ head tail => by simpa using ⟨head, tail⟩) e

theorem operands_leaf {e : Expr} (leaf : e.operation? = none) : e.operands = [] := by
  cases e <;> cases leaf <;> rfl

theorem node_induction {motive : Expr → Prop}
    (leaf : ∀ e, e.operation? = none → motive e)
    (node : ∀ e op, e.operation? = some op → (∀ f ∈ e.operands, motive f) → motive e)
    (e : Expr) : motive e := by
  induction e with
  | const value => exact leaf _ rfl
  | var v => exact leaf _ rfl
  | binary op left right ihl ihr => exact node _ _ rfl (by simp [operands, ihl, ihr])
  | negate operand ih => exact node _ _ rfl (by simp [operands, ih])
  | statistic s es ih => exact node _ _ rfl ih
  | gauss a c w p iha ihc ihw ihp => exact node _ _ rfl (by simp [operands, iha, ihc, ihw, ihp])

theorem operand_induction {motive : Expr → Prop}
    (step : ∀ e, (∀ f ∈ e.operands, motive f) → motive e) (e : Expr) : motive e := by
  induction e using node_induction with
  | leaf e none =>
    apply step
    intro f mem
    rw [operands_leaf none] at mem
    cases mem
  | node e op operation ih => exact step e ih

mutual

def subterms : Expr → List Expr
  | .const value => [.const value]
  | .var v => [.var v]
  | .binary op left right => .binary op left right :: (subterms left ++ subterms right)
  | .negate operand => .negate operand :: subterms operand
  | .statistic s operands => .statistic s operands :: subtermsAll operands
  | .gauss amplitude center width point =>
    .gauss amplitude center width point ::
      (subterms amplitude ++ subterms center ++ subterms width ++ subterms point)

def subtermsAll : List Expr → List Expr
  | [] => []
  | e :: rest => subterms e ++ subtermsAll rest

end

theorem subtermsAll_eq_flatMap (es : List Expr) : subtermsAll es = es.flatMap subterms := by
  induction es with
  | nil => rfl
  | cons e rest ih => simp [subtermsAll, ih]

theorem subterms_eq (e : Expr) : e.subterms = e :: e.operands.flatMap subterms := by
  cases e <;> simp [subterms, operands, subtermsAll_eq_flatMap]

theorem self_mem_subterms (e : Expr) : e ∈ e.subterms := by
  rw [subterms_eq]
  exact List.mem_cons_self

theorem mem_subterms_of_operand {e f g : Expr} (operand : f ∈ e.operands)
    (occurs : g ∈ f.subterms) : g ∈ e.subterms := by
  rw [subterms_eq]
  exact List.mem_cons_of_mem _ (List.mem_flatMap.mpr ⟨f, operand, occurs⟩)

theorem mem_filterMap_subterms {β : Type} {p : Expr → Option β} {e : Expr} {b : β} :
    b ∈ e.subterms.filterMap p ↔ p e = some b ∨ ∃ f ∈ e.operands, b ∈ f.subterms.filterMap p := by
  rw [subterms_eq]
  simp only [List.mem_filterMap, List.mem_cons, List.mem_flatMap]
  constructor
  · rintro ⟨g, rfl | ⟨f, operand, occurs⟩, found⟩
    · exact .inl found
    · exact .inr ⟨f, operand, g, occurs, found⟩
  · rintro (found | ⟨f, operand, g, occurs, found⟩)
    · exact ⟨e, .inl rfl, found⟩
    · exact ⟨g, .inr ⟨f, operand, occurs⟩, found⟩

def constant? : Expr → Option Float
  | .const value => some value
  | _ => none

def constants (e : Expr) : List Float :=
  e.subterms.filterMap constant?

/-- What a node divides by: the divisor of a quotient, the width of a bell curve. -/
def denominator? : Expr → Option Expr
  | .binary .div _ divisor => some divisor
  | .gauss _ _ width _ => some width
  | _ => none

def denominators (e : Expr) : List Expr :=
  e.subterms.filterMap denominator?

theorem constants_subset {e f : Expr} (operand : f ∈ e.operands) : f.constants ⊆ e.constants :=
  fun _ occurs => mem_filterMap_subterms.mpr (.inr ⟨f, operand, occurs⟩)

theorem denominators_subset {e f : Expr} (operand : f ∈ e.operands) :
    f.denominators ⊆ e.denominators :=
  fun _ occurs => mem_filterMap_subterms.mpr (.inr ⟨f, operand, occurs⟩)

theorem denominator_mem {e d : Expr} (h : e.denominator? = some d) : d ∈ e.denominators :=
  mem_filterMap_subterms.mpr (.inl h)

end Formula.Expr
