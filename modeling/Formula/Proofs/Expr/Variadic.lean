import Formula.Expr.Query
import Formula.Proofs.Expr.Subterms

namespace Formula.Expr

/-- The formula at the end of a path of operand numbers, which count from zero. -/
def at? (e : Expr) : List Nat → Option Expr
  | [] => some e
  | i :: path =>
    match e.operands[i]? with
    | some f => f.at? path
    | none => none

def IsVariadic (e : Expr) : Prop :=
  e.operation?.map Operation.arity = some .any

/-- Every operation over any number of operands is reached through first operands only. -/
def Leading (e : Expr) : Prop :=
  ∀ path f, e.at? path = some f → f.IsVariadic → ∀ i ∈ path, i = 0

theorem at?_cons {e f : Expr} {i : Nat} (operand : e.operands[i]? = some f) (path : List Nat) :
    e.at? (i :: path) = f.at? path := by
  rw [at?, operand]

theorem at?_operand {e g : Expr} {i : Nat} {path : List Nat} (found : e.at? (i :: path) = some g) :
    ∃ f, e.operands[i]? = some f ∧ f.at? path = some g := by
  rw [at?] at found
  split at found
  · next f operand => exact ⟨f, operand, found⟩
  · cases found

theorem hasVariadic_leaf {e : Expr} (leaf : e.operation? = none) : e.hasVariadic = false := by
  cases e <;> cases leaf <;> rfl

theorem hasVariadic_node {e : Expr} {op : Operation} (operation : e.operation? = some op) :
    e.hasVariadic = (op.arity == .any || e.operands.any hasVariadic) := by
  have folded := fold_build? (fun _ => false) (fun _ => false)
    (fun op found => op.arity == .any || found.any id) (build?_operands operation)
  rw [List.any_map] at folded
  exact folded

theorem isVariadic_iff {e : Expr} {op : Operation} (operation : e.operation? = some op) :
    e.IsVariadic ↔ op.arity = .any := by
  rw [IsVariadic, operation]
  simp

theorem hasVariadic_iff {e : Expr} :
    e.hasVariadic = true ↔ ∃ path f, e.at? path = some f ∧ f.IsVariadic := by
  induction e using node_induction with
  | leaf e none =>
    have noOperands := operands_leaf none
    rw [hasVariadic_leaf none]
    constructor
    · intro impossible
      cases impossible
    · rintro ⟨path, f, found, variadic⟩
      cases path with
      | nil =>
        cases found
        rw [IsVariadic, none] at variadic
        cases variadic
      | cons i path =>
        obtain ⟨g, operand, -⟩ := at?_operand found
        rw [noOperands] at operand
        cases operand
  | node e op operation ih =>
    rw [hasVariadic_node operation, Bool.or_eq_true, List.any_eq_true, beq_iff_eq]
    constructor
    · rintro (any | ⟨g, mem, inner⟩)
      · exact ⟨[], e, rfl, (isVariadic_iff operation).mpr any⟩
      · obtain ⟨path, f, found, variadic⟩ := (ih g mem).mp inner
        obtain ⟨i, operand⟩ := List.getElem?_of_mem mem
        exact ⟨i :: path, f, (at?_cons operand path).trans found, variadic⟩
    · rintro ⟨path, f, found, variadic⟩
      cases path with
      | nil =>
        cases found
        exact .inl ((isVariadic_iff operation).mp variadic)
      | cons i path =>
        obtain ⟨g, operand, rest⟩ := at?_operand found
        have mem := List.mem_of_getElem? operand
        exact .inr ⟨g, mem, (ih g mem).mpr ⟨path, f, rest, variadic⟩⟩

/-- Formulas of which only the first may hold operations over any number of operands, and those in
leading position. -/
def Settled : List Expr → Prop
  | [] => True
  | e :: rest => e.Leading ∧ ∀ f ∈ rest, f.hasVariadic = false

theorem leading_of_not_hasVariadic {e : Expr} (none : e.hasVariadic = false) : e.Leading := by
  intro path f found variadic
  have some := hasVariadic_iff.mpr ⟨path, f, found, variadic⟩
  rw [none] at some
  cases some

theorem settled_of_leading {e : Expr} (leading : e.Leading) : Settled e.operands := by
  cases operands : e.operands with
  | nil => trivial
  | cons first rest =>
    have head : e.operands[0]? = some first := by rw [operands]; rfl
    constructor
    · intro path f found variadic i mem
      exact leading (0 :: path) f ((at?_cons head path).trans found) variadic i
        (List.mem_cons_of_mem 0 mem)
    · intro g mem
      obtain ⟨i, operand⟩ := List.getElem?_of_mem mem
      have later : e.operands[i + 1]? = some g := by rw [operands]; exact operand
      cases inner : g.hasVariadic with
      | false => rfl
      | true =>
        obtain ⟨path, f, found, variadic⟩ := hasVariadic_iff.mp inner
        have zero := leading ((i + 1) :: path) f ((at?_cons later path).trans found) variadic
          (i + 1) (List.mem_cons_self ..)
        cases zero

theorem leading_of_settled {e : Expr} (settled : Settled e.operands) : e.Leading := by
  intro path f found variadic
  cases path with
  | nil =>
    intro i mem
    cases mem
  | cons i path =>
    obtain ⟨g, operand, inner⟩ := at?_operand found
    cases operands : e.operands with
    | nil =>
      rw [operands] at operand
      cases operand
    | cons first rest =>
      rw [operands] at operand settled
      cases i with
      | zero =>
        cases operand
        intro j mem
        rcases List.mem_cons.mp mem with rfl | deeper
        · rfl
        · exact settled.1 path f inner variadic j deeper
      | succ i =>
        have none := settled.2 g (List.mem_of_getElem? operand)
        have some := hasVariadic_iff.mpr ⟨path, f, inner, variadic⟩
        rw [none] at some
        cases some

theorem leading_iff {e : Expr} : e.Leading ↔ Settled e.operands :=
  ⟨settled_of_leading, leading_of_settled⟩

end Formula.Expr
