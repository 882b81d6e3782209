import Formula.Proofs.Expr.Subterms

namespace Formula.Expr

/-- The greatest number of operations that lie within each other; leaves do not count. -/
def nesting : Expr → Nat :=
  fold (fun _ => 0) (fun _ => 0) fun _ inner => 1 + inner.foldr max 0

/-- The nodes on a path of operand numbers, which count from zero, the root and the last node
included. -/
def way? (e : Expr) : List Nat → Option (List Expr)
  | [] => some [e]
  | i :: path =>
    match e.operands[i]? with
    | some f => (f.way? path).map (e :: ·)
    | none => none

theorem nesting_leaf {e : Expr} (leaf : e.operation? = none) : e.nesting = 0 := by
  cases e <;> cases leaf <;> rfl

theorem nesting_node {e : Expr} {op : Operation} (operation : e.operation? = some op) :
    e.nesting = 1 + (e.operands.map nesting).foldr max 0 :=
  fold_build? _ _ _ (build?_operands operation)

theorem foldr_max_le_iff {xs : List Nat} {m : Nat} : xs.foldr max 0 ≤ m ↔ ∀ x ∈ xs, x ≤ m := by
  induction xs with
  | nil => simp
  | cons x xs ih => simp only [List.foldr_cons, Nat.max_le, ih, List.forall_mem_cons]

theorem way?_cons {e f : Expr} {i : Nat} (operand : e.operands[i]? = some f) (path : List Nat) :
    e.way? (i :: path) = (f.way? path).map (e :: ·) := by
  simp only [way?, operand]

theorem way?_operand {e : Expr} {i : Nat} {path : List Nat} {nodes : List Expr}
    (found : e.way? (i :: path) = some nodes) :
    ∃ f rest, f ∈ e.operands ∧ f.way? path = some rest ∧ nodes = e :: rest := by
  simp only [way?] at found
  split at found
  · next f operand =>
    obtain ⟨rest, inner, rfl⟩ := Option.map_eq_some_iff.mp found
    exact ⟨f, rest, List.mem_of_getElem? operand, inner, rfl⟩
  · cases found

theorem nesting_le_iff {e : Expr} {m : Nat} :
    e.nesting ≤ m ↔
      ∀ path nodes, e.way? path = some nodes → nodes.countP (·.operation?.isSome) ≤ m := by
  induction e using node_induction generalizing m with
  | leaf e none =>
    have noOperands := operands_leaf none
    simp only [nesting_leaf none, Nat.zero_le, true_iff]
    intro path nodes found
    cases path with
    | nil =>
      cases found
      simp [none]
    | cons i path =>
      obtain ⟨f, rest, mem, -⟩ := way?_operand found
      rw [noOperands] at mem
      cases mem
  | node e op operation ih =>
    have counted (rest : List Expr) :
        (e :: rest).countP (·.operation?.isSome) = rest.countP (·.operation?.isSome) + 1 := by
      simp [operation]
    -- the root counts for one, so the operands have one less to go
    have deeper : e.nesting ≤ m ↔ 1 ≤ m ∧ ∀ f ∈ e.operands, f.nesting ≤ m - 1 := by
      have below : (e.operands.map nesting).foldr max 0 ≤ m - 1 ↔
          ∀ f ∈ e.operands, f.nesting ≤ m - 1 := by
        rw [foldr_max_le_iff, List.forall_mem_map]
      rw [nesting_node operation, ← below]
      omega
    rw [deeper]
    constructor
    · rintro ⟨some, inner⟩ path nodes found
      cases path with
      | nil =>
        cases found
        rw [counted]
        exact some
      | cons i path =>
        obtain ⟨f, rest, mem, deep, rfl⟩ := way?_operand found
        have below := (ih f mem).mp (inner f mem) path rest deep
        rw [counted]
        omega
    · intro all
      constructor
      · have root := all [] [e] rfl
        rw [counted] at root
        exact root
      · intro f mem
        apply (ih f mem).mpr
        intro path rest found
        obtain ⟨i, operand⟩ := List.getElem?_of_mem mem
        have whole := all (i :: path) (e :: rest) (by rw [way?_cons operand, found]; rfl)
        rw [counted] at whole
        omega

end Formula.Expr
