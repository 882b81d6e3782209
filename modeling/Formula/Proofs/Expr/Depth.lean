import Formula.Proofs.Expr.Nesting
import Formula.Proofs.Expr.Variadic

namespace Formula.Expr

theorem depth_leaf {e : Expr} (leaf : e.operation? = none) : e.depth = 1 := by
  cases e <;> cases leaf <;> rfl

theorem depth_node {e : Expr} {op : Operation} (operation : e.operation? = some op) :
    e.depth = 1 + (e.operands.map depth).foldr max 0 :=
  fold_build? _ _ _ (build?_operands operation)

theorem depth_pos (e : Expr) : 0 < e.depth := by
  cases operation : e.operation? with
  | none => simp [depth_leaf operation]
  | some op =>
    rw [depth_node operation]
    omega

/-- An operation without operands is as deep as a leaf. -/
theorem depth_le_iff {e : Expr} {m : Nat} : e.depth ≤ m + 1 ↔ ∀ f ∈ e.operands, f.depth ≤ m := by
  cases operation : e.operation? with
  | none => simp [depth_leaf operation, operands_leaf operation]
  | some op => simp [depth_node operation, foldr_max_le_iff, Nat.add_comm 1]

theorem depth_const (value : Float) : (const value).depth = 1 := rfl

section Operations

variable {a b c w : Expr} {es : List Expr} {m : Nat}

theorem depth_binary_le (op : BinaryOp) :
    (binary op a b).depth ≤ m + 1 ↔ a.depth ≤ m ∧ b.depth ≤ m := by
  simp [depth_le_iff, operands]

theorem depth_add_le : (a + b).depth ≤ m + 1 ↔ a.depth ≤ m ∧ b.depth ≤ m :=
  depth_binary_le .add

theorem depth_sub_le : (a - b).depth ≤ m + 1 ↔ a.depth ≤ m ∧ b.depth ≤ m :=
  depth_binary_le .sub

theorem depth_mul_le : (a * b).depth ≤ m + 1 ↔ a.depth ≤ m ∧ b.depth ≤ m :=
  depth_binary_le .mul

theorem depth_div_le : (a / b).depth ≤ m + 1 ↔ a.depth ≤ m ∧ b.depth ≤ m :=
  depth_binary_le .div

theorem depth_neg_le : (-a).depth ≤ m + 1 ↔ a.depth ≤ m := by
  change (negate a).depth ≤ m + 1 ↔ a.depth ≤ m
  simp [depth_le_iff, operands]

theorem depth_mean_le : (mean es).depth ≤ m + 1 ↔ ∀ e ∈ es, e.depth ≤ m :=
  depth_le_iff

theorem depth_gauss_le : (gauss a b w c).depth ≤ m + 1 ↔
    a.depth ≤ m ∧ b.depth ≤ m ∧ w.depth ≤ m ∧ c.depth ≤ m := by
  simp [depth_le_iff, operands]

end Operations

theorem nesting_lt_of_operand {e f : Expr} (operand : f ∈ e.operands) : f.nesting < e.nesting := by
  cases operation : e.operation? with
  | none =>
    rw [operands_leaf operation] at operand
    cases operand
  | some op =>
    have among : f.nesting ≤ (e.operands.map nesting).foldr max 0 :=
      foldr_max_le_iff.mp (Nat.le_refl _) _ (List.mem_map_of_mem operand)
    rw [nesting_node operation]
    omega

theorem nesting_le_depth (e : Expr) : e.nesting ≤ e.depth := by
  induction e using node_induction with
  | leaf e none => simp [nesting_leaf none]
  | node e op operation ih =>
    have inner : ∀ f ∈ e.operands, f.nesting ≤ (e.operands.map depth).foldr max 0 := by
      intro f mem
      have among := foldr_max_le_iff.mp (Nat.le_refl _) f.depth (List.mem_map_of_mem mem)
      exact Nat.le_trans (ih f mem) among
    have below := foldr_max_le_iff.mpr (List.forall_mem_map.mpr inner)
    rw [nesting_node operation, depth_node operation]
    omega

theorem nesting_add_length_le {e f : Expr} {path : List Nat} (found : e.at? path = some f) :
    f.nesting + path.length ≤ e.nesting := by
  induction path generalizing e with
  | nil =>
    cases found
    exact Nat.le_refl _
  | cons i path ih =>
    obtain ⟨g, operand, rest⟩ := at?_operand found
    have below := nesting_lt_of_operand (List.mem_of_getElem? operand)
    have inner := ih rest
    simp only [List.length_cons]
    omega

end Formula.Expr
