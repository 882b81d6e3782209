import Mathlib.Data.Set.List
import Formula.Proofs.Expr.Subterms

/-!
Formulas as plain trees: any number of operands may stand below any operation. The trees of formulas
are those in which every node has as many operands as its operation takes.
-/

namespace Formula

inductive Tree where
  | const (value : Float)
  | var (v : Variable)
  | node (op : Operation) (operands : List Tree)

namespace Tree

def operands : Tree → List Tree
  | .const _ | .var _ => []
  | .node _ operands => operands

section Fold

variable {α : Type} (const : Float → α) (var : Variable → α) (node : Operation → List α → α)

mutual

def fold : Tree → α
  | .const value => const value
  | .var v => var v
  | .node op operands => node op (foldAll operands)

def foldAll : List Tree → List α
  | [] => []
  | t :: rest => fold t :: foldAll rest

end

theorem foldAll_eq_map (ts : List Tree) :
    foldAll const var node ts = ts.map (fold const var node) := by
  induction ts with
  | nil => rfl
  | cons t rest ih => rw [foldAll, ih, List.map_cons]

end Fold

/-- Every operation is the one that the catalogue has for its token, and has as many operands as it
takes. -/
inductive WellFormed : Tree → Prop
  | const (value : Float) : WellFormed (.const value)
  | var (v : Variable) : WellFormed (.var v)
  | node {op : Operation} {operands : List Tree} (entry : Operation.ofToken? op.token = some op)
      (accepted : op.accepts operands.length = true) (inner : ∀ t ∈ operands, WellFormed t) :
      WellFormed (.node op operands)

end Tree

namespace Expr

def tree : Expr → Tree :=
  fold .const .var .node

theorem tree_build? {op : Operation} {es : List Expr} {e : Expr} (built : build? op es = some e) :
    e.tree = .node op (es.map tree) :=
  fold_build? _ _ _ built

theorem tree_node {e : Expr} {op : Operation} (operation : e.operation? = some op) :
    e.tree = .node op (e.operands.map tree) :=
  tree_build? (build?_operands operation)

theorem operands_tree (e : Expr) : e.tree.operands = e.operands.map tree := by
  cases operation : e.operation? with
  | none => cases e <;> cases operation <;> rfl
  | some op => rw [tree_node operation, Tree.operands]

theorem fold_tree {α : Type} (const : Float → α) (var : Variable → α)
    (node : Operation → List α → α) (e : Expr) :
    e.tree.fold const var node = e.fold const var node := by
  induction e using node_induction with
  | leaf e none => cases e <;> cases none <;> rfl
  | node e op operation ih =>
    have values : (e.operands.map tree).map (Tree.fold const var node) =
        e.operands.map (fold const var node) := by
      rw [List.map_map]
      exact List.map_congr_left ih
    rw [tree_node operation, Tree.fold, Tree.foldAll_eq_map, values,
      fold_build? const var node (build?_operands operation)]

theorem wellFormed_tree (e : Expr) : e.tree.WellFormed := by
  induction e using node_induction with
  | leaf e none =>
    cases e with
    | const value => exact .const value
    | var v => exact .var v
    | _ => cases none
  | node e op operation ih =>
    rw [tree_node operation]
    refine .node op.ofToken?_token ?_ (List.forall_mem_map.mpr ih)
    rw [List.length_map, ← build?_isSome, build?_operands operation]
    rfl

/-- The well-formed trees are those of formulas. -/
theorem wellFormed_iff {t : Tree} : t.WellFormed ↔ ∃ e : Expr, e.tree = t := by
  constructor
  · intro wellFormed
    induction wellFormed with
    | const value => exact ⟨.const value, rfl⟩
    | var v => exact ⟨.var v, rfl⟩
    | @node op operands entry accepted inner ih =>
      obtain ⟨es, rfl⟩ : ∃ es : List Expr, es.map tree = operands := by
        rw [← Set.mem_range, Set.range_list_map]
        exact ih
      rw [List.length_map, ← build?_isSome] at accepted
      obtain ⟨e, built⟩ := Option.isSome_iff_exists.mp accepted
      exact ⟨e, tree_build? built⟩
  · rintro ⟨e, rfl⟩
    exact e.wellFormed_tree

end Expr

end Formula
