import Formula.Proofs.Arity.Tree
import Formula.Expr.Derivative
import Formula.Expr.Value

/-!
Values and derivatives of plain trees, with every check that their rules rely on. A node is made only
if its operation takes that many operands, an operand that a rule asks for by its position has to be
there, and lists that are paired have to be of one length. On the trees of formulas no check fails.
-/

namespace Formula.Tree

def checked? (op : Operation) (operands : List Tree) : Option Tree :=
  if op.accepts operands.length then some (.node op operands) else none

def binary? (op : BinaryOp) (left right : Tree) : Option Tree :=
  checked? (.binary op) [left, right]

def paired? {α β : Type} (xs : List α) (ys : List β) : Option (List (α × β)) :=
  if xs.length = ys.length then some (xs.zip ys) else none

def productRule? (u u' v v' : Tree) : Option Tree := do
  binary? .add (← binary? .mul u' v) (← binary? .mul u v')

def quotientRule? (u u' v v' : Tree) : Option Tree := do
  binary? .div (← binary? .sub (← binary? .mul u' v) (← binary? .mul u v')) (← binary? .mul v v)

def varianceRule? (operands derivatives : List Tree) : Option Tree := do
  let center ← checked? (.statistic .mean) operands
  let center' ← checked? (.statistic .mean) derivatives
  let terms ← (← paired? operands derivatives).mapM fun (u, u') => do
    binary? .mul (← binary? .sub u center) (← binary? .sub u' center')
  binary? .mul (.const 2) (← checked? (.statistic .mean) terms)

def gaussRule? (operands : List Tree) (a' b b' c c' x x' : Tree) : Option Tree := do
  let distance ← binary? .sub x b
  let distance' ← binary? .sub x' b'
  let squared ← binary? .mul distance distance
  let squared' ← productRule? distance distance' distance distance'
  let width ← binary? .mul c c
  let width' ← productRule? c c' c c'
  let scale ← binary? .mul (.const 2) width
  let scale' ← productRule? (.const 2) (.const 0) width width'
  let slope ← checked? .negate [← quotientRule? squared squared' scale scale']
  binary? .add (← binary? .mul a' (← checked? .gauss [.const 1, b, c, x]))
    (← binary? .mul (← checked? .gauss operands) slope)

/-- The rule of an operation, on the operands of a node and their derivatives. -/
def rule? (op : Operation) (us us' : List Tree) : Option Tree :=
  match op with
  | .binary .add => do binary? .add (← us'[0]?) (← us'[1]?)
  | .binary .sub => do binary? .sub (← us'[0]?) (← us'[1]?)
  | .binary .mul => do productRule? (← us[0]?) (← us'[0]?) (← us[1]?) (← us'[1]?)
  | .binary .div => do quotientRule? (← us[0]?) (← us'[0]?) (← us[1]?) (← us'[1]?)
  | .negate => do checked? .negate [← us'[0]?]
  | .statistic .mean => checked? (.statistic .mean) us'
  | .statistic .variance => varianceRule? us us'
  | .gauss => do
    gaussRule? us (← us'[0]?) (← us[1]?) (← us'[1]?) (← us[2]?) (← us'[2]?) (← us[3]?) (← us'[3]?)

mutual

def derivative? (name : String) : Tree → Option Tree
  | .const _ => some (.const 0)
  | .var v => some (.const (if v.name = name then 1 else 0))
  | .node op operands => do rule? op operands (← derivatives? name operands)

def derivatives? (name : String) : List Tree → Option (List Tree)
  | [] => some []
  | t :: rest => do return (← derivative? name t) :: (← derivatives? name rest)

end

section Value

variable {α : Type} (A : Arithmetic α) (point : Variable → α)

mutual

def value? : Tree → Option α
  | .const value => some (A.ofFloat value)
  | .var v => some (point v)
  | .node op operands => do A.result? op (← values? operands)

def values? : List Tree → Option (List α)
  | [] => some []
  | t :: rest => do return (← value? t) :: (← values? rest)

end

end Value

def assembled? : Expr → Option Tree :=
  Expr.fold (some ∘ .const) (some ∘ .var) fun op parts => do checked? op (← parts.mapM id)

open Formula.Expr (tree)

/- On the trees of formulas every check succeeds, and the rules are those of formulas. -/

theorem checked?_map_tree (op : Operation) (es : List Expr) :
    checked? op (es.map tree) = (Expr.build? op es).map tree := by
  have made := Expr.build?_isSome op es
  rw [checked?, List.length_map, ← made]
  cases built : Expr.build? op es with
  | none => rfl
  | some e => exact congrArg some (Expr.tree_build? built).symm

theorem checked?_tree {op : Operation} (es : List Expr) {e : Expr}
    (built : Expr.build? op es = some e) : checked? op (es.map tree) = some e.tree := by
  rw [checked?_map_tree, built]
  rfl

theorem binary?_tree (op : BinaryOp) (left right : Expr) :
    binary? op left.tree right.tree = some (Expr.binary op left right).tree :=
  checked?_tree [left, right] rfl

theorem mean?_tree (es : List Expr) :
    checked? (.statistic .mean) (es.map tree) = some (Expr.mean es).tree :=
  checked?_tree es rfl

theorem productRule?_tree (u u' v v' : Expr) :
    productRule? u.tree u'.tree v.tree v'.tree = some (Expr.productRule u u' v v').tree := by
  simp only [productRule?, binary?_tree, Option.bind_eq_bind, Option.bind_some]
  rfl

theorem quotientRule?_tree (u u' v v' : Expr) :
    quotientRule? u.tree u'.tree v.tree v'.tree = some (Expr.quotientRule u u' v v').tree := by
  simp only [quotientRule?, binary?_tree, Option.bind_eq_bind, Option.bind_some]
  rfl

theorem mapM_tree {ι : Type} (items : List ι) (f : ι → Expr) :
    items.mapM (fun i => some (f i).tree) = some ((items.map f).map tree) := by
  rw [List.map_map]
  exact List.mapM_pure

theorem varianceRule?_tree {es es' : List Expr} (lengths : es.length = es'.length) :
    varianceRule? (es.map tree) (es'.map tree) = some (Expr.varianceRule es es').tree := by
  have paired : paired? (es.map tree) (es'.map tree) =
      some ((es.zip es').map (Prod.map tree tree)) := by
    rw [paired?, List.length_map, List.length_map, if_pos lengths, List.zip_map]
  have two : Tree.const 2 = (Expr.const 2).tree := rfl
  simp only [varianceRule?, mean?_tree, paired, Option.bind_eq_bind, Option.bind_some, List.mapM_map,
    Function.comp_def, Prod.map_fst, Prod.map_snd, binary?_tree, mapM_tree, two]
  rw [List.zip_eq_zipWith, List.map_zipWith]
  rfl

theorem gauss?_tree (a c w p : Expr) :
    checked? .gauss [a.tree, c.tree, w.tree, p.tree] = some (Expr.gauss a c w p).tree :=
  checked?_tree [a, c, w, p] rfl

theorem negate?_tree (e : Expr) : checked? .negate [e.tree] = some (Expr.negate e).tree :=
  checked?_tree [e] rfl

theorem gaussRule?_tree (a a' b b' c c' x x' : Expr) :
    gaussRule? [a.tree, b.tree, c.tree, x.tree] a'.tree b.tree b'.tree c.tree c'.tree x.tree x'.tree =
      some (Expr.gaussRule a a' b b' c c' x x').tree := by
  have number (value : Float) : Tree.const value = (Expr.const value).tree := rfl
  simp only [gaussRule?, number, binary?_tree, negate?_tree, gauss?_tree, productRule?_tree,
    quotientRule?_tree, Option.bind_eq_bind, Option.bind_some]
  exact congrArg (fun e => some (tree e)) rfl

theorem derivatives?_of_all {name : String} {es : List Expr}
    (all : ∀ e ∈ es, e.tree.derivative? name = some (e.derivative name).tree) :
    derivatives? name (es.map tree) = some ((es.map (Expr.derivative name)).map tree) := by
  induction es with
  | nil => rfl
  | cons e es ih =>
    have first := all e List.mem_cons_self
    have others := ih fun f mem => all f (List.mem_cons_of_mem e mem)
    simp only [List.map_cons, derivatives?, first, others]
    rfl

theorem values?_of_all {α : Type} {A : Arithmetic α} {point : Variable → α} {es : List Expr}
    (all : ∀ e ∈ es, e.tree.value? A point = some (e.valueIn A point)) :
    values? A point (es.map tree) = some (es.map (Expr.valueIn A point)) := by
  induction es with
  | nil => rfl
  | cons e es ih =>
    have first := all e List.mem_cons_self
    have others := ih fun f mem => all f (List.mem_cons_of_mem e mem)
    simp only [List.map_cons, values?, first, others]
    rfl

theorem value?_tree {α : Type} (A : Arithmetic α) (point : Variable → α) (e : Expr) :
    e.tree.value? A point = some (e.valueIn A point) := by
  induction e using Expr.node_induction with
  | leaf e none => cases e <;> cases none <;> rfl
  | node e op operation ih =>
    rw [Expr.tree_node operation, value?, values?_of_all ih]
    exact Expr.result?_valueIn A point operation

theorem rule?_mul (u u' v v' : Tree) :
    rule? (.binary .mul) [u, v] [u', v'] = productRule? u u' v v' := rfl

theorem rule?_div (u u' v v' : Tree) :
    rule? (.binary .div) [u, v] [u', v'] = quotientRule? u u' v v' := rfl

theorem rule?_gauss (a a' b b' c c' x x' : Tree) :
    rule? .gauss [a, b, c, x] [a', b', c', x'] = gaussRule? [a, b, c, x] a' b b' c c' x x' := by
  -- for any rule, so that the rule itself stays closed
  have reads (rule : Tree → Tree → Tree → Tree → Tree → Tree → Tree → Option Tree) :
      (do
        rule (← [a', b', c', x'][0]?) (← [a, b, c, x][1]?) (← [a', b', c', x'][1]?)
          (← [a, b, c, x][2]?) (← [a', b', c', x'][2]?) (← [a, b, c, x][3]?)
          (← [a', b', c', x'][3]?)) = rule a' b b' c c' x x' := rfl
  exact reads (gaussRule? [a, b, c, x])

/-- The rule of an operation finds every operand and derivative it asks for. -/
theorem rule?_tree {e : Expr} {op : Operation} (operation : e.operation? = some op) (name : String) :
    rule? op (e.operands.map tree) ((e.operands.map (Expr.derivative name)).map tree) =
      some (e.derivative name).tree := by
  cases e with
  | const value => cases operation
  | var v => cases operation
  | binary op left right =>
    cases operation
    rw [Expr.derivative]
    cases op with
    | add => exact binary?_tree ..
    | sub => exact binary?_tree ..
    | mul => exact (rule?_mul ..).trans (productRule?_tree ..)
    | div => exact (rule?_div ..).trans (quotientRule?_tree ..)
  | negate operand =>
    cases operation
    exact negate?_tree ..
  | statistic s es =>
    cases operation
    rw [Expr.derivative, Expr.derivatives_eq_map]
    cases s with
    | mean => exact mean?_tree _
    | variance => exact varianceRule?_tree (List.length_map _).symm
  | gauss a c w p =>
    cases operation
    rw [Expr.derivative]
    exact (rule?_gauss ..).trans (gaussRule?_tree ..)

theorem derivative?_tree (name : String) (e : Expr) :
    e.tree.derivative? name = some (e.derivative name).tree := by
  induction e using Expr.node_induction with
  | leaf e none => cases e <;> cases none <;> rfl
  | node e op operation ih =>
    have rule := rule?_tree operation name
    rw [Expr.tree_node operation, derivative?, derivatives?_of_all ih]
    exact rule

theorem assembled?_eq (e : Expr) : assembled? e = some e.tree := by
  induction e using Expr.node_induction with
  | leaf e none => cases e <;> cases none <;> rfl
  | node e op operation ih =>
    have built := Expr.build?_operands operation
    have parts : (e.operands.map assembled?).mapM id = some (e.operands.map tree) := by
      rw [List.map_congr_left ih, List.mapM_map]
      exact List.mapM_pure
    rw [assembled?, Expr.fold_build? _ _ _ built]
    change (do checked? op (← (e.operands.map assembled?).mapM id)) = _
    rw [parts]
    exact checked?_tree _ built

end Formula.Tree
