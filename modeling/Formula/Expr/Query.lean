import Formula.Expr

namespace Formula.Expr

def nodeCount : Expr → Nat :=
  fold (fun _ => 1) (fun _ => 1) fun _ counts => 1 + counts.foldr (· + ·) 0

/-- The number of nodes on the longest way from the root to a leaf. -/
def depth : Expr → Nat :=
  fold (fun _ => 1) (fun _ => 1) fun _ depths => 1 + depths.foldr max 0

def contains (v : Variable) : Expr → Bool :=
  fold (fun _ => false) (fun w => w == v) fun _ found => found.any id

def hasVariadic : Expr → Bool :=
  fold (fun _ => false) (fun _ => false) fun op found => op.arity == .any || found.any id

def hasInnerVariadic (e : Expr) : Bool :=
  e.operands.any hasVariadic

mutual

/-- Whether two formulas have the same shape, operations and variables, and numbers that compare
equal: zero equals negative zero, and what is not a number differs from itself. -/
def same : Expr → Expr → Bool
  | .const a, .const b => a == b
  | .var v, .var w => v == w
  | .binary op l r, .binary op' l' r' => op == op' && same l l' && same r r'
  | .negate e, .negate e' => same e e'
  | .statistic s es, .statistic s' es' => s == s' && sameAll es es'
  | .gauss a c w p, .gauss a' c' w' p' => same a a' && same c c' && same w w' && same p p'
  | _, _ => false

def sameAll : List Expr → List Expr → Bool
  | [], [] => true
  | e :: es, e' :: es' => same e e' && sameAll es es'
  | _, _ => false

end

instance : BEq Expr := ⟨same⟩

end Formula.Expr
