import Formula.Expr.Walk

namespace Formula

/-- The calls at the three kinds of nodes, each with the state afterwards and the answer. -/
structure Visitor (σ : Type) where
  const : Float → σ → σ × Bool
  var : Variable → σ → σ × Bool
  operation : Operation → List Expr → σ → σ × Bool

namespace Visitor

variable {σ : Type}

def visit (V : Visitor σ) : Expr → σ → σ × Bool
  | .const value => V.const value
  | .var v => V.var v
  | .binary op left right => V.operation (.binary op) [left, right]
  | .negate operand => V.operation .negate [operand]
  | .statistic s operands => V.operation (.statistic s) operands
  | .gauss amplitude center width point => V.operation .gauss [amplitude, center, width, point]

def enter (V : Visitor σ) (e : Expr) (operands : σ → σ) (s : σ) : σ :=
  let called := V.visit e s
  if called.2 then operands called.1 else called.1

end Visitor

namespace Expr

variable {σ : Type} (V : Visitor σ)

mutual

def accept : Expr → σ → σ
  | .const value, s => (V.const value s).1
  | .var v, s => (V.var v s).1
  | .binary op left right, s =>
    V.enter (.binary op left right) (fun s => accept right (accept left s)) s
  | .negate operand, s => V.enter (.negate operand) (accept operand) s
  | .statistic t operands, s => V.enter (.statistic t operands) (acceptAll operands) s
  | .gauss amplitude center width point, s =>
    V.enter (.gauss amplitude center width point)
      (fun s => accept point (accept width (accept center (accept amplitude s)))) s

def acceptAll : List Expr → σ → σ
  | [], s => s
  | e :: rest, s => acceptAll rest (accept e s)

end

end Expr

def nodeCounter : Visitor Nat where
  const _ count := (count + 1, true)
  var _ count := (count + 1, true)
  operation _ _ count := (count + 1, true)

def Variable.insert (v : Variable) (others : List Variable) : List Variable :=
  all.filter fun w => w == v || others.contains w

def variableCollector : Visitor (List Variable) where
  const _ found := (found, true)
  var v found := (v.insert found, true)
  operation _ _ found := (found, true)

def tokenCollector : Visitor (List String) where
  const _ found := (found, true)
  var _ found := (found, true)
  operation op _ found := (found ++ [op.token], true)

end Formula
