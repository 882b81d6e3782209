/-!
The operations a formula may apply: their tokens, how many operands each takes, and the named
constants. `Operation.all` is the catalogue; no token in it is a named constant or a variable.
-/

namespace Formula

inductive Arity where
  | exactly (count : Nat)
  | any
  deriving DecidableEq

def Arity.accepts : Arity → Nat → Bool
  | .exactly count, n => count == n
  | .any, _ => true

def Arity.least : Arity → Nat
  | .exactly count => count
  | .any => 0

inductive BinaryOp where
  | add
  | sub
  | mul
  | div
  deriving DecidableEq

/-- The operations over any number of operands, none included. -/
inductive Statistic where
  | mean
  | variance
  deriving DecidableEq

inductive Operation where
  | binary (op : BinaryOp)
  | negate
  | statistic (s : Statistic)
  | gauss
  deriving DecidableEq

namespace Operation

def all : List Operation :=
  [.binary .add, .binary .sub, .binary .mul, .binary .div, .negate,
    .statistic .mean, .statistic .variance, .gauss]

def token : Operation → String
  | .binary .add => "+"
  | .binary .sub => "-"
  | .binary .mul => "*"
  | .binary .div => "/"
  | .negate => "negate"
  | .statistic .mean => "mean"
  | .statistic .variance => "var"
  | .gauss => "gauss"

def arity : Operation → Arity
  | .binary _ => .exactly 2
  | .negate => .exactly 1
  | .statistic _ => .any
  | .gauss => .exactly 4

def accepts (op : Operation) (count : Nat) : Bool :=
  op.arity.accepts count

def ofToken? (token : String) : Option Operation :=
  all.find? (·.token == token)

def tokens : List String :=
  (all.map token).mergeSort (fun a b => decide (a ≤ b))

def describe (op : Operation) : String :=
  let arity := match op.arity with
    | .exactly count => "Fixed(" ++ toString count ++ ")"
    | .any => "Variadic"
  "OperationDef \x7b token: \"" ++ op.token ++ "\", arity: " ++ arity ++ ", .. \x7d"

theorem mem_all (op : Operation) : op ∈ all := by
  cases op with
  | binary op => cases op <;> decide
  | negate => decide
  | statistic s => cases s <;> decide
  | gauss => decide

theorem ofToken?_token (op : Operation) : ofToken? op.token = some op := by
  cases op with
  | binary op => cases op <;> decide
  | negate => decide
  | statistic s => cases s <;> decide
  | gauss => decide

theorem token_of_ofToken? {token : String} {op : Operation} (h : ofToken? token = some op) :
    op.token = token := by
  simpa using List.find?_some h

end Operation

/-- Names that stand for a number wherever a number may stand. -/
def namedConstants : List (String × Float) :=
  [("zero", 0.0), ("one", 1.0), ("two", 2.0)]

def namedConstant? (name : String) : Option Float :=
  (namedConstants.find? (·.1 == name)).map (·.2)

end Formula
