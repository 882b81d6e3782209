import Formula.Arithmetic
import Formula.Variable

/-!
Formulas as trees. Every operation node has the operands its operation takes, by its shape;
`operation?` and `operands` see all operation nodes alike, and `build?` makes one from a list of
operands. `fold` is the recursion over that uniform view.
-/

namespace Formula

inductive Expr where
  | const (value : Float)
  | var (v : Variable)
  | binary (op : BinaryOp) (left right : Expr)
  | negate (operand : Expr)
  | statistic (s : Statistic) (operands : List Expr)
  | gauss (amplitude center width point : Expr)

namespace Expr

abbrev add : Expr → Expr → Expr := .binary .add
abbrev sub : Expr → Expr → Expr := .binary .sub
abbrev mul : Expr → Expr → Expr := .binary .mul
abbrev div : Expr → Expr → Expr := .binary .div
abbrev mean : List Expr → Expr := .statistic .mean
abbrev variance : List Expr → Expr := .statistic .variance

instance : Add Expr := ⟨add⟩
instance : Sub Expr := ⟨sub⟩
instance : Mul Expr := ⟨mul⟩
instance : Div Expr := ⟨div⟩
instance : Neg Expr := ⟨negate⟩

def operation? : Expr → Option Operation
  | .const _ | .var _ => none
  | .binary op _ _ => some (.binary op)
  | .negate _ => some .negate
  | .statistic s _ => some (.statistic s)
  | .gauss .. => some .gauss

def operands : Expr → List Expr
  | .const _ | .var _ => []
  | .binary _ left right => [left, right]
  | .negate operand => [operand]
  | .statistic _ operands => operands
  | .gauss amplitude center width point => [amplitude, center, width, point]

/-- The node that applies an operation, if it takes that many operands. -/
def build? : Operation → List Expr → Option Expr
  | .binary op, [left, right] => some (.binary op left right)
  | .negate, [operand] => some (.negate operand)
  | .statistic s, operands => some (.statistic s operands)
  | .gauss, [amplitude, center, width, point] => some (.gauss amplitude center width point)
  | _, _ => none

/-- The node that applies the operation of a token, if there is one and it takes that many operands.
-/
def call? (token : String) (operands : List Expr) : Option Expr :=
  (Operation.ofToken? token).bind fun op => build? op operands

/-- The leaf that a text stands for: a named constant, a variable or a number, in that order. -/
def leaf? (text : String) : Option Expr :=
  match namedConstant? text with
  | some value => some (.const value)
  | none =>
    match Variable.ofName? text with
    | some v => some (.var v)
    | none => (Number.read? text).map .const

section Fold

variable {α : Type} (const : Float → α) (var : Variable → α) (node : Operation → List α → α)

mutual

/-- Replaces every leaf and every operation node by a value, operands first. -/
def fold : Expr → α
  | .const value => const value
  | .var v => var v
  | .binary op left right => node (.binary op) [fold left, fold right]
  | .negate operand => node .negate [fold operand]
  | .statistic s operands => node (.statistic s) (foldAll operands)
  | .gauss amplitude center width point =>
    node .gauss [fold amplitude, fold center, fold width, fold point]

def foldAll : List Expr → List α
  | [] => []
  | e :: rest => fold e :: foldAll rest

end

theorem foldAll_eq_map (es : List Expr) :
    foldAll const var node es = es.map (fold const var node) := by
  induction es with
  | nil => rfl
  | cons e rest ih => simp [foldAll, ih]

end Fold

theorem build?_operands {e : Expr} {op : Operation} (h : e.operation? = some op) :
    build? op e.operands = some e := by
  cases e <;> cases h <;> rfl

theorem operation?_build? {op : Operation} {es : List Expr} {e : Expr} (h : build? op es = some e) :
    e.operation? = some op ∧ e.operands = es := by
  unfold build? at h
  split at h <;> cases h <;> exact ⟨rfl, rfl⟩

theorem build?_isSome (op : Operation) (es : List Expr) :
    (build? op es).isSome = op.accepts es.length := by
  rcases es with _ | ⟨a, _ | ⟨b, _ | ⟨c, _ | ⟨d, _ | ⟨e, rest⟩⟩⟩⟩⟩ <;> cases op <;>
    simp [build?, Operation.accepts, Operation.arity, Arity.accepts]

theorem fold_build? {α : Type} (const : Float → α) (var : Variable → α)
    (node : Operation → List α → α) {op : Operation} {es : List Expr} {e : Expr}
    (h : build? op es = some e) :
    e.fold const var node = node op (es.map (fold const var node)) := by
  unfold build? at h
  split at h <;> cases h <;> simp [fold, foldAll_eq_map]

end Expr

end Formula
