import Formula.Reader

/-!
Reading the notation without brackets. Operands wait on a stack; an operation takes its number of
them from the top, and one over any number of operands takes them all.
-/

namespace Formula.Bare

/-- A formula on the stack, with the text and the index of its first token. -/
structure Value where
  expr : Expr
  text : String
  index : Nat

def wanted (op : Operation) (waiting : Nat) : Nat :=
  match op.arity with
  | .exactly count => count
  | .any => waiting

/-- The stack after an operation. Its node begins where its first operand does; without operands it
begins at the operation. The top of the stack is the first in the list. -/
def reduce (op : Operation) (stack : List Value) (index : Nat) : Except Fault (List Value) := do
  let count := wanted op stack.length
  let operands := (stack.take count).reverse
  let e ← Reader.applied op (operands.map (·.expr)) index
  let value : Value := match operands with
    | first :: _ => { first with expr := e }
    | [] => ⟨e, op.token, index⟩
  return value :: stack.drop count

def step (stack : List Value) (index : Nat) (t : Token) : Except Fault (List Value) :=
  match t.operation? with
  | some op => reduce op stack index
  | none =>
    match t.leaf? with
    | some e => .ok (⟨e, t.text, index⟩ :: stack)
    | none => .error ⟨.invalidTerm t.text, index⟩

def finish (stack : List Value) (index : Nat) : Except Fault Expr :=
  match stack.reverse with
  | [] => .error ⟨.invalidTerm Token.endText, index⟩
  | [whole] => .ok whole.expr
  | _ :: extra :: _ => .error ⟨.extraToken extra.text, extra.index⟩

def reader : Reader (List Value) where
  start := []
  step := step
  finish := finish

end Formula.Bare
