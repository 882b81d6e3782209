import Formula.Reader

namespace Formula.OperatorLast

/-- What may come next. Each open bracket is the list of its operands so far, the latest first; the
innermost bracket is the first. -/
inductive State where
  | operand (pending : List (List Expr))
  /-- In a bracket, after a run that is neither operand nor operation. The next token tells what it
  should have been: an operation if the bracket closes, an operand if not. -/
  | doubt (text : String) (index : Nat)
  | closing (pending : List (List Expr)) (inner : Expr)
  | nothing (whole : Expr)

def deliver : List (List Expr) → Expr → State
  | [], e => .nothing e
  | operands :: pending, e => .operand ((e :: operands) :: pending)

def stepInside (operands : List Expr) (pending : List (List Expr)) (index : Nat) (text : String) :
    Except Fault State :=
  match Operation.ofToken? text with
  | some op => do
    let e ← Reader.applied op operands.reverse index
    return .closing pending e
  | none =>
    match Expr.leaf? text with
    | some e => .ok (deliver (operands :: pending) e)
    | none => .ok (.doubt text index)

def stepOutside (index : Nat) (text : String) : Except Fault State :=
  match Expr.leaf? text with
  | some e => .ok (.nothing e)
  | none => .error ⟨.invalidTerm text, index⟩

def step (limit : Option Nat) : State → Nat → Token → Except Fault State
  | .operand pending, index, .opening => do
    Reader.checkDepth limit (pending.length + 1) index
    return .operand ([] :: pending)
  | .operand [], index, .closing => .error ⟨.invalidTerm Token.closing.text, index⟩
  | .operand (_ :: _), index, .closing => .error ⟨.missingOperator Token.closing.text, index⟩
  | .operand [], index, .run text => stepOutside index text
  | .operand (operands :: pending), index, .run text => stepInside operands pending index text
  | .doubt text index, _, t =>
    if t = .closing then .error ⟨.unknownOperator text, index⟩
    else .error ⟨.invalidTerm text, index⟩
  | .closing pending inner, index, t =>
    if t = .closing then .ok (deliver pending inner)
    else .error ⟨.expectedClose t.text .operatorLast, index⟩
  | .nothing _, index, t => .error ⟨.extraToken t.text, index⟩

def finish : State → Nat → Except Fault Expr
  | .operand [], index => .error ⟨.invalidTerm Token.endText, index⟩
  | .operand (_ :: _), index => .error ⟨.missingOperator Token.endText, index⟩
  | .doubt text index, _ => .error ⟨.invalidTerm text, index⟩
  | .closing _ _, index => .error ⟨.expectedClose Token.endText .operatorLast, index⟩
  | .nothing whole, _ => .ok whole

def reader (limit : Option Nat) : Reader State where
  start := .operand []
  step := step limit
  finish := finish

end Formula.OperatorLast
