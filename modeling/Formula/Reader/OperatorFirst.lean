import Formula.Reader

namespace Formula.OperatorFirst

/-- A bracket that is open: its operation and the operands so far, the latest first. -/
structure Pending where
  operation : Operation
  operands : List Expr

/-- What may come next. The open brackets are listed innermost first. -/
inductive State where
  | operand (pending : List Pending)
  | operation (pending : List Pending)
  | nothing (whole : Expr)

def deliver : List Pending → Expr → State
  | [], e => .nothing e
  | p :: pending, e => .operand ({ p with operands := e :: p.operands } :: pending)

def step (limit : Option Nat) : State → Nat → Token → Except Fault State
  | .operand pending, index, .opening => do
    Reader.checkDepth limit (pending.length + 1) index
    return .operation pending
  | .operand [], index, .closing => .error ⟨.invalidTerm Token.closing.text, index⟩
  | .operand (p :: pending), index, .closing => do
    let e ← Reader.applied p.operation p.operands.reverse index
    return deliver pending e
  | .operand pending, index, .run text =>
    match Expr.leaf? text with
    | some e => .ok (deliver pending e)
    | none => .error ⟨.invalidTerm text, index⟩
  | .operation pending, index, t =>
    match t.operation? with
    | some op => .ok (.operand (⟨op, []⟩ :: pending))
    | none => .error ⟨.unknownOperator t.text, index⟩
  | .nothing _, index, t => .error ⟨.extraToken t.text, index⟩

def finish : State → Nat → Except Fault Expr
  | .operand [], index => .error ⟨.invalidTerm Token.endText, index⟩
  | .operand (p :: _), index => do
    let _ ← Reader.applied p.operation p.operands.reverse index
    .error ⟨.expectedClose Token.endText .operatorFirst, index⟩
  | .operation _, index => .error ⟨.unknownOperator Token.endText, index⟩
  | .nothing whole, _ => .ok whole

def reader (limit : Option Nat) : Reader State where
  start := .operand []
  step := step limit
  finish := finish

end Formula.OperatorFirst
