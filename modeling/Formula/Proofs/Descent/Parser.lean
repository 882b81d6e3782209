import Formula.Proofs.Descent.Scanner
import Formula.Proofs.Reading.Grammar

/-!
Reading by calls, and reading with a stack. A call reads one formula and makes a call for each of its
operands; without brackets a loop keeps a stack of formulas. All that could break off is checked, and
calls are noted. Nothing bounds the calls or the loops: where they do not end there is no result.
-/

namespace Formula

/-- What cannot be done: a slice ends outside the text or inside a character, a natural number would
be less than zero, a stack is split above its top, an operation is given a number of operands that it
does not take. -/
inductive Crash where
  | slice
  | underflow
  | split
  | operands

inductive Stop where
  | refused (err : ParseError)
  | crashed (reason : Crash)

structure Descent where
  scanner : Scanner
  depth : Nat := 0
  /-- Where the calls began, the latest first. -/
  calls : List Nat := []
  /-- Where the calls that gave a formula began, and where they left the scanner. -/
  moves : List (Nat × Nat) := []

abbrev Parsing : Type → Type :=
  ExceptT Stop (StateT Descent Option)

namespace Parsing

variable {α : Type}

def exec (x : Parsing α) (d : Descent) : Option (Except Stop α × Descent) :=
  x.run.run d

def require (reason : Crash) : Option α → Parsing α
  | some a => pure a
  | none => throw (.crashed reason)

def minus (a b : Nat) : Parsing Nat :=
  require .underflow (if b ≤ a then some (a - b) else none)

def splitOff (stack : List α) (place : Nat) : Parsing (List α × List α) :=
  require .split (if place ≤ stack.length then some (stack.splitAt place) else none)

def current : Parsing (Option Token) :=
  return (← get).scanner.current

def advance : Parsing (Option Token) := do
  let d ← get
  let scanner ← require .slice d.scanner.next?
  set { d with scanner }
  return scanner.current

def peek : Parsing (Option Token) := do
  let ahead ← require .slice (← get).scanner.next?
  return ahead.current

def context : Parsing Context := do
  require .slice (← get).scanner.context?

def fail (cause : Cause) : Parsing α := do
  throw (.refused ⟨cause, ← context⟩)

def checkArity (op : Operation) (found : Nat) : Parsing Unit :=
  match op.arity with
  | .exactly expected =>
    if expected ≠ found then fail (.arityMismatch op.token expected found) else pure ()
  | .any => pure ()

def built (op : Operation) (operands : List Expr) : Parsing Expr :=
  require .operands (Expr.build? op operands)

/- Reading by calls. -/

def noteCall : Parsing Nat := do
  let d ← get
  set { d with calls := d.scanner.start :: d.calls }
  return d.scanner.start

def noteMove (entry : Nat) : Parsing Unit :=
  modify fun d => { d with moves := (entry, d.scanner.start) :: d.moves }

def enter (limit : Option Nat) : Parsing Unit := do
  let d ← get
  set { d with depth := d.depth + 1 }
  match limit with
  | some most => if most < d.depth + 1 then fail (.tooDeep most) else pure ()
  | none => pure ()

def leave : Parsing Unit := do
  let depth ← minus (← get).depth 1
  modify fun d => { d with depth }

def expectClose (n : Notation) : Parsing Unit := do
  let t ← current
  if t = some .closing then
    let _ ← advance
  else fail (.expectedClose (Token.describe t) n)

def term : Parsing Expr := do
  let t ← current
  match t.bind Token.leaf? with
  | some e =>
    let _ ← advance
    return e
  | none => fail (.invalidTerm (Token.describe t))

def isUnknown : Option Token → Bool
  | some (.run text) => (Expr.leaf? text).isNone
  | _ => false

abbrev Limit : Type :=
  Option Nat

namespace Limit

mutual

def expression (p : Place) (limit : Limit) : Parsing Expr := do
  let entry ← noteCall
  let e ← limit |>.unnoted p
  noteMove entry
  return e
partial_fixpoint

def unnoted (p : Place) (limit : Limit) : Parsing Expr := do
  if (← current) = some .opening then
    enter limit
    let e ← limit |>.body p
    leave
    return e
  else term
partial_fixpoint

def body (p : Place) (limit : Limit) : Parsing Expr :=
  match p with
  | .first => do
    let t ← advance
    match t.bind Token.operation? with
    | some op =>
      let _ ← advance
      let operands ← limit |>.operandsFirst []
      checkArity op operands.length
      expectClose .operatorFirst
      built op operands
    | none => fail (.unknownOperator (Token.describe t))
  | .last => do
    let _ ← advance
    let (op, operands) ← limit |>.operandsLast []
    checkArity op operands.length
    let _ ← advance
    expectClose .operatorLast
    built op operands
partial_fixpoint

def operandsFirst (limit : Limit) (operands : List Expr) : Parsing (List Expr) := do
  let t ← current
  if t = some .closing ∨ t = none then return operands
  else
    let e ← limit |>.expression .first
    limit |>.operandsFirst (operands ++ [e])
partial_fixpoint

def operandsLast (limit : Limit) (operands : List Expr) :
    Parsing (Operation × List Expr) := do
  let t ← current
  match t.bind Token.operation? with
  | some op => return (op, operands)
  | none =>
    if t = some .closing ∨ t = none then fail (.missingOperator (Token.describe t))
    else if isUnknown t then
      if (← peek) = some .closing then fail (.unknownOperator (Token.describe t))
      else limit |>.operandThen operands
    else limit |>.operandThen operands
partial_fixpoint

def operandThen (limit : Limit) (operands : List Expr) :
    Parsing (Operation × List Expr) := do
  let e ← limit |>.expression .last
  limit |>.operandsLast (operands ++ [e])
partial_fixpoint

end

end Limit

def bracketed (p : Place) (limit : Limit) : Parsing Expr := do
  let _ ← advance
  let e ← limit |>.expression p
  match ← current with
  | none => return e
  | some t => fail (.extraToken t.text)

/- Reading with a stack. -/

structure Entry where
  expr : Expr
  first : String
  place : Context

/-- A stack; its top is the last in the list. -/
abbrev Entries : Type :=
  List Entry

def reduce (op : Operation) (stack : Entries) : Parsing Entries := do
  let wanted := Bare.wanted op stack.length
  if stack.length < wanted then fail (.arityMismatch op.token wanted stack.length)
  else
    let (below, operands) ← splitOff stack (← minus stack.length wanted)
    let e ← built op (operands.map Entry.expr)
    match operands with
    | entry :: _ => return below ++ [{ entry with expr := e }]
    | [] => return below ++ [⟨e, op.token, ← context⟩]

def stack (entries : Entries) (t : Token) : Parsing Entries := do
  match t.operation? with
  | some op => reduce op entries
  | none =>
    match t.leaf? with
    | some e => return entries ++ [⟨e, t.text, ← context⟩]
    | none => fail (.invalidTerm t.text)

def Entries.stackAll (entries : Entries) : Parsing Entries := do
  match ← advance with
  | none => return entries
  | some t =>
    let entries ← stack entries t
    entries |>.stackAll
partial_fixpoint

def unbracketed : Parsing Expr := do
  match ← Entries.stackAll [] with
  | [] => fail (.invalidTerm Token.endText)
  | [whole] => return whole.expr
  | _ :: extra :: _ => throw (.refused ⟨.extraToken extra.first, extra.place⟩)

end Parsing

/-- Reads a text with every check. -/
def parseChecked (n : Notation) (limit : Option Nat) (text : String) :
    Option (Except Stop Expr × Descent) :=
  let parsing := match n with
    | .bare => Parsing.unbracketed
    | .operatorFirst => Parsing.bracketed .first limit
    | .operatorLast => Parsing.bracketed .last limit
  parsing.exec { scanner := { source := text } }

end Formula
