import Formula.Expr.Query
import Formula.Parse

/-!
A workbench is a stack of formulas, worked on by commands. A command that cannot be carried out
leaves the stack as it was, except that `reparse` has already taken its formula.
-/

namespace Formula.Workbench

inductive Command where
  | number (value : Float)
  | variable (name : String)
  | parse (n : Notation) (limit : Option Nat) (text : String)
  | call (token : String) (count : Nat)
  | apply (op : Operation) (count : Nat)
  | derivative (name : String)
  | gradient
  | copy (depth : Nat)
  | operand (index : Nat)
  /-- Writes the top and reads it again, without a limit. -/
  | reparse (n : Notation)
  | drop
  | swap
  | compare
  | evaluate (point : Point)
  | render (n : Notation)
  | inspect

inductive Outcome where
  | done
  | underflow
  | unknownVariable (u : Variable.Unknown)
  | failed (e : ParseError)
  | notApplied
  | noOperand
  | compared (same : Bool)
  | value (number : Float)
  | text (written : String)
  | inspected (e : Expr)

abbrev Stack := List Expr

/-- Takes operands off the stack, the deepest as the first operand, and puts the node on it. -/
def build (op? : Option Operation) (count : Nat) (stack : Stack) : Outcome × Stack :=
  if stack.length < count then (.underflow, stack)
  else
    match op?.bind fun op => Expr.build? op (stack.take count).reverse with
    | some e => (.done, e :: stack.drop count)
    | none => (.notApplied, stack)

def run : Command → Stack → Outcome × Stack
  | .number value, stack => (.done, .const value :: stack)
  | .variable name, stack =>
    match Variable.read name with
    | .ok v => (.done, .var v :: stack)
    | .error u => (.unknownVariable u, stack)
  | .parse n limit text, stack =>
    match Formula.parse n limit text with
    | .ok e => (.done, e :: stack)
    | .error e => (.failed e, stack)
  | .call token count, stack => build (Operation.ofToken? token) count stack
  | .apply op count, stack => build (some op) count stack
  | .derivative name, e :: rest => (.done, e.derivative name :: rest)
  | .gradient, e :: rest => (.done, e.gradient.reverse ++ rest)
  | .copy depth, stack =>
    match stack[depth]? with
    | some e => (.done, e :: stack)
    | none => (.underflow, stack)
  | .operand index, e :: rest =>
    match e.operands[index]? with
    | some operand => (.done, operand :: e :: rest)
    | none => (.noOperand, e :: rest)
  | .reparse n, e :: rest =>
    match Formula.parse n none (e.render n) with
    | .ok again => (.done, again :: rest)
    | .error e => (.failed e, rest)
  | .drop, _ :: rest => (.done, rest)
  | .swap, e :: f :: rest => (.done, f :: e :: rest)
  | .compare, e :: f :: rest => (.compared (f == e), e :: f :: rest)
  | .evaluate point, e :: rest => (.value (e.evaluate point), e :: rest)
  | .render n, e :: rest => (.text (e.render n), e :: rest)
  | .inspect, e :: rest => (.inspected e, e :: rest)
  | _, stack => (.underflow, stack)

def runAll (commands : List Command) : Stack :=
  commands.foldl (fun stack command => (run command stack).2) []

end Formula.Workbench
