import Formula.Expr
import Formula.ParseError
import Formula.Token

/-!
Readers take tokens one at a time, from left to right, and at the end give a formula. A token that
cannot be taken ends the reading with a fault, which points at a token by its index.
-/

namespace Formula

/-- Where a reading failed: the index of a token, or the number of tokens if it is the end that is
wrong. -/
structure Fault where
  cause : Cause
  index : Nat
  deriving DecidableEq

/-- A reader with states `σ`. Each step takes a token and its index. -/
structure Reader (σ : Type) where
  start : σ
  step : σ → Nat → Token → Except Fault σ
  finish : σ → Nat → Except Fault Expr

namespace Reader

variable {σ : Type} (r : Reader σ)

def readFrom (s : σ) (index : Nat) : List Token → Except Fault Expr
  | [] => r.finish s index
  | t :: rest =>
    match r.step s index t with
    | .ok next => readFrom next (index + 1) rest
    | .error fault => .error fault

def read (tokens : List Token) : Except Fault Expr :=
  r.readFrom r.start 0 tokens

def takenFrom (s : σ) (index : Nat) : List Token → Nat
  | [] => 1
  | t :: rest =>
    match r.step s index t with
    | .ok next => 1 + takenFrom next (index + 1) rest
    | .error _ => 1

def taken (tokens : List Token) : Nat :=
  r.takenFrom r.start 0 tokens

end Reader

namespace Token

def operation? : Token → Option Operation
  | .run text => Operation.ofToken? text
  | _ => none

def leaf? : Token → Option Expr
  | .run text => Expr.leaf? text
  | _ => none

end Token

namespace Reader

def applied (op : Operation) (operands : List Expr) (index : Nat) : Except Fault Expr :=
  match Expr.build? op operands with
  | some e => .ok e
  | none => .error ⟨.arityMismatch op.token op.arity.least operands.length, index⟩

/-- Refuses a bracket that would be open inside as many others as the limit allows in all. -/
def checkDepth (limit : Option Nat) (depth index : Nat) : Except Fault Unit :=
  match limit with
  | some most => if most < depth then .error ⟨.tooDeep most, index⟩ else .ok ()
  | none => .ok ()

end Reader

end Formula
