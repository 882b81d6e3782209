import Formula.Expr

namespace Formula

inductive Event where
  | const (value : Float)
  | var (v : Variable)
  | operation (op : Operation) (operands : Nat)
  deriving DecidableEq

namespace Event

def describe : Event → String
  | .const value => "const " ++ Number.write value
  | .var v => "var " ++ v.name
  | .operation op operands => "op " ++ op.token ++ " " ++ toString operands

def token? : Event → Option String
  | .operation op _ => some op.token
  | _ => none

end Event

namespace Expr

/-- The events of a walk that does not go into the operands of the operations to skip. -/
def walk (skip : Operation → Bool) : Expr → List Event :=
  fold (fun value => [.const value]) (fun v => [.var v])
    fun op parts => .operation op parts.length :: if skip op then [] else parts.flatten

def events (e : Expr) : List Event :=
  e.walk fun _ => false

def mentioned (e : Expr) : List Variable :=
  Variable.all.filter fun v => e.events.contains (.var v)

def operationTokens (e : Expr) : List String :=
  e.events.filterMap Event.token?

end Expr

end Formula
