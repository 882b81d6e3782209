import Formula.Expr
import Formula.Notation
import Formula.Token

namespace Formula

def Notation.arrange (n : Notation) (op : Operation) (operands : List Token) : List Token :=
  match n with
  | .bare => operands ++ [.run op.token]
  | .operatorFirst => .opening :: .run op.token :: operands ++ [.closing]
  | .operatorLast => .opening :: operands ++ [.run op.token, .closing]

namespace Expr

def tokens (n : Notation) : Expr → List Token :=
  fold (fun value => [.run (Number.write value)]) (fun v => [.run v.name])
    fun op operands => n.arrange op operands.flatten

def render (n : Notation) (e : Expr) : String :=
  String.ofList (Token.spell (e.tokens n))

end Expr

end Formula
