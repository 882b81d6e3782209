import Formula.Reader.Bare
import Formula.Reader.OperatorFirst
import Formula.Reader.OperatorLast
import Formula.Expr.Derivative
import Formula.Expr.Value
import Formula.Expr.Written

namespace Formula

/-- Reads tokens. The limit bounds how many brackets may be open at once; without brackets it has no
meaning. -/
def readTokens (n : Notation) (limit : Option Nat) (tokens : List Token) : Except Fault Expr :=
  match n with
  | .bare => Bare.reader.read tokens
  | .operatorFirst => (OperatorFirst.reader limit).read tokens
  | .operatorLast => (OperatorLast.reader limit).read tokens

def tokensTaken (n : Notation) (limit : Option Nat) (tokens : List Token) : Nat :=
  match n with
  | .bare => Bare.reader.taken tokens
  | .operatorFirst => (OperatorFirst.reader limit).taken tokens
  | .operatorLast => (OperatorLast.reader limit).taken tokens

/-- The place of a token by its index; past the last token it is the end of the text. -/
def Context.ofIndex (text : String) (lexemes : List Lexeme) (index : Nat) : Context :=
  match lexemes[index]? with
  | some lexeme => Context.inText text lexeme.start lexeme.stop
  | none => Context.inText text text.utf8ByteSize text.utf8ByteSize

def parse (n : Notation) (limit : Option Nat) (text : String) : Except ParseError Expr :=
  let lexemes := Token.scan text
  match readTokens n limit (lexemes.map (·.token)) with
  | .ok e => .ok e
  | .error fault => .error ⟨fault.cause, Context.ofIndex text lexemes fault.index⟩

def differentiateText (n : Notation) (name text : String) : Except ParseError String :=
  (parse n none text).map fun e => (e.derivative name).render n

def gradientText (n : Notation) (text : String) : Except ParseError (List String) :=
  (parse n none text).map fun e => e.gradient.map (·.render n)

def evaluateText (n : Notation) (text : String) (point : Point) : Except ParseError Float :=
  (parse n none text).map fun e => e.evaluate point

end Formula
