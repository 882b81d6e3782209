import Formula.Notation
import Formula.Text

namespace Formula

/-- A range of bytes in a text; it is empty at the end of the text. -/
structure Span where
  start : Nat
  stop : Nat
  deriving DecidableEq

namespace Span

def isValid (s : Span) : Bool :=
  s.start < s.stop

def describe (s : Span) : String :=
  if !s.isValid then " at end of input (position " ++ toString (s.start + 1) ++ ")"
  else if s.stop - s.start = 1 then " at position " ++ toString (s.start + 1)
  else " at positions " ++ toString (s.start + 1) ++ "-" ++ toString s.stop

end Span

/-- The place of a token: the text before it and the bytes it takes. -/
structure Context where
  before : String
  span : Span
  deriving DecidableEq

def Context.inText (text : String) (start stop : Nat) : Context :=
  ⟨String.ofList (Text.takeBytes start text.toList), start, stop⟩

/-- What is wrong with the token at the place of an error. -/
inductive Cause where
  | unknownOperator (token : String)
  | missingOperator (found : String)
  | arityMismatch (token : String) (expected found : Nat)
  | expectedClose (found : String) (reading : Notation)
  | extraToken (found : String)
  | invalidTerm (found : String)
  | tooDeep (limit : Nat)
  deriving DecidableEq

inductive ErrorKind where
  | unexpectedToken
  | invalidToken
  deriving DecidableEq

def ErrorKind.name : ErrorKind → String
  | .unexpectedToken => "UnexpectedTokenError"
  | .invalidToken => "InvalidTokenError"

namespace Cause

def kind : Cause → ErrorKind
  | .invalidTerm _ => .invalidToken
  | .expectedClose _ .operatorLast => .invalidToken
  | _ => .unexpectedToken

def describe : Cause → String
  | .unknownOperator token => "Unexpected operator '" ++ token ++ "'"
  | .missingOperator found => "Expected an operator, but got '" ++ found ++ "'"
  | .arityMismatch token expected found =>
    "Operator '" ++ token ++ "' expects " ++ toString expected ++ " operand(s), but got " ++
      toString found
  | .expectedClose found _ => "Expected ')', but got '" ++ found ++ "'"
  | .extraToken found => "Expected end of input, but got extra token '" ++ found ++ "'"
  | .invalidTerm found => "Expected number or variable, but got '" ++ found ++ "'"
  | .tooDeep limit => "Expression nesting depth exceeds maximum limit of " ++ toString limit

end Cause

structure ParseError where
  cause : Cause
  context : Context
  deriving DecidableEq

namespace ParseError

def kind (e : ParseError) : ErrorKind :=
  e.cause.kind

def message (e : ParseError) : String :=
  e.cause.describe ++ e.context.span.describe

/-- The text before the token, and on the next line a caret in the column of the token. -/
def pointer (e : ParseError) : String :=
  e.context.before ++ "\n" ++
    String.ofList (List.replicate e.context.before.length ' ') ++ "^"

def report (e : ParseError) : String :=
  e.kind.name ++ ": " ++ e.message ++ "\n" ++ e.pointer

end ParseError

end Formula
