import Formula.Text.Quoted
import Formula.Expr.Query
import Formula.Parse

namespace Formula.CommandLine

inductive Severity where
  | warn
  | info
  | debug
  | trace
  deriving DecidableEq

/-- A severity with a higher rank weighs less. -/
def Severity.rank : Severity → Nat
  | .warn => 2
  | .info => 3
  | .debug => 4
  | .trace => 5

def Severity.label : Severity → String
  | .warn => "WARN "
  | .info => "INFO "
  | .debug => "DEBUG"
  | .trace => "TRACE"

/-- The least severity that is shown when the user has asked for more so many times. -/
def Severity.ofVerbosity : Nat → Severity
  | 0 => .warn
  | 1 => .debug
  | _ => .trace

structure Record where
  severity : Severity
  source : String
  message : String

namespace Record

def catalogue : Record :=
  ⟨.debug, "exprdiff::functions::registry",
    "catalogue built with " ++ toString Operation.all.length ++ " operations and " ++
      toString namedConstants.length ++ " constants"⟩

def describeToken : Token → String
  | .opening => "Open"
  | .closing => "Close"
  | .run text => "Text(" ++ Text.quoted text ++ ")"

def token (description : String) (start : Nat) : Record :=
  ⟨.trace, "exprdiff::parser::tokenizer", "token " ++ description ++ " at " ++ toString start⟩

/-- The tokens that reading a text takes, its end among them. -/
def tokens (n : Notation) (limit : Option Nat) (text : String) : List Record :=
  let lexemes := Token.scan text
  (lexemes.map (fun l => token (describeToken l.token) l.start) ++
    [token "End" text.utf8ByteSize]).take (tokensTaken n limit (lexemes.map (·.token)))

def parsing (message : String) : Record :=
  ⟨.debug, "exprdiff::parser", message⟩

def parse (n : Notation) (limit : Option Nat) (text : String) : List Record :=
  let result := match Formula.parse n limit text with
    | .ok e => "parsed " ++ toString e.nodeCount ++ " nodes"
    | .error e => "parse failed: " ++ e.message
  parsing ("parsing " ++ n.name ++ " input of " ++ toString text.utf8ByteSize ++ " bytes") ::
    tokens n limit text ++ [parsing result]

def differentiation (e : Expr) (wrt : Variable) : Record :=
  ⟨.debug, "exprdiff::differentiation",
    "differentiating " ++ toString e.nodeCount ++ " nodes with respect to '" ++ wrt.name ++ "'"⟩

def evaluation (e : Expr) (x y z : Float) : Record :=
  ⟨.info, "exprdiff",
    e.render .bare ++ " at (" ++ Number.write x ++ ", " ++ Number.write y ++ ", " ++
      Number.write z ++ ")"⟩

def ambiguity : Record :=
  ⟨.warn, "exprdiff",
    "implicit postfix cannot delimit nested variadic operands; output may not parse back"⟩

end Record

end Formula.CommandLine
