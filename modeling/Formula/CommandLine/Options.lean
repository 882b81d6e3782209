import Formula.Notation
import Formula.Number
import Formula.Variable

namespace Formula.CommandLine

inductive Subcommand where
  | evaluate
  | differentiate
  | render
  deriving DecidableEq

def Subcommand.name : Subcommand → String
  | .evaluate => "eval"
  | .differentiate => "diff"
  | .render => "render"

inductive Setting where
  | reading
  | maxDepth
  | coordinate (v : Variable)
  | wrt
  | output
  | target
  deriving DecidableEq

inductive Switch where
  | verbose
  | version
  | help
  deriving DecidableEq

inductive Choice where
  | setting (s : Setting)
  | switch (s : Switch)
  deriving DecidableEq

structure Spelling where
  letter : Option Char
  name : String
  choice : Choice

def commonOptions : List Spelling :=
  [⟨some 'n', "notation", .setting .reading⟩, ⟨none, "max-depth", .setting .maxDepth⟩,
    ⟨some 'v', "verbose", .switch .verbose⟩, ⟨some 'h', "help", .switch .help⟩]

def ownOptions : Option Subcommand → List Spelling
  | none => [⟨some 'V', "version", .switch .version⟩]
  | some .evaluate =>
    Variable.all.map fun v => ⟨v.name.toList.head?, v.name, .setting (.coordinate v)⟩
  | some .differentiate =>
    [⟨none, "wrt", .setting .wrt⟩, ⟨some 'o', "output", .setting .output⟩]
  | some .render => [⟨some 't', "to", .setting .target⟩]

def options (place : Option Subcommand) : List Spelling :=
  commonOptions ++ ownOptions place

/-- A whole number that fits in 64 bits, with an optional plus sign. -/
def readLimit? (text : List Char) : Option Nat :=
  let digits := match text with
    | '+' :: rest => rest
    | rest => rest
  let limit := Nat.ofDigitChars 10 digits 0
  if digits ≠ [] ∧ digits.all Char.isDigit ∧ limit < UInt64.size then some limit else none

/-- Digits, perhaps with a point among them or behind them, perhaps with an exponent that has no
sign. -/
def isPlainNumber (text : List Char) : Bool :=
  let (_, rest) := Number.splitFraction (text.dropWhile Char.isDigit)
  text.takeWhile Char.isDigit ≠ [] &&
    match rest with
    | [] => true
    | mark :: digits => (mark == 'e' || mark == 'E') && digits ≠ [] && digits.all Char.isDigit

inductive Command where
  | evaluate (x y z : Option Float)
  | differentiate (wrt : Option Variable) (output : Option Notation)
  | render (target : Notation)

/-- What the arguments ask for. An option that they leave out has no value. -/
structure Request where
  reading : Option Notation
  maxDepth : Option Nat
  verbosity : Nat
  formula : String
  command : Command

end Formula.CommandLine
