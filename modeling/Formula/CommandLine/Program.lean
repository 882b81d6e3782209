import Formula.CommandLine.Options
import Formula.CommandLine.Record

/-!
The command line program, over the packages that it is built on: one reads arguments, one lays out
the report of an error, one writes the log. A run depends on them only through `Packages`.
-/

namespace Formula.CommandLine

structure Report where
  code : Nat
  out : String
  err : String
  deriving DecidableEq

structure Log where
  /-- What the log writes about a filter when it starts. -/
  notice : (filter : Option String) → String
  /-- Whether a record is shown, with a filter from the environment or else from a severity on. -/
  admits : (filter : Option String) → (least : Severity) → Record → Bool
  format : (colors : Bool) → Record → String

structure Packages where
  /-- What the arguments ask for, or the report on arguments that ask for no task. -/
  readArguments : List String → Except Report Request
  describeError : (backtrace : Bool) → (context cause : String) → String
  log : Log

/-- What a run finds in its environment: a filter for the log, and whether the log is written in
colors and errors are described with a backtrace. -/
structure Environment where
  filter : Option String := none
  colors : Bool := false
  backtrace : Bool := false

inductive Task where
  | evaluate (x y z : Float)
  | differentiate (wrt : Variable) (output : Option Notation)
  | render (target : Notation)

/-- The task that a command stands for. Coordinates are zero and the variable is x unless told. -/
def Command.task : Command → Task
  | .evaluate x y z => .evaluate (x.getD 0.0) (y.getD 0.0) (z.getD 0.0)
  | .differentiate wrt output => .differentiate (wrt.getD .x) output
  | .render target => .render target

namespace Task

def answer (reading : Notation) (e : Expr) : Task → String
  | .evaluate x y z => Number.write (e.evaluate [x, y, z])
  | .differentiate wrt output => (e.derivative wrt.name).render (output.getD reading)
  | .render target => e.render target

def records (e : Expr) : Task → List Record
  | .evaluate x y z => [.evaluation e x y z]
  | .differentiate wrt _ => [.differentiation e wrt]
  | .render target => if target = .bare ∧ e.hasInnerVariadic then [.ambiguity] else []

end Task

def Request.form (r : Request) : Notation :=
  r.reading.getD .usual

namespace Packages

variable (p : Packages) (env : Environment)

def shown (verbosity : Nat) (records : List Record) : String :=
  p.log.notice env.filter ++
    String.join ((records.filter (p.log.admits env.filter (.ofVerbosity verbosity))).map
      (p.log.format env.colors))

/-- What a program writes at the end that fails with an error. -/
def failure (reading : Notation) (err : ParseError) : String :=
  "Error: " ++ p.describeError env.backtrace ("failed to parse " ++ reading.name ++ " expression")
    err.report ++ "\n"

def carryOut (r : Request) : Report :=
  let records := .catalogue :: Record.parse r.form r.maxDepth r.formula
  match parse r.form r.maxDepth r.formula with
  | .ok e =>
    ⟨0, r.command.task.answer r.form e ++ "\n",
      p.shown env r.verbosity (records ++ r.command.task.records e)⟩
  | .error err => ⟨1, "", p.shown env r.verbosity records ++ p.failure env r.form err⟩

def run (arguments : List String) : Report :=
  match p.readArguments arguments with
  | .ok request => p.carryOut env request
  | .error report => report

end Packages

end Formula.CommandLine
