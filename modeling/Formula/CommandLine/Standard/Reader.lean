import Formula.CommandLine.Program

/-!
A reader of arguments that takes them one at a time. An option before the subcommand and the same
option after it are two places.
-/

namespace Formula.CommandLine.Standard

def usageText : String :=
  "Usage: exprdiff [OPTIONS] <COMMAND>\n"

def versionText : String :=
  "exprdiff 0.1.0\n"

def byLetter? (place : Option Subcommand) (letter : Char) : Option Choice :=
  ((options place).find? (·.letter == some letter)).map (·.choice)

def byName? (place : Option Subcommand) (name : List Char) : Option Choice :=
  ((options place).find? (·.name.toList == name)).map (·.choice)

def subcommand? (name : String) : Option Subcommand :=
  [.evaluate, .differentiate, .render].find? (·.name == name)

structure Given where
  reading : Option Notation := none
  maxDepth : Option Nat := none
  verbosity : Nat := 0
  x : Option Float := none
  y : Option Float := none
  z : Option Float := none
  wrt : Option Variable := none
  output : Option Notation := none
  target : Option Notation := none
  formula : Option String := none

inductive Stop where
  | usage
  | version
  | help
  deriving DecidableEq

def fill {α : Type} (place value : Option α) : Except Stop (Option α) :=
  match place, value with
  | none, some v => .ok (some v)
  | _, _ => .error .usage

def Given.set (g : Given) (setting : Setting) (text : List Char) : Except Stop Given :=
  let form := (Notation.read (String.ofList text)).toOption
  let number := Number.read? (String.ofList text)
  match setting with
  | .reading => do return { g with reading := ← fill g.reading form }
  | .maxDepth => do return { g with maxDepth := ← fill g.maxDepth (readLimit? text) }
  | .coordinate .x => do return { g with x := ← fill g.x number }
  | .coordinate .y => do return { g with y := ← fill g.y number }
  | .coordinate .z => do return { g with z := ← fill g.z number }
  | .wrt => do return { g with wrt := ← fill g.wrt (Variable.ofName? (String.ofList text)) }
  | .output => do return { g with output := ← fill g.output form }
  | .target => do return { g with target := ← fill g.target form }

/-- The reading of arguments: the place, what was given before the subcommand, what was given here,
an option that waits for its value, and whether options have ended. -/
structure Progress where
  place : Option Subcommand := none
  outer : Given := {}
  here : Given := {}
  waiting : Option Setting := none
  ended : Bool := false

namespace Progress

def set (p : Progress) (setting : Setting) (text : List Char) : Except Stop Progress := do
  return { p with here := ← p.here.set setting text, waiting := none }

def press (p : Progress) : Switch → Except Stop Progress
  | .verbose => .ok { p with here := { p.here with verbosity := p.here.verbosity + 1 } }
  | .version => .error .version
  | .help => .error .help

/-- Letters behind one dash. The first option that has a value takes the rest as its value, less an
equals sign, or waits for the next argument. -/
def takeLetters (p : Progress) : List Char → Except Stop Progress
  | [] => .ok p
  | letter :: rest =>
    match byLetter? p.place letter with
    | some (.switch s) => do takeLetters (← p.press s) rest
    | some (.setting s) =>
      match rest with
      | [] => .ok { p with waiting := some s }
      | '=' :: value => p.set s value
      | value => p.set s value
    | none => .error .usage

def takeName (p : Progress) (text : List Char) : Except Stop Progress :=
  match byName? p.place (text.takeWhile (· != '=')), text.dropWhile (· != '=') with
  | some (.switch s), [] => p.press s
  | some (.setting s), [] => .ok { p with waiting := some s }
  | some (.setting s), _ :: value => p.set s value
  | _, _ => .error .usage

def takeWord (p : Progress) (text : List Char) : Except Stop Progress :=
  match p.place with
  | some _ => do
    let formula ← fill p.here.formula (some (String.ofList text))
    return { p with here := { p.here with formula := formula } }
  | none =>
    if p.ended then .error .usage
    else
      match subcommand? (String.ofList text) with
      | some s => .ok { place := some s, outer := p.here }
      | none => .error (if text = "help".toList then .help else .usage)

/-- An argument as the value of the option that waits for it. It may not look like an option. -/
def takeValue (p : Progress) (setting : Setting) (text : List Char) : Except Stop Progress :=
  match setting, text with
  | .coordinate v, '-' :: rest =>
    if rest = [] ∨ isPlainNumber rest then p.set (.coordinate v) text else .error .usage
  | setting, ['-'] => p.set setting text
  | _, '-' :: _ => .error .usage
  | setting, text => p.set setting text

def take (p : Progress) (argument : String) : Except Stop Progress :=
  let text := argument.toList
  if p.ended then p.takeWord text
  else
    match p.waiting with
    | some setting => p.takeValue setting text
    | none =>
      match text with
      | ['-', '-'] => .ok { p with ended := true }
      | '-' :: '-' :: name => p.takeName name
      | '-' :: letter :: letters => p.takeLetters (letter :: letters)
      | text => p.takeWord text

end Progress

def Progress.command? (p : Progress) : Option Command :=
  match p.place with
  | none => none
  | some .evaluate => some (.evaluate p.here.x p.here.y p.here.z)
  | some .differentiate => some (.differentiate p.here.wrt p.here.output)
  | some .render => p.here.target.map .render

def Progress.finish (p : Progress) : Except Stop Request :=
  match p.waiting, p.here.formula, p.command? with
  | none, some formula, some command =>
    .ok
      { reading := p.here.reading.or p.outer.reading
        maxDepth := p.here.maxDepth.or p.outer.maxDepth
        verbosity := if p.here.verbosity = 0 then p.outer.verbosity else p.here.verbosity
        formula := formula
        command := command }
  | _, _, _ => .error .usage

def Stop.report : Stop → Report
  | .usage => ⟨2, "", usageText⟩
  | .version => ⟨0, versionText, ""⟩
  | .help => ⟨0, usageText, ""⟩

def read (arguments : List String) : Except Report Request :=
  (arguments.foldlM Progress.take {} >>= Progress.finish).mapError Stop.report

end Formula.CommandLine.Standard
