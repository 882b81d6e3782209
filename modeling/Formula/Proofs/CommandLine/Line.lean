import Mathlib.Algebra.GroupWithZero.Nat
import Mathlib.Data.List.Forall2
import Formula.CommandLine.Options

/-!
Command lines by what they tell. A line names a subcommand, with options before and after it and the
formula among those after it; `Spells` lists the spellings of each option. `Line.Written` are the
arguments of a line.
-/

namespace Formula.CommandLine

inductive Part where
  | setting (s : Setting) (value : String)
  | verbose (steps : Nat)
  | formula (text : String)

namespace Part

def setting? : Part → Option Setting
  | .setting s _ => some s
  | _ => none

def formula? : Part → Option String
  | .formula text => some text
  | _ => none

def value? (s : Setting) : Part → Option String
  | .setting s' value => if s' = s then some value else none
  | _ => none

def steps : Part → Nat
  | .verbose steps => steps
  | _ => 0

end Part

def Setting.Takes (s : Setting) (value : String) : Prop :=
  match s with
  | .reading | .output | .target => (Notation.read value).toOption.isSome
  | .maxDepth => (readLimit? value.toList).isSome
  | .coordinate _ => (Number.read? value).isSome
  | .wrt => (Variable.ofName? value).isSome

/-- The value can be an argument of its own: it does not look like an option, or it is a negative
decimal where a coordinate is wanted. -/
def Setting.Stands (s : Setting) (value : String) : Prop :=
  match value.toList with
  | '-' :: digits => (∃ v, s = .coordinate v) ∧ isPlainNumber digits = true
  | _ => True

/-- The arguments spell this, before the subcommand or after it. -/
inductive Spells (place : Option Subcommand) : Part → List String → Prop
  | name {o : Spelling} {s : Setting} {value : String} (option : o ∈ options place)
      (choice : o.choice = .setting s) (stands : s.Stands value) :
      Spells place (.setting s value) ["--" ++ o.name, value]
  | nameEquals {o : Spelling} {s : Setting} {value : String} (option : o ∈ options place)
      (choice : o.choice = .setting s) :
      Spells place (.setting s value) ["--" ++ o.name ++ "=" ++ value]
  | letter {o : Spelling} {s : Setting} {c : Char} {value : String} (option : o ∈ options place)
      (choice : o.choice = .setting s) (letter : o.letter = some c) (stands : s.Stands value) :
      Spells place (.setting s value) ["-" ++ c.toString, value]
  | letterJoined {o : Spelling} {s : Setting} {c : Char} {value : String}
      (option : o ∈ options place) (choice : o.choice = .setting s) (letter : o.letter = some c) :
      Spells place (.setting s value) ["-" ++ c.toString ++ value]
  | letterEquals {o : Spelling} {s : Setting} {c : Char} {value : String}
      (option : o ∈ options place) (choice : o.choice = .setting s) (letter : o.letter = some c) :
      Spells place (.setting s value) ["-" ++ c.toString ++ "=" ++ value]
  | verbose (steps : Nat) :
      Spells place (.verbose (steps + 1)) ["-" ++ String.ofList (List.replicate (steps + 1) 'v')]
  | verboseName : Spells place (.verbose 1) ["--verbose"]
  | formula {sub : Subcommand} {text : String} (after : place = some sub)
      (plain : text.toList.head? ≠ some '-') : Spells place (.formula text) [text]

structure Line where
  before : List Part
  subcommand : Subcommand
  after : List Part

def valueIn? (parts : List Part) (s : Setting) : Option String :=
  parts.findSome? (Part.value? s)

theorem valueIn?_append (parts more : List Part) (s : Setting) :
    valueIn? (parts ++ more) s = (valueIn? parts s).or (valueIn? more s) :=
  List.findSome?_append

theorem valueIn?_snoc (parts : List Part) (part : Part) (s : Setting) :
    valueIn? (parts ++ [part]) s = (valueIn? parts s).or (part.value? s) := by
  simp [valueIn?, List.findSome?_append]

theorem valueIn?_eq_none {parts : List Part} {s : Setting}
    (absent : s ∉ parts.filterMap Part.setting?) : valueIn? parts s = none := by
  rw [valueIn?, List.findSome?_eq_none_iff]
  intro part mem
  cases part with
  | setting s' value =>
    rw [Part.value?, if_neg]
    rintro rfl
    exact absent (List.mem_filterMap.mpr ⟨_, mem, rfl⟩)
  | verbose steps => rfl
  | formula text => rfl

theorem mem_of_valueIn? {parts : List Part} {s : Setting} {value : String}
    (found : valueIn? parts s = some value) : .setting s value ∈ parts := by
  obtain ⟨part, mem, given⟩ := List.exists_of_findSome?_eq_some found
  cases part with
  | setting s' value' =>
    rw [Part.value?] at given
    split at given <;> cases given
    next same => exact same ▸ mem
  | verbose steps => cases given
  | formula text => cases given

theorem valueIn?_of_mem {parts : List Part} {s : Setting} {value : String}
    (mem : .setting s value ∈ parts) : ∃ other, valueIn? parts s = some other := by
  rw [← Option.isSome_iff_exists, valueIn?, List.findSome?_isSome_iff]
  exact ⟨_, mem, by simp [Part.value?]⟩

namespace Line

/-- Arguments of the line. A formula may stand last behind the mark that ends the options. -/
inductive Written : Line → List String → Prop
  | inline {before after : List Part} {front back : List (List String)} (sub : Subcommand)
      (first : List.Forall₂ (Spells none) before front)
      (second : List.Forall₂ (Spells (some sub)) after back) :
      Written ⟨before, sub, after⟩ (front.flatten ++ sub.name :: back.flatten)
  | marked {before after : List Part} {front back : List (List String)} (sub : Subcommand)
      (text : String) (first : List.Forall₂ (Spells none) before front)
      (second : List.Forall₂ (Spells (some sub)) after back) :
      Written ⟨before, sub, after ++ [.formula text]⟩
        (front.flatten ++ sub.name :: (back.flatten ++ ["--", text]))

/-- The line has one formula. It gives an option at most once, with a value that the option takes,
and does not leave out what its subcommand requires. -/
structure Proper (line : Line) (text : String) : Prop where
  formula : line.after.filterMap Part.formula? = [text]
  once : ((line.before ++ line.after).filterMap Part.setting?).Nodup
  takes : ∀ s value, .setting s value ∈ line.before ++ line.after → s.Takes value
  required : line.subcommand = .render → ∃ value, .setting .target value ∈ line.after

def Quiet (line : Line) : Prop :=
  ∀ steps, .verbose steps ∉ line.before ++ line.after

/- What the options of a line mean. -/

def value? (line : Line) (s : Setting) : Option String :=
  valueIn? (line.before ++ line.after) s

def notation? (line : Line) (s : Setting) : Option Notation :=
  (line.value? s).bind fun value => (Notation.read value).toOption

def limit (line : Line) : Option Nat :=
  (line.value? .maxDepth).bind fun value => readLimit? value.toList

def coordinate? (line : Line) (v : Variable) : Option Float :=
  (line.value? (.coordinate v)).bind Number.read?

def wrt? (line : Line) : Option Variable :=
  (line.value? .wrt).bind Variable.ofName?

def command? (line : Line) : Option Command :=
  match line.subcommand with
  | .evaluate =>
    some (.evaluate (line.coordinate? .x) (line.coordinate? .y) (line.coordinate? .z))
  | .differentiate => some (.differentiate line.wrt? (line.notation? .output))
  | .render => (line.notation? .target).map .render

end Line

end Formula.CommandLine
