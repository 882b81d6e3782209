namespace Formula

inductive Variable where
  | x
  | y
  | z
  deriving DecidableEq

namespace Variable

def all : List Variable := [.x, .y, .z]

def index : Variable → Nat
  | .x => 0
  | .y => 1
  | .z => 2

def name : Variable → String
  | .x => "x"
  | .y => "y"
  | .z => "z"

/-- The variable of that name; names are matched exactly, letter case included. -/
def ofName? (name : String) : Option Variable :=
  all.find? (·.name == name)

theorem mem_all (v : Variable) : v ∈ all := by
  cases v <;> decide

theorem ofName?_name (v : Variable) : ofName? v.name = some v := by
  cases v <;> decide

structure Unknown where
  name : String
  deriving DecidableEq

def Unknown.message (u : Unknown) : String :=
  "unknown variable '" ++ u.name ++ "', expected one of x, y, z"

def read (name : String) : Except Unknown Variable :=
  match ofName? name with
  | some v => .ok v
  | none => .error ⟨name⟩

end Variable

end Formula
