/-!
The three ways to write a formula: operands first and without brackets, or in brackets with the
operation first or last.
-/

namespace Formula

inductive Notation where
  | bare
  | operatorFirst
  | operatorLast
  deriving DecidableEq

namespace Notation

def name : Notation → String
  | .bare => "infix"
  | .operatorFirst => "prefix"
  | .operatorLast => "postfix"

def usual : Notation := .operatorFirst

structure Unknown where
  name : String
  deriving DecidableEq

def Unknown.message (u : Unknown) : String :=
  "unknown notation '" ++ u.name ++ "'"

/-- Reads a notation from its name, in any case of the ASCII letters. -/
def read (text : String) : Except Unknown Notation :=
  let name := String.ofList (text.toList.map Char.toLower)
  if name = "infix" ∨ name = "rpn" then .ok .bare
  else if name = "prefix" then .ok .operatorFirst
  else if name = "postfix" then .ok .operatorLast
  else .error ⟨name⟩

end Notation

end Formula
