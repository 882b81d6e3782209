import Formula.Text

/-!
Tokens: brackets and runs of other characters. Only the space separates; everything else that is no
bracket belongs to a run. `scan` finds the tokens of a text with the places they start at, and
`spell` writes tokens out with the spaces they need.
-/

namespace Formula

inductive Token where
  | opening
  | closing
  | run (text : String)
  deriving DecidableEq

namespace Token

def text : Token → String
  | .opening => "("
  | .closing => ")"
  | .run text => text

def chars (t : Token) : List Char :=
  t.text.toList

def endText : String := "end of input"

/-- The text of a token, or what stands in its place at the end. -/
def describe : Option Token → String
  | some t => t.text
  | none => endText

def isDelimiter (c : Char) : Bool :=
  c == ' ' || c == '(' || c == ')'

/-- Neighbours are set apart by a space, except at the inner side of a bracket. -/
def gap : Token → Token → List Char
  | .opening, _ => []
  | _, .closing => []
  | _, _ => [' ']

def spell : List Token → List Char
  | [] => []
  | [t] => t.chars
  | t :: u :: rest => t.chars ++ gap t u ++ spell (u :: rest)

end Token

structure Lexeme where
  token : Token
  start : Nat
  deriving DecidableEq

def Lexeme.stop (l : Lexeme) : Nat :=
  l.start + Text.byteSize l.token.chars

namespace Token

/-- The tokens from byte `start` on. A run is taken whole at its first character; `inside` says that
the character before belongs to a run, which the next characters only continue. -/
def scanFrom (start : Nat) (inside : Bool) : List Char → List Lexeme
  | [] => []
  | c :: rest =>
    let next := start + c.utf8Size
    if c = ' ' then scanFrom next false rest
    else if c = '(' then ⟨.opening, start⟩ :: scanFrom next false rest
    else if c = ')' then ⟨.closing, start⟩ :: scanFrom next false rest
    else if inside then scanFrom next true rest
    else
      ⟨.run (String.ofList (c :: rest.takeWhile (!isDelimiter ·))), start⟩ ::
        scanFrom next true rest

def scan (text : String) : List Lexeme :=
  scanFrom 0 false text.toList

end Token

end Formula
