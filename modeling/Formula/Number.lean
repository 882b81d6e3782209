import Formula.Number.Decimal

/-!
The text of numbers. `write` gives the shortest decimal that reads back, without an exponent;
`read?` takes decimals with an optional point and exponent, and the words for infinity and for no
number.
-/

namespace Formula.Number

open Float.Model (UnpackedFloat)

def infinity : Float := Float.ofBits 0x7ff0000000000000

def undefined : Float := Float.ofBits 0x7ff8000000000000

def signed (negative : Bool) (text : String) : String :=
  if negative then "-" ++ text else text

def write (value : Float) : String :=
  match value.toModel.unpack with
  | .notANumber => "NaN"
  | .infinity sign => signed (sign == .negative) "inf"
  | .zero sign => signed (sign == .negative) "0"
  | .finite sign mantissa exponent _ =>
    signed (sign == .negative)
      (String.ofList (Decimal.ofBinary mantissa exponent).shortest.positional)

/-- Takes a sign off the front; `true` stands for minus. -/
def splitSign : List Char → Bool × List Char
  | '-' :: rest => (true, rest)
  | '+' :: rest => (false, rest)
  | rest => (false, rest)

/-- The power of ten after the digits: nothing, or `e`, an optional sign and at least one digit. -/
def readExponent? : List Char → Option Int
  | [] => some 0
  | mark :: rest =>
    let (negative, digits) := splitSign rest
    if (mark = 'e' ∨ mark = 'E') ∧ digits ≠ [] ∧ digits.all Char.isDigit then
      let size : Int := Nat.ofDigitChars 10 digits 0
      some (if negative then -size else size)
    else none

def splitFraction : List Char → List Char × List Char
  | '.' :: rest => (rest.takeWhile Char.isDigit, rest.dropWhile Char.isDigit)
  | rest => ([], rest)

/-- A decimal without sign: digits with an optional point, at least one digit in all, and an
exponent. -/
def readDecimal? (text : List Char) : Option Decimal :=
  let whole := text.takeWhile Char.isDigit
  let (fraction, rest) := splitFraction (text.dropWhile Char.isDigit)
  if whole = [] ∧ fraction = [] then none
  else
    (readExponent? rest).map fun exponent =>
      ⟨Nat.ofDigitChars 10 (whole ++ fraction) 0, exponent - fraction.length⟩

def readMagnitude? (text : List Char) : Option Float :=
  let word := String.ofList (text.map Char.toLower)
  if word = "inf" ∨ word = "infinity" then some infinity
  else if word = "nan" then some undefined
  else (readDecimal? text).map Decimal.toFloat

def read? (text : String) : Option Float :=
  let (negative, rest) := splitSign text.toList
  (readMagnitude? rest).map fun magnitude => if negative then -magnitude else magnitude

end Formula.Number
