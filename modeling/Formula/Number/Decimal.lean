namespace Formula

structure Decimal where
  coefficient : Nat
  exponent : Int
  deriving DecidableEq

namespace Decimal

/-- The double nearest to the decimal; half way between two doubles, the even one. -/
def toFloat (d : Decimal) : Float :=
  Float.ofScientific d.coefficient (d.exponent < 0) d.exponent.natAbs

def ofBinary (mantissa : Nat) (exponent : Int) : Decimal :=
  if 0 ≤ exponent then ⟨mantissa <<< exponent.toNat, 0⟩
  else ⟨mantissa * Nat.pow 5 exponent.natAbs, exponent⟩

def digits (d : Decimal) : List Char :=
  Nat.toDigits 10 d.coefficient

/-- The two decimals around `d` that have no digit in its last `k` places, the nearer first. At
equal distance the upper one is first. -/
def neighbours (d : Decimal) (k : Nat) : List Decimal :=
  let unit := Nat.pow 10 k
  let below : Decimal := ⟨d.coefficient / unit, d.exponent + k⟩
  let above : Decimal := ⟨d.coefficient / unit + 1, d.exponent + k⟩
  if 2 * (d.coefficient % unit) < unit then [below, above] else [above, below]

def shorten (d : Decimal) : Nat → Decimal
  | 0 => d
  | k + 1 =>
    match (d.neighbours (k + 1)).find? (fun c => c.toFloat = d.toFloat) with
    | some c => c
    | none => d.shorten k

/-- The decimal of fewest digits that reads as the same double as `d`, and the nearest to `d` of
those. With all digits dropped the upper neighbour is a power of ten, which has one digit. -/
def shortest (d : Decimal) : Decimal :=
  d.shorten d.digits.length

def positional (d : Decimal) : List Char :=
  if 0 ≤ d.exponent then d.digits ++ List.replicate d.exponent.toNat '0'
  else
    let places := d.exponent.natAbs
    let padded := d.digits.leftpad (places + 1) '0'
    let whole := padded.length - places
    padded.take whole ++ '.' :: padded.drop whole

theorem toFloat_shorten (d : Decimal) (k : Nat) : (d.shorten k).toFloat = d.toFloat := by
  induction k with
  | zero => rfl
  | succ k ih =>
    unfold shorten
    split
    · next c found => simpa using List.find?_some found
    · exact ih

theorem toFloat_shortest (d : Decimal) : d.shortest.toFloat = d.toFloat :=
  toFloat_shorten d _

end Decimal

end Formula
