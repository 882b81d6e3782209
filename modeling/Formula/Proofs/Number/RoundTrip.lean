import Formula.Proofs.Number.Nearest

namespace Formula

namespace Decimal

def Digits (text : List Char) : Prop :=
  ∀ c ∈ text, c.isDigit = true

theorem digits_digits (d : Decimal) : Digits d.digits := by
  intro c mem
  exact Nat.isDigit_of_mem_toDigits (by decide) (by decide) mem

theorem digits_zeros (n : Nat) : Digits (List.replicate n '0') := by
  intro c mem
  rw [List.eq_of_mem_replicate mem]
  rfl

theorem Digits.append {s t : List Char} (hs : Digits s) (ht : Digits t) : Digits (s ++ t) := by
  intro c mem
  rcases List.mem_append.mp mem with left | right
  · exact hs c left
  · exact ht c right

theorem Digits.take {s : List Char} (h : Digits s) (n : Nat) : Digits (s.take n) := by
  intro c mem
  exact h c (List.mem_of_mem_take mem)

theorem Digits.drop {s : List Char} (h : Digits s) (n : Nat) : Digits (s.drop n) := by
  intro c mem
  exact h c (List.mem_of_mem_drop mem)

def padded (d : Decimal) : List Char :=
  d.digits.leftpad (d.exponent.natAbs + 1) '0'

theorem digits_padded (d : Decimal) : Digits d.padded :=
  (digits_zeros _).append (digits_digits d)

theorem length_padded (d : Decimal) : d.exponent.natAbs < d.padded.length := by
  rw [padded, List.length_leftpad]
  omega

theorem ofDigitChars_padded (d : Decimal) : Nat.ofDigitChars 10 d.padded 0 = d.coefficient := by
  rw [padded, List.leftpad, Nat.ofDigitChars_append, Nat.ofDigitChars_replicate_zero, Nat.mul_zero,
    digits, Nat.ofDigitChars_ten_toDigits]

theorem positional_of_nonneg {d : Decimal} (nonneg : 0 ≤ d.exponent) :
    d.positional = d.digits ++ List.replicate d.exponent.toNat '0' := by
  rw [positional, if_pos nonneg]

theorem positional_of_neg {d : Decimal} (negative : d.exponent < 0) :
    d.positional = d.padded.take (d.padded.length - d.exponent.natAbs) ++
      '.' :: d.padded.drop (d.padded.length - d.exponent.natAbs) := by
  rw [positional, if_neg (by omega)]
  rfl

theorem digits_ne_nil (d : Decimal) : d.digits ≠ [] :=
  Nat.toDigits_ne_nil

theorem positional_head (d : Decimal) : ∃ c rest, d.positional = c :: rest ∧ c.isDigit = true := by
  rcases lt_or_ge d.exponent 0 with negative | nonneg
  · have long := length_padded d
    rw [positional_of_neg negative]
    cases front : d.padded.take (d.padded.length - d.exponent.natAbs) with
    | nil =>
      have lengths := congrArg List.length front
      rw [List.length_take, List.length_nil] at lengths
      omega
    | cons c rest =>
      have mem : c ∈ d.padded.take (d.padded.length - d.exponent.natAbs) := by rw [front]; simp
      exact ⟨c, _, rfl, (digits_padded d).take _ c mem⟩
  · rw [positional_of_nonneg nonneg]
    cases front : d.digits with
    | nil => exact absurd front (digits_ne_nil d)
    | cons c rest =>
      have mem : c ∈ d.digits := by rw [front]; simp
      exact ⟨c, _, rfl, digits_digits d c mem⟩

end Decimal

namespace Number

open Decimal (Digits)
open Float.Model
open Float.Model.UnpackedFloat

theorem takeWhile_digits {s : List Char} (h : Digits s) (rest : List Char) :
    (s ++ rest).takeWhile Char.isDigit = s ++ rest.takeWhile Char.isDigit :=
  List.takeWhile_append_of_pos h

theorem dropWhile_digits {s : List Char} (h : Digits s) (rest : List Char) :
    (s ++ rest).dropWhile Char.isDigit = rest.dropWhile Char.isDigit :=
  List.dropWhile_append_of_pos h

theorem readDecimal?_digits {s : List Char} (h : Digits s) (some : s ≠ []) :
    readDecimal? s = .some ⟨Nat.ofDigitChars 10 s 0, 0⟩ := by
  have front := takeWhile_digits h []
  have back := dropWhile_digits h []
  rw [List.append_nil] at front back
  rw [List.takeWhile_nil, List.append_nil] at front
  rw [readDecimal?, front, back]
  simp [splitFraction, readExponent?, some]

theorem readDecimal?_point {s t : List Char} (hs : Digits s) (ht : Digits t) (some : s ≠ []) :
    readDecimal? (s ++ '.' :: t) = .some ⟨Nat.ofDigitChars 10 (s ++ t) 0, -t.length⟩ := by
  have point : Char.isDigit '.' = false := rfl
  have fraction := takeWhile_digits ht []
  have rest := dropWhile_digits ht []
  rw [List.append_nil] at fraction rest
  rw [List.takeWhile_nil, List.append_nil] at fraction
  rw [readDecimal?, takeWhile_digits hs, dropWhile_digits hs]
  simp [splitFraction, readExponent?, some, point, fraction, rest]

theorem readDecimal?_positional_of_nonneg {d : Decimal} (nonneg : 0 ≤ d.exponent) :
    readDecimal? d.positional = some ⟨d.coefficient * 10 ^ d.exponent.toNat, 0⟩ := by
  have all : Digits d.positional := by
    rw [Decimal.positional_of_nonneg nonneg]
    exact (Decimal.digits_digits d).append (Decimal.digits_zeros _)
  have front : d.positional ≠ [] := by
    obtain ⟨c, rest, shape, -⟩ := Decimal.positional_head d
    simp [shape]
  rw [readDecimal?_digits all front, Decimal.positional_of_nonneg nonneg, Nat.ofDigitChars_append,
    Decimal.digits, Nat.ofDigitChars_ten_toDigits, Nat.ofDigitChars_replicate_zero, Nat.mul_comm]

theorem readDecimal?_positional_of_neg {d : Decimal} (negative : d.exponent < 0) :
    readDecimal? d.positional = some d := by
  have long := Decimal.length_padded d
  have all := Decimal.digits_padded d
  have front : d.padded.take (d.padded.length - d.exponent.natAbs) ≠ [] := by
    intro empty
    have lengths := congrArg List.length empty
    rw [List.length_take, List.length_nil] at lengths
    omega
  have places :
      -((d.padded.drop (d.padded.length - d.exponent.natAbs)).length : Int) = d.exponent := by
    rw [List.length_drop]
    omega
  rw [Decimal.positional_of_neg negative, readDecimal?_point (all.take _) (all.drop _) front,
    places, List.take_append_drop, Decimal.ofDigitChars_padded]

/-- A decimal that is read as a finite double is read so from its digits too. -/
theorem readDecimal?_positional {d : Decimal} (near : d.exponent ≤ 2048) :
    (readDecimal? d.positional).map Decimal.toFloat = some d.toFloat := by
  rcases lt_or_ge d.exponent 0 with negative | nonneg
  · rw [readDecimal?_positional_of_neg negative]
    rfl
  · obtain ⟨c, e⟩ := d
    obtain ⟨k, rfl⟩ := Int.eq_ofNat_of_zero_le nonneg
    have few : k ≤ 2048 := by
      change (k : Int) ≤ 2048 at near
      omega
    have read := toFloat_whole (c * 10 ^ k) (Nat.zero_le 2048)
    rw [Nat.pow_zero, Nat.mul_one] at read
    rw [readDecimal?_positional_of_nonneg nonneg, toFloat_whole c few, ← read]
    rfl

theorem toLower_of_digit {c : Char} (digit : c.isDigit = true) : c.toLower = c := by
  have most : c.val ≤ '9'.val := by
    rw [Char.isDigit, Bool.and_eq_true] at digit
    exact of_decide_eq_true digit.2
  have below : ¬ 'A'.val ≤ c.val := by
    intro above
    exact absurd (UInt32.le_trans above most) (by decide)
  rw [Char.toLower, dif_neg]
  intro upper
  exact below upper.1

theorem readMagnitude?_of_digit {c : Char} (digit : c.isDigit = true) (rest : List Char) :
    readMagnitude? (c :: rest) = (readDecimal? (c :: rest)).map Decimal.toFloat := by
  have noWord : ∀ (first : Char) (more : List Char), first.isDigit = false →
      String.ofList ((c :: rest).map Char.toLower) ≠ String.ofList (first :: more) := by
    intro first more letter same
    have chars := String.ofList_injective same
    rw [List.map_cons, toLower_of_digit digit] at chars
    cases chars
    rw [digit] at letter
    cases letter
  have inf := noWord 'i' "nf".toList rfl
  have infinity := noWord 'i' "nfinity".toList rfl
  have nan := noWord 'n' "an".toList rfl
  change _ ≠ "inf" at inf
  change _ ≠ "infinity" at infinity
  change _ ≠ "nan" at nan
  simp only [readMagnitude?, inf, infinity, nan, or_self, if_false]

theorem splitSign_of_digit {c : Char} (digit : c.isDigit = true) (rest : List Char) :
    splitSign (c :: rest) = (false, c :: rest) := by
  have noMinus : c ≠ '-' := by
    rintro rfl
    cases digit
  have noPlus : c ≠ '+' := by
    rintro rfl
    cases digit
  simp [splitSign, noMinus, noPlus]

theorem exponent_near {d : Decimal} {m : Nat} {e : Int} (h : Double m e)
    (read : d.toFloat = .ofModel (.pack (.finite .positive m e h.positive))) :
    d.exponent ≤ 2048 := by
  by_contra far
  have sign : decide (d.exponent < 0) = false := decide_eq_false (by omega)
  have slow : ¬ (d.coefficient < 2 ^ 53 ∧ d.exponent.natAbs ≤ 22) := by omega
  have same : Int.ofNat d.exponent.natAbs = d.exponent := Int.natAbs_of_nonneg (by omega)
  have unpacked := congrArg (fun v : Float => v.toModel.unpack) read
  rw [Decimal.toFloat, sign, Float.ofScientific, dif_neg slow] at unpacked
  change (Float.Model.pack (UnpackedFloat.ofScientific Format.binary64 d.coefficient
    (Int.ofNat d.exponent.natAbs))).unpack = (Float.Model.pack _).unpack at unpacked
  rw [unpack_pack _ h, same] at unpacked
  by_cases zero : d.coefficient = 0
  · rw [UnpackedFloat.ofScientific, dif_pos zero] at unpacked
    cases unpacked
  · have large : d.exponent > 2 ^ Format.binary64.exponentBits := by
      change d.exponent > 2 ^ 11
      omega
    rw [UnpackedFloat.ofScientific, dif_neg zero, if_pos large] at unpacked
    cases unpacked

theorem read?_shortest {m : Nat} {e : Int} (h : Double m e) :
    readMagnitude? (Decimal.ofBinary m e).shortest.positional =
      some (.ofModel (.pack (.finite .positive m e h.positive))) := by
  have read : (Decimal.ofBinary m e).shortest.toFloat =
      .ofModel (.pack (.finite .positive m e h.positive)) := by
    rw [Decimal.toFloat_shortest, toFloat_ofBinary h]
  obtain ⟨c, rest, shape, digit⟩ := Decimal.positional_head (Decimal.ofBinary m e).shortest
  rw [shape, readMagnitude?_of_digit digit, ← shape, readDecimal?_positional (exponent_near h read),
    read]

theorem neg_packed {m : Nat} {e : Int} (h : Double m e) :
    -Float.ofModel (.pack (.finite .positive m e h.positive)) =
      .ofModel (.pack (.finite .negative m e h.positive)) := by
  change Float.ofModel (.pack (UnpackedFloat.neg (Float.Model.pack _).unpack)) = _
  rw [unpack_pack _ h]
  rfl

theorem read?_unsigned {text : List Char} (unsigned : splitSign text = (false, text)) :
    read? (String.ofList text) = readMagnitude? text := by
  simp [read?, unsigned]

theorem read?_minus (text : List Char) :
    read? ("-" ++ String.ofList text) =
      (readMagnitude? text).map (fun magnitude => -magnitude) := by
  simp [read?, splitSign]

theorem read?_write (v : Float) : read? (write v) = some v := by
  have self : v = .ofModel (.pack v.toModel.unpack) := by rw [pack_unpack]
  rw [write]
  cases shape : v.toModel.unpack with
  | notANumber =>
    rw [self, shape]
    rfl
  | infinity s =>
    rw [self, shape]
    cases s <;> rfl
  | zero s =>
    rw [self, shape]
    cases s <;> rfl
  | finite s m e positive =>
    have h := double_of_unpack shape
    have magnitude := read?_shortest h
    rw [self, shape]
    cases s with
    | positive =>
      obtain ⟨c, rest, front, digit⟩ := Decimal.positional_head (Decimal.ofBinary m e).shortest
      have unsigned := splitSign_of_digit digit rest
      rw [← front] at unsigned
      exact (read?_unsigned unsigned).trans magnitude
    | negative =>
      have read := read?_minus (Decimal.ofBinary m e).shortest.positional
      rw [magnitude, Option.map_some, neg_packed h] at read
      exact read

end Number

end Formula
