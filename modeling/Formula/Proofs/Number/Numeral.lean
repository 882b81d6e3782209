import Formula.Number
import Formula.Token

namespace Formula

theorem Token.delimiter_cases {c : Char} (delimiter : isDelimiter c = true) :
    c = ' ' ∨ c = '(' ∨ c = ')' := by
  simpa [isDelimiter, or_assoc] using delimiter

namespace Text

/-- ASCII without its control characters. No line ends at such a character. -/
def isPrintable (c : Char) : Bool :=
  32 ≤ c.toNat && c.toNat < 127

def Printable (text : List Char) : Prop :=
  ∀ c ∈ text, isPrintable c = true

theorem printable_of_all {text : List Char} (all : text.all isPrintable = true) : Printable text :=
  List.all_eq_true.mp all

theorem Printable.no_break {text : List Char} (printable : Printable text) : '\n' ∉ text := by
  intro mem
  cases printable _ mem

end Text

namespace Number

def isNumeral (c : Char) : Bool :=
  c.isDigit || ['.', '+', '-', 'e', 'i', 'n', 'f', 't', 'y', 'a'].contains c.toLower

def Numerals (text : List Char) : Prop :=
  ∀ c ∈ text, isNumeral c = true

theorem isNumeral_of_digit {c : Char} (digit : c.isDigit = true) : isNumeral c = true := by
  rw [isNumeral, digit, Bool.true_or]

theorem numerals_cons {c : Char} {text : List Char} (first : isNumeral c = true)
    (rest : Numerals text) : Numerals (c :: text) := by
  intro d mem
  rcases List.mem_cons.mp mem with rfl | tail
  · exact first
  · exact rest d tail

theorem numerals_append {s t : List Char} (hs : Numerals s) (ht : Numerals t) :
    Numerals (s ++ t) := by
  intro c mem
  rcases List.mem_append.mp mem with left | right
  · exact hs c left
  · exact ht c right

theorem numerals_takeWhile (text : List Char) : Numerals (text.takeWhile Char.isDigit) := by
  intro c mem
  exact isNumeral_of_digit (List.all_eq_true.mp List.all_takeWhile c mem)

theorem numerals_of_splitSign {text rest : List Char} {negative : Bool}
    (split : splitSign text = (negative, rest)) (h : Numerals rest) : Numerals text := by
  unfold splitSign at split
  split at split <;> cases split
  · exact numerals_cons rfl h
  · exact numerals_cons rfl h
  · exact h

theorem numerals_of_readExponent? {text : List Char} {exponent : Int}
    (read : readExponent? text = some exponent) : Numerals text := by
  cases text with
  | nil =>
    intro c mem
    cases mem
  | cons mark rest =>
    obtain ⟨negative, digits, split⟩ : ∃ negative digits, splitSign rest = (negative, digits) :=
      ⟨_, _, rfl⟩
    simp only [readExponent?, split] at read
    split at read
    · next shape =>
      obtain ⟨letter, -, all⟩ := shape
      have tail : Numerals digits := by
        intro c mem
        exact isNumeral_of_digit (List.all_eq_true.mp all c mem)
      have first : isNumeral mark = true := by
        rcases letter with rfl | rfl <;> rfl
      exact numerals_cons first (numerals_of_splitSign split tail)
    · cases read

theorem numerals_of_splitFraction {text fraction rest : List Char}
    (split : splitFraction text = (fraction, rest)) (h : Numerals rest) : Numerals text := by
  unfold splitFraction at split
  split at split
  · next tail =>
    cases split
    rw [← List.takeWhile_append_dropWhile (p := Char.isDigit) (l := tail)]
    exact numerals_cons rfl (numerals_append (numerals_takeWhile tail) h)
  · cases split
    exact h

theorem numerals_of_readDecimal? {text : List Char} {d : Decimal}
    (read : readDecimal? text = some d) : Numerals text := by
  obtain ⟨fraction, rest, split⟩ :
      ∃ fraction rest, splitFraction (text.dropWhile Char.isDigit) = (fraction, rest) := ⟨_, _, rfl⟩
  simp only [readDecimal?, split] at read
  split at read
  · cases read
  · obtain ⟨exponent, tail, -⟩ := Option.map_eq_some_iff.mp read
    have back := numerals_of_splitFraction split (numerals_of_readExponent? tail)
    rw [← List.takeWhile_append_dropWhile (p := Char.isDigit) (l := text)]
    exact numerals_append (numerals_takeWhile text) back

theorem numerals_of_word {text : List Char} {word : String}
    (same : String.ofList (text.map Char.toLower) = word)
    (letters : word.toList.all
      (['.', '+', '-', 'e', 'i', 'n', 'f', 't', 'y', 'a'].contains ·) = true) :
    Numerals text := by
  intro c mem
  have chars : text.map Char.toLower = word.toList := by rw [← same, String.toList_ofList]
  have lower : c.toLower ∈ word.toList := by
    rw [← chars]
    exact List.mem_map_of_mem mem
  rw [isNumeral, List.all_eq_true.mp letters _ lower, Bool.or_true]

theorem numerals_of_readMagnitude? {text : List Char} {value : Float}
    (read : readMagnitude? text = some value) : Numerals text := by
  simp only [readMagnitude?] at read
  split at read
  · next infinite =>
    rcases infinite with short | long
    · exact numerals_of_word short rfl
    · exact numerals_of_word long rfl
  · split at read
    · next nan => exact numerals_of_word nan rfl
    · obtain ⟨d, decimal, -⟩ := Option.map_eq_some_iff.mp read
      exact numerals_of_readDecimal? decimal

theorem numerals_of_read? {text : String} {value : Float} (read : read? text = some value) :
    Numerals text.toList := by
  obtain ⟨negative, rest, split⟩ :
      ∃ negative rest, splitSign text.toList = (negative, rest) := ⟨_, _, rfl⟩
  simp only [read?, split] at read
  obtain ⟨magnitude, tail, -⟩ := Option.map_eq_some_iff.mp read
  exact numerals_of_splitSign split (numerals_of_readMagnitude? tail)

theorem ne_empty_of_read? {text : String} {value : Float} (read : read? text = some value) :
    text ≠ "" := by
  rintro rfl
  cases read

theorem printable_of_numeral {c : Char} (numeral : isNumeral c = true) :
    Text.isPrintable c = true := by
  have bounds {low high : Char} (within : c.val ≥ low.val ∧ c.val ≤ high.val) :
      low.toNat ≤ c.toNat ∧ c.toNat ≤ high.toNat :=
    ⟨UInt32.le_iff_toNat_le.mp within.1, UInt32.le_iff_toNat_le.mp within.2⟩
  rw [isNumeral, Bool.or_eq_true] at numeral
  rw [Text.isPrintable, Bool.and_eq_true, decide_eq_true_eq, decide_eq_true_eq]
  rcases numeral with digit | letter
  · rw [Char.isDigit, Bool.and_eq_true, decide_eq_true_eq, decide_eq_true_eq] at digit
    have within := @bounds '0' '9' digit
    have : '0'.toNat = 48 ∧ '9'.toNat = 57 := by decide
    omega
  · unfold Char.toLower at letter
    split at letter
    · next upper =>
      have within := bounds upper
      have : 'A'.toNat = 65 ∧ 'Z'.toNat = 90 := by decide
      omega
    · have all : ['.', '+', '-', 'e', 'i', 'n', 'f', 't', 'y', 'a'].all Text.isPrintable = true := by
        decide
      rw [List.contains_eq_mem, decide_eq_true_eq] at letter
      simpa [Text.isPrintable] using List.all_eq_true.mp all c letter

theorem printable_of_read? {text : String} {value : Float} (read : read? text = some value) :
    Text.Printable text.toList :=
  fun c mem => printable_of_numeral (numerals_of_read? read c mem)

theorem not_delimiter_of_numeral {c : Char} (numeral : isNumeral c = true) :
    Token.isDelimiter c = false := by
  cases delimiter : Token.isDelimiter c with
  | false => rfl
  | true =>
    rcases Token.delimiter_cases delimiter with rfl | rfl | rfl <;> cases numeral

end Number

end Formula
