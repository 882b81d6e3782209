import Formula.Expr
import Formula.Reader
import Formula.Proofs.Number.Numeral

namespace Formula

inductive Term : String → Expr → Prop
  | constant {name : String} {value : Float} (named : (name, value) ∈ namedConstants) :
      Term name (.const value)
  | var (v : Variable) : Term v.name (.var v)
  | number {text : String} {value : Float} (read : Number.read? text = some value) :
      Term text (.const value)

/-- What can stand as one run in a text. -/
structure Word (text : String) : Prop where
  some : text ≠ ""
  solid : ∀ c ∈ text.toList, Token.isDelimiter c = false

theorem word_of_all {text : String}
    (all : (text != "" && text.toList.all (!Token.isDelimiter ·)) = true) : Word text := by
  rw [Bool.and_eq_true, List.all_eq_true] at all
  constructor
  · exact bne_iff_ne.mp all.1
  · intro c mem
    exact (Bool.not_eq_true' _).mp (all.2 c mem)

theorem namedConstants_cases {name : String} {value : Float}
    (named : (name, value) ∈ namedConstants) :
    name = "zero" ∧ value = 0.0 ∨ name = "one" ∧ value = 1.0 ∨ name = "two" ∧ value = 2.0 := by
  simpa [namedConstants] using named

theorem mem_of_namedConstant? {name : String} {value : Float}
    (found : namedConstant? name = some value) : (name, value) ∈ namedConstants := by
  obtain ⟨⟨key, stored⟩, entry, rfl⟩ := Option.map_eq_some_iff.mp found
  have same : key = name := by simpa using List.find?_some entry
  rw [← same]
  exact List.mem_of_find?_eq_some entry

theorem name_of_ofName? {name : String} {v : Variable} (found : Variable.ofName? name = some v) :
    v.name = name := by
  simpa using List.find?_some found

theorem namedConstant?_of_read? {text : String} {value : Float}
    (read : Number.read? text = some value) : namedConstant? text = none := by
  cases found : namedConstant? text with
  | none => rfl
  | some stored =>
    rcases namedConstants_cases (mem_of_namedConstant? found) with
      ⟨rfl, -⟩ | ⟨rfl, -⟩ | ⟨rfl, -⟩ <;> cases read

theorem ofName?_of_read? {text : String} {value : Float}
    (read : Number.read? text = some value) : Variable.ofName? text = none := by
  cases found : Variable.ofName? text with
  | none => rfl
  | some v =>
    rw [← name_of_ofName? found] at read
    cases v <;> cases read

/-- Named constants, variables and numbers are apart, so the order in which they are tried does not
matter. -/
theorem leaf?_iff {text : String} {e : Expr} : Expr.leaf? text = some e ↔ Term text e := by
  constructor
  · intro found
    unfold Expr.leaf? at found
    split at found
    · next value named =>
      cases found
      exact .constant (mem_of_namedConstant? named)
    · split at found
      · next v named =>
        cases found
        rw [← name_of_ofName? named]
        exact .var v
      · obtain ⟨value, read, rfl⟩ := Option.map_eq_some_iff.mp found
        exact .number read
  · intro term
    cases term with
    | constant named =>
      rcases namedConstants_cases named with ⟨rfl, rfl⟩ | ⟨rfl, rfl⟩ | ⟨rfl, rfl⟩ <;> rfl
    | var v => cases v <;> rfl
    | number read =>
      rw [Expr.leaf?, namedConstant?_of_read? read, ofName?_of_read? read, read]
      rfl

theorem leaf?_token (op : Operation) : Expr.leaf? op.token = none := by
  cases op with
  | binary op => cases op <;> rfl
  | negate => rfl
  | statistic s => cases s <;> rfl
  | gauss => rfl

theorem Term.ofToken? {text : String} {e : Expr} (term : Term text e) :
    Operation.ofToken? text = none := by
  cases found : Operation.ofToken? text with
  | none => rfl
  | some op =>
    have leaf := leaf?_iff.mpr term
    rw [← Operation.token_of_ofToken? found, leaf?_token] at leaf
    cases leaf

theorem Term.operation? {text : String} {e : Expr} (term : Term text e) : e.operation? = none := by
  cases term <;> rfl

theorem Term.word {text : String} {e : Expr} (term : Term text e) : Word text := by
  cases term with
  | constant named =>
    rcases namedConstants_cases named with ⟨rfl, -⟩ | ⟨rfl, -⟩ | ⟨rfl, -⟩ <;>
      exact word_of_all rfl
  | var v => cases v <;> exact word_of_all rfl
  | number read =>
    refine ⟨Number.ne_empty_of_read? read, ?_⟩
    intro c mem
    exact Number.not_delimiter_of_numeral (Number.numerals_of_read? read c mem)

theorem Term.printable {text : String} {e : Expr} (term : Term text e) :
    Text.Printable text.toList := by
  cases term with
  | constant named =>
    rcases namedConstants_cases named with ⟨rfl, -⟩ | ⟨rfl, -⟩ | ⟨rfl, -⟩ <;>
      exact Text.printable_of_all rfl
  | var v => cases v <;> exact Text.printable_of_all rfl
  | number read => exact Number.printable_of_read? read

theorem Operation.word (op : Operation) : Word op.token := by
  cases op with
  | binary op => cases op <;> exact word_of_all rfl
  | negate => exact word_of_all rfl
  | statistic s => cases s <;> exact word_of_all rfl
  | gauss => exact word_of_all rfl

theorem Operation.printable (op : Operation) : Text.Printable op.token.toList := by
  cases op with
  | binary op => cases op <;> exact Text.printable_of_all rfl
  | negate => exact Text.printable_of_all rfl
  | statistic s => cases s <;> exact Text.printable_of_all rfl
  | gauss => exact Text.printable_of_all rfl

end Formula
