import Formula.Proofs.Reading.Fault

namespace Formula

theorem OperatorFirst.read_before_extra {limit : Option Nat} {ts : List Token} {found : String}
    {place : Nat} (failed : (reader limit).read ts = .error ⟨.extraToken found, place⟩) :
    ∃ e, (reader limit).read (ts.take place) = .ok e := by
  obtain ⟨taken, rest, s, rfl, reached, refuses⟩ := refused_of_read_error failed
  generalize rest.head? = t at refuses
  cases refuses with
  | extra =>
    rw [List.take_left, reached.read]
    exact ⟨_, rfl⟩

theorem OperatorLast.read_before_extra {limit : Option Nat} {ts : List Token} {found : String}
    {place : Nat} (failed : (reader limit).read ts = .error ⟨.extraToken found, place⟩) :
    ∃ e, (reader limit).read (ts.take place) = .ok e := by
  obtain ⟨taken, rest, s, rfl, reached, refuses⟩ := refused_of_read_error failed
  generalize rest.head? = t at refuses
  cases refuses with
  | extra =>
    rw [List.take_left, reached.read]
    exact ⟨_, rfl⟩

namespace Bare

/-- The stack as it was when a formula was begun is what was below that formula. -/
def Grown (stack : List Value) (taken : List Token) : Prop :=
  ∀ above value below, stack = above ++ value :: below →
    ∃ before after, taken = before ++ after ∧ value.index = before.length ∧
      reader.Reaches before below

theorem grown_snoc {stack : List Value} {taken : List Token} (grown : Grown stack taken)
    (t : Token) : Grown stack (taken ++ [t]) := by
  intro above value below split
  obtain ⟨before, after, rfl, index, reached⟩ := grown above value below split
  exact ⟨before, after ++ [t], List.append_assoc .., index, reached⟩

theorem grown_drop {stack : List Value} {taken : List Token} (grown : Grown stack taken)
    (count : Nat) : Grown (stack.drop count) taken := by
  intro above value below split
  apply grown (stack.take count ++ above)
  rw [List.append_assoc, ← split, List.take_append_drop]

theorem grown_cons {stack : List Value} {before after : List Token} {value : Value}
    (grown : Grown stack (before ++ after)) (index : value.index = before.length)
    (reached : reader.Reaches before stack) : Grown (value :: stack) (before ++ after) := by
  intro above other below split
  rcases List.cons_eq_append_iff.mp split with ⟨-, same⟩ | ⟨others, -, later⟩
  · cases same
    exact ⟨before, after, rfl, index, reached⟩
  · exact grown others other below later

theorem grown_reduce {op : Operation} {stack next : List Value} {taken : List Token}
    (reached : reader.Reaches taken stack) (grown : Grown stack taken)
    (ok : reduce op stack taken.length = .ok next) : Grown next (taken ++ [.run op.token]) := by
  obtain ⟨e, -, ok⟩ := ok_bind ok
  cases ok
  have rest := grown_snoc (grown_drop grown (wanted op stack.length)) (.run op.token)
  have parts := List.take_append_drop (wanted op stack.length) stack
  split
  · -- the node takes over the place of its first operand, which had the same stack below it
    next first operands shape =>
    have cut : stack.take (wanted op stack.length) = operands.reverse ++ [first] := by
      rw [← List.reverse_reverse (stack.take _), shape, List.reverse_cons]
    rw [cut, List.append_assoc, List.singleton_append] at parts
    obtain ⟨before, after, rfl, index, earlier⟩ := grown operands.reverse first _ parts.symm
    rw [List.append_assoc] at rest ⊢
    exact grown_cons rest index earlier
  · next shape =>
    rw [List.reverse_eq_nil_iff] at shape
    rw [shape, List.nil_append] at parts
    rw [parts] at rest ⊢
    exact grown_cons rest rfl reached

theorem grown_of_reaches {taken : List Token} {stack : List Value}
    (reached : reader.Reaches taken stack) : Grown stack taken := by
  induction reached with
  | start =>
    intro above value below split
    cases above <;> cases split
  | @step taken s next t reached ok grown =>
    change step s taken.length t = .ok next at ok
    unfold step at ok
    split at ok
    · next op found =>
      rw [Token.eq_run_of_operation? found]
      exact grown_reduce reached grown ok
    · split at ok <;> cases ok
      exact grown_cons (grown_snoc grown t) rfl reached

theorem read_before_extra {ts : List Token} {found : String} {place : Nat}
    (failed : reader.read ts = .error ⟨.extraToken found, place⟩) :
    ∃ above bottom, above ≠ [] ∧ reader.Reaches ts (above ++ [bottom]) ∧
      reader.read (ts.take place) = .ok bottom.expr := by
  obtain ⟨taken, rest, stack, rfl, reached, refuses⟩ := refused_of_read_error failed
  cases rest with
  | cons t rest => cases refuses
  | nil =>
    rw [List.append_nil]
    cases refuses with
    | @extra above extra bottom =>
      obtain ⟨before, after, rfl, index, earlier⟩ :=
        grown_of_reaches reached above extra [bottom] rfl
      refine ⟨above ++ [extra], bottom, by simp, ?_, ?_⟩
      · rw [List.append_assoc]
        exact reached
      · rw [index, List.take_left, earlier.read]
        rfl

end Bare

theorem readTokens_before_extra {n : Notation} {limit : Option Nat} {ts : List Token}
    {found : String} {place : Nat}
    (failed : readTokens n limit ts = .error ⟨.extraToken found, place⟩) :
    ∃ e, readTokens n limit (ts.take place) = .ok e ∧
      (n = .bare → ∃ above bottom, above ≠ [] ∧ Bare.reader.Reaches ts (above ++ [bottom]) ∧
        bottom.expr = e) := by
  cases n with
  | bare =>
    obtain ⟨above, bottom, some, reached, ok⟩ := Bare.read_before_extra failed
    exact ⟨bottom.expr, ok, fun _ => ⟨above, bottom, some, reached, rfl⟩⟩
  | operatorFirst =>
    obtain ⟨e, ok⟩ := OperatorFirst.read_before_extra failed
    exact ⟨e, ok, Notation.noConfusion⟩
  | operatorLast =>
    obtain ⟨e, ok⟩ := OperatorLast.read_before_extra failed
    exact ⟨e, ok, Notation.noConfusion⟩

/-- The text before a token that is one too many is a formula by itself, under the same limit.
Without brackets it is the formula at the bottom of the stack that the reading ends with. -/
theorem parse_before_extra {n : Notation} {limit : Option Nat} {text found : String}
    {place : Context} (failed : parse n limit text = .error ⟨.extraToken found, place⟩) :
    ∃ e, parse n limit place.before = .ok e ∧
      (n = .bare → ∃ above bottom, above ≠ [] ∧
        Bare.reader.Reaches (tokensOf text) (above ++ [bottom]) ∧ bottom.expr = e) := by
  obtain ⟨⟨cause, index⟩, stopped, same⟩ := parse_eq_error_iff.mp failed
  cases same
  obtain ⟨bound, -⟩ := fits_of_readTokens_error stopped
  obtain ⟨-, earlier⟩ := pointsAt_ofIndex bound
  obtain ⟨e, ok, bottom⟩ := readTokens_before_extra stopped
  refine ⟨e, ?_, bottom⟩
  rw [parse_eq_ok_iff, earlier]
  exact ok

/-- The sum is begun by the token that is one too many, and absorbs another one after it. -/
theorem parse_before_extra_absorbed :
    parse .bare none "x y z +" = .error ⟨.extraToken "y", ⟨"x ", ⟨2, 3⟩⟩⟩ ∧
    ∃ e, parse .bare none "x " = .ok e ∧ ∃ above bottom, above ≠ [] ∧
      Bare.reader.Reaches (tokensOf "x y z +") (above ++ [bottom]) ∧ bottom.expr = e := by
  have failed : parse .bare none "x y z +" = .error ⟨.extraToken "y", ⟨"x ", ⟨2, 3⟩⟩⟩ := rfl
  obtain ⟨e, ok, bottom⟩ := parse_before_extra failed
  exact ⟨failed, e, ok, bottom rfl⟩

end Formula
