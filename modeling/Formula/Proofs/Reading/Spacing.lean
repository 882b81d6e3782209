import Formula.Proofs.Reading.Fault

namespace Formula

/-- The characters of the tokens are those of the text without its spaces. What is left of a run that
has begun before belongs to no token. -/
theorem Token.flatMap_chars_found (inside : Bool) (text : List Char) :
    (found inside text).flatMap chars =
      (if inside then text.dropWhile (!isDelimiter ·) else text).filter (· ≠ ' ') := by
  induction text generalizing inside with
  | nil => cases inside <;> rfl
  | cons c rest ih =>
    cases delimiter : isDelimiter c with
    | true =>
      have stays : (if inside then (c :: rest).dropWhile (!isDelimiter ·) else c :: rest) =
          c :: rest := by
        cases inside <;> simp [delimiter]
      have outside := ih false
      rw [stays]
      rcases delimiter_cases delimiter with rfl | rfl | rfl
      · rw [found_space, outside]
        rfl
      · rw [found_opening, List.flatMap_cons, chars_opening, outside]
        rfl
      · rw [found_closing, List.flatMap_cons, chars_closing, outside]
        rfl
    | false =>
      obtain ⟨space, -⟩ := solid_ne delimiter
      have after := ih true
      cases inside with
      | true =>
        rw [found_inside delimiter, after]
        simp [delimiter]
      | false =>
        -- the run has no space in it, so filtering takes something off behind it only
        have run : (rest.takeWhile (!isDelimiter ·)).filter (· ≠ ' ') =
            rest.takeWhile (!isDelimiter ·) := by
          rw [List.filter_eq_self]
          intro d mem
          have solid : isDelimiter d = false := by simpa using List.mem_takeWhile_imp mem
          exact decide_eq_true (solid_ne solid).1
        have whole : rest.filter (· ≠ ' ') = rest.takeWhile (!isDelimiter ·) ++
            (rest.dropWhile (!isDelimiter ·)).filter (· ≠ ' ') := by
          rw [← run, ← List.filter_append, List.takeWhile_append_dropWhile]
        have first : (c :: rest).filter (· ≠ ' ') = c :: rest.filter (· ≠ ' ') :=
          List.filter_cons_of_pos (decide_eq_true space)
        rw [found_outside delimiter, List.flatMap_cons, after, chars, Token.text,
          String.toList_ofList, if_pos rfl, if_neg Bool.false_ne_true, first, whole]
        rfl

theorem filter_eq_of_tokensOf_eq {a b : String} (same : tokensOf a = tokensOf b) :
    a.toList.filter (· ≠ ' ') = b.toList.filter (· ≠ ' ') := by
  have solid (text : String) :
      text.toList.filter (· ≠ ' ') = (tokensOf text).flatMap Token.chars :=
    (Token.flatMap_chars_found false text.toList).symm
  rw [solid, solid, same]

/-- The place is that of the token of an index, or that of the end if the index is the number of
tokens. -/
structure Context.IsAt (place : Context) (text : String) (index : Nat) : Prop where
  bound : index ≤ (tokensOf text).length
  points : place.PointsAt text (tokensOf text)[index]?
  before : tokensOf place.before = (tokensOf text).take index

theorem parse_error_at {n : Notation} {limit : Option Nat} {text : String} {fault : Fault}
    (failed : readTokens n limit (tokensOf text) = .error fault) :
    ∃ place, parse n limit text = .error ⟨fault.cause, place⟩ ∧ place.IsAt text fault.index := by
  obtain ⟨bound, -⟩ := fits_of_readTokens_error failed
  obtain ⟨points, before⟩ := pointsAt_ofIndex bound
  exact ⟨_, parse_eq_error_iff.mpr ⟨fault, failed, rfl⟩, bound, points, before⟩

/-- Two texts with the same tokens differ in nothing but spaces. Both are the same formula, or both
are refused for the same cause, at the token of the same index. -/
theorem parse_spacing (n : Notation) (limit : Option Nat) {a b : String}
    (same : tokensOf a = tokensOf b) :
    a.toList.filter (· ≠ ' ') = b.toList.filter (· ≠ ' ') ∧
    ((∃ e, parse n limit a = .ok e ∧ parse n limit b = .ok e) ∨
      ∃ cause place place' index, parse n limit a = .error ⟨cause, place⟩ ∧
        parse n limit b = .error ⟨cause, place'⟩ ∧ place.IsAt a index ∧ place'.IsAt b index) := by
  refine ⟨filter_eq_of_tokensOf_eq same, ?_⟩
  cases read : readTokens n limit (tokensOf a) with
  | ok e =>
    left
    refine ⟨e, parse_eq_ok_iff.mpr read, parse_eq_ok_iff.mpr ?_⟩
    rw [← same, read]
  | error fault =>
    right
    obtain ⟨place, failed, isAt⟩ := parse_error_at read
    rw [same] at read
    obtain ⟨place', failed', isAt'⟩ := parse_error_at read
    exact ⟨fault.cause, place, place', fault.index, failed, failed', isAt, isAt'⟩

theorem parse_spacing_moved :
    tokensOf "(+ x (y))" = tokensOf "  ( +  x   (   y ))" ∧
    parse .operatorFirst none "(+ x (y))" =
      .error ⟨.unknownOperator "y", ⟨"(+ x (", ⟨6, 7⟩⟩⟩ ∧
    ((∃ e, parse .operatorFirst none "(+ x (y))" = .ok e ∧
        parse .operatorFirst none "  ( +  x   (   y ))" = .ok e) ∨
      ∃ cause place place' index,
        parse .operatorFirst none "(+ x (y))" = .error ⟨cause, place⟩ ∧
        parse .operatorFirst none "  ( +  x   (   y ))" = .error ⟨cause, place'⟩ ∧
        place.IsAt "(+ x (y))" index ∧ place'.IsAt "  ( +  x   (   y ))" index) := by
  have same : tokensOf "(+ x (y))" = tokensOf "  ( +  x   (   y ))" := rfl
  exact ⟨same, rfl, (parse_spacing .operatorFirst none same).2⟩

end Formula
