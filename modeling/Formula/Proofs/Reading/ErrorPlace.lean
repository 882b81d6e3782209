import Formula.Proofs.Reading.Fault

namespace Formula

theorem Context.PointsAt.stop_le {place : Context} {text : String} {pointed : Option Token}
    (points : place.PointsAt text pointed) : place.span.stop ≤ text.utf8ByteSize := by
  obtain ⟨start, stop, after, rfl, -⟩ := points
  rw [stop, start, String.utf8ByteSize_append, String.utf8ByteSize_append]
  exact Nat.le_add_right ..

theorem isValid_beginning (beginning rest : String) :
    String.Pos.Raw.IsValid (beginning ++ rest) ⟨beginning.utf8ByteSize⟩ :=
  String.Pos.Raw.isValid_iff_exists_append.mpr ⟨beginning, rest, rfl, rfl⟩

theorem Context.PointsAt.isValid {place : Context} {text : String} {pointed : Option Token}
    (points : place.PointsAt text pointed) :
    String.Pos.Raw.IsValid text ⟨place.span.start⟩ ∧
      String.Pos.Raw.IsValid text ⟨place.span.stop⟩ := by
  obtain ⟨start, stop, after, rfl, -⟩ := points
  constructor
  · rw [start, String.append_assoc]
    exact isValid_beginning ..
  · rw [stop, start, ← String.utf8ByteSize_append]
    exact isValid_beginning ..

theorem Context.PointsAt.mem_scan {place : Context} {text : String} {t : Token}
    (points : place.PointsAt text (some t)) : ⟨t, place.span.start⟩ ∈ Token.scan text := by
  obtain ⟨after, split, stands⟩ := points.split
  have scanned := scan_stands stands
  rw [points.start, split]
  exact scanned.symm ▸ List.mem_append_right _ List.mem_cons_self

theorem Context.PointsAt.span_end {place : Context} {text : String}
    (points : place.PointsAt text none) :
    place.span = ⟨text.utf8ByteSize, text.utf8ByteSize⟩ := by
  obtain ⟨after, split, rfl⟩ := points.split
  have whole : text = place.before := by simpa [Token.written] using split
  have start : place.span.start = text.utf8ByteSize := by rw [whole, points.start]
  have stop : place.span.stop = text.utf8ByteSize := by
    rw [points.stop, start, Token.written, String.utf8ByteSize_empty, Nat.add_zero]
  calc place.span = ⟨place.span.start, place.span.stop⟩ := rfl
    _ = ⟨text.utf8ByteSize, text.utf8ByteSize⟩ := by rw [start, stop]

/-- A text that is no formula is reported at one of its tokens, with the text before the token and
the bytes it takes, or at its end. What the report says is there is what is there. -/
theorem parse_error_place {n : Notation} {limit : Option Nat} {text : String} {err : ParseError}
    (failed : parse n limit text = .error err) :
    (err.context.span.start ≤ err.context.span.stop ∧
      err.context.span.stop ≤ text.utf8ByteSize ∧
      String.Pos.Raw.IsValid text ⟨err.context.span.start⟩ ∧
      String.Pos.Raw.IsValid text ⟨err.context.span.stop⟩) ∧
    ∃ pointed, err.context.PointsAt text pointed ∧
      err.context.span.slice text = Token.written pointed ∧ err.cause.Fits n pointed ∧
      match pointed with
      | some t => ⟨t, err.context.span.start⟩ ∈ Token.scan text
      | none => err.context.span = ⟨text.utf8ByteSize, text.utf8ByteSize⟩ := by
  obtain ⟨fault, stopped, rfl⟩ := parse_eq_error_iff.mp failed
  obtain ⟨bound, fits⟩ := fits_of_readTokens_error stopped
  obtain ⟨points, -⟩ := pointsAt_ofIndex bound
  refine ⟨⟨?_, points.stop_le, points.isValid⟩, _, points, points.slice_eq, fits, ?_⟩
  · rw [points.stop]
    exact Nat.le_add_right ..
  · revert points
    cases (tokensOf text)[fault.index]? with
    | some t => exact fun points => points.mem_scan
    | none => exact fun points => points.span_end

theorem parse_error_place_wide :
    parse .operatorLast none "(αβ ω)" = .error ⟨.invalidTerm "αβ", ⟨"(", ⟨1, 5⟩⟩⟩ ∧
    (1 ≤ 5 ∧ 5 ≤ "(αβ ω)".utf8ByteSize ∧ String.Pos.Raw.IsValid "(αβ ω)" ⟨1⟩ ∧
      String.Pos.Raw.IsValid "(αβ ω)" ⟨5⟩) ∧
    ∃ pointed, Context.PointsAt ⟨"(", ⟨1, 5⟩⟩ "(αβ ω)" pointed ∧
      Span.slice ⟨1, 5⟩ "(αβ ω)" = Token.written pointed ∧
      Cause.Fits .operatorLast pointed (.invalidTerm "αβ") ∧
      match pointed with
      | some t => ⟨t, 1⟩ ∈ Token.scan "(αβ ω)"
      | none => (⟨1, 5⟩ : Span) = ⟨"(αβ ω)".utf8ByteSize, "(αβ ω)".utf8ByteSize⟩ := by
  have failed : parse .operatorLast none "(αβ ω)" = .error ⟨.invalidTerm "αβ", ⟨"(", ⟨1, 5⟩⟩⟩ := rfl
  exact ⟨failed, parse_error_place failed⟩

end Formula
