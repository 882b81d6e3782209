import Mathlib.Data.List.Chain
import Formula.Token.Cursor
import Formula.Proofs.Descent.Scanner

namespace Formula

namespace Token

theorem endsInside_concat (inside : Bool) (text : List Char) (c : Char) :
    endsInside inside (text ++ [c]) = !isDelimiter c := by
  induction text generalizing inside with
  | nil => rfl
  | cons d rest ih => exact ih _

theorem StandsFrom.size_pos {inside : Bool} {before after : List Char} {t : Token}
    (stands : StandsFrom inside before t after) : 0 < t.text.utf8ByteSize := by
  cases t with
  | opening => decide
  | closing => decide
  | run text =>
    rw [Nat.pos_iff_ne_zero, Ne, String.utf8ByteSize_eq_zero_iff]
    exact stands.1.some

theorem isDelimiter_getLast {text : List Char} (outside : endsInside false text = false)
    {c : Char} (last : text.getLast? = some c) : isDelimiter c = true := by
  obtain ⟨front, rfl⟩ := List.getLast?_eq_some_iff.mp last
  simpa [endsInside_concat] using outside

/-- Tokens written out, each behind a number of spaces, and spaces at the end. -/
def write (items : List (Nat × Token)) (trailing : Nat) : List Char :=
  match items with
  | [] => List.replicate trailing ' '
  | (spaces, t) :: items => List.replicate spaces ' ' ++ (t.chars ++ write items trailing)

/-- Between two runs there is a space. -/
def SetApart (a b : Nat × Token) : Prop :=
  ∀ first second, a.2 = .run first → b.2 = .run second → 0 < b.1

theorem found_spaces (spaces : Nat) (rest : List Char) :
    found false (List.replicate spaces ' ' ++ rest) = found false rest := by
  induction spaces with
  | zero => rfl
  | succ spaces ih =>
    rw [List.replicate_succ, List.cons_append, found_space, ih]

theorem boundary_spaces (spaces : Nat) {rest : List Char} (boundary : Boundary rest) :
    Boundary (List.replicate spaces ' ' ++ rest) := by
  cases spaces with
  | zero => exact boundary
  | succ spaces => exact boundary_cons rfl _

theorem boundary_write {text : String} {spaces : Nat} {items : List (Nat × Token)}
    (apart : ((spaces, .run text) :: items).IsChain SetApart) (trailing : Nat) :
    Boundary (write items trailing) := by
  have ended : Boundary [] := by
    intro c head
    cases head
  cases items with
  | nil =>
    have boundary := boundary_spaces trailing ended
    rwa [List.append_nil] at boundary
  | cons item items =>
    obtain ⟨spaces, t⟩ := item
    cases t with
    | opening => exact boundary_spaces spaces (boundary_cons rfl _)
    | closing => exact boundary_spaces spaces (boundary_cons rfl _)
    | run second =>
      have separated : 0 < spaces := (List.isChain_cons_cons.mp apart).1 text second rfl rfl
      obtain ⟨more, rfl⟩ := Nat.exists_eq_add_one.mpr separated
      exact boundary_cons rfl _

theorem found_write {items : List (Nat × Token)} (words : Words (items.map (·.2)))
    (apart : items.IsChain SetApart) (trailing : Nat) :
    found false (write items trailing) = items.map (·.2) := by
  induction items with
  | nil =>
    have none := found_spaces trailing []
    rwa [List.append_nil] at none
  | cons item items ih =>
    obtain ⟨spaces, t⟩ := item
    have later := ih (fun text mem => words text (List.mem_cons_of_mem t mem)) apart.tail
    rw [write, found_spaces, List.map_cons]
    cases t with
    | opening => exact (found_opening false _).trans (congrArg _ later)
    | closing => exact (found_closing false _).trans (congrArg _ later)
    | run text =>
      have word := words text List.mem_cons_self
      exact (found_word word (boundary_write apart trailing)).trans (congrArg _ later)

end Token

namespace Scanner

theorem skipSpaces?_gap {s : Scanner} {start : Nat} (skipped : s.skipSpaces? = some start) :
    s.pos ≤ start ∧ ∀ place, s.pos ≤ place → place < start →
      (Text.bytes s.source)[place]? = some ' '.toUInt8 := by
  obtain ⟨ahead, checked, same⟩ := Option.bind_eq_some_iff.mp skipped
  obtain ⟨-, rest⟩ := Option.ite_none_right_eq_some.mp checked
  obtain rfl := Option.some.inj rest
  obtain rfl := Option.some.inj same
  refine ⟨Nat.le_add_right _ _, ?_⟩
  intro place reached skips
  obtain ⟨offset, rfl⟩ := Nat.exists_eq_add_of_le reached
  have inner := Nat.lt_of_add_lt_add_left skips
  have spaces := List.takeWhile_append_dropWhile (p := isSpace)
    (l := (Text.bytes s.source).drop s.pos)
  have space : isSpace _ = true := List.mem_takeWhile_imp (List.getElem_mem inner)
  rw [← List.getElem?_drop, ← spaces, List.getElem?_append_left inner,
    List.getElem?_eq_getElem inner, eq_of_beq space]

theorem take?_start {s next : Scanner} {start : Nat} (taken : s.take? start = some next) :
    next.start = start ∧ start ≤ next.pos := by
  unfold take? at taken
  split at taken
  · cases taken
    exact ⟨rfl, Nat.le_refl _⟩
  · split at taken
    · cases taken
      exact ⟨rfl, Nat.le_succ _⟩
    · split at taken
      · cases taken
        exact ⟨rfl, Nat.le_succ _⟩
      · obtain ⟨ahead, -, cut⟩ := Option.bind_eq_some_iff.mp taken
        obtain ⟨text, -, same⟩ := Option.bind_eq_some_iff.mp cut
        cases same
        exact ⟨rfl, Nat.le_add_right _ _⟩

theorem next?_gap {s next : Scanner} (found : s.next? = some next) :
    s.pos ≤ next.start ∧ next.start ≤ next.pos ∧
      ∀ place, s.pos ≤ place → place < next.start →
        (Text.bytes s.source)[place]? = some ' '.toUInt8 := by
  obtain ⟨start, skipped, taken⟩ := Option.bind_eq_some_iff.mp found
  obtain ⟨le, spaces⟩ := skipSpaces?_gap skipped
  obtain ⟨rfl, stop⟩ := take?_start taken
  exact ⟨le, stop, spaces⟩

end Scanner

namespace Cursor

/-- The cursor after a number of steps. -/
def after (text : String) : Nat → Cursor
  | 0 => ofText text
  | steps + 1 => (after text steps).next

def scanner (c : Cursor) : Scanner :=
  ⟨c.source, c.span.stop, c.current, c.span.start⟩

theorem next_of_ahead {c : Cursor} {text : String} {index : Nat} (source : c.source = text)
    (ahead : c.ahead = (Token.scan text).drop index) :
    c.next = ⟨text, (Token.scan text).drop (index + 1), (tokensOf text)[index]?,
      (Context.ofIndex text (Token.scan text) index).span⟩ := by
  subst source
  rw [← List.tail_drop, ← ahead, tokensOf, List.getElem?_map]
  cases here : (Token.scan c.source)[index]? with
  | none =>
    have none : c.ahead = [] := by
      rw [ahead, List.drop_eq_nil_iff]
      exact List.getElem?_eq_none_iff.mp here
    simp only [next, none, Context.ofIndex, here]
    rfl
  | some l =>
    obtain ⟨bound, same⟩ := List.getElem?_eq_some_iff.mp here
    rw [List.drop_eq_getElem_cons bound, same] at ahead
    simp only [next, ahead, Context.ofIndex, here]
    rfl

/-- After a step the cursor stands on the token with the index of that step. -/
theorem after_eq (text : String) (steps : Nat) :
    after text (steps + 1) = ⟨text, (Token.scan text).drop (steps + 1), (tokensOf text)[steps]?,
      (Context.ofIndex text (Token.scan text) steps).span⟩ := by
  induction steps with
  | zero => exact next_of_ahead (c := ofText text) rfl rfl
  | succ steps ih =>
    rw [after, ih]
    exact next_of_ahead rfl rfl

theorem scanner_of_on {s : Scanner} {text : String} {index : Nat} (on : s.On text index) :
    s = (after text (index + 1)).scanner := by
  obtain ⟨⟨source, -⟩, current, span⟩ := on
  cases source
  rw [after_eq, scanner, span, ← current]
  rfl

theorem ahead_scanner (text : String) (steps : Nat) :
    (after text steps).scanner.Ahead text steps := by
  induction steps with
  | zero => exact Scanner.ahead_ofText text
  | succ steps ih =>
    obtain ⟨next, -, on⟩ := Scanner.next?_on ih
    rw [← scanner_of_on on]
    exact on.toAhead

theorem next?_scanner (text : String) (steps : Nat) :
    (after text steps).scanner.next? = some (after text (steps + 1)).scanner := by
  obtain ⟨next, found, on⟩ := Scanner.next?_on (ahead_scanner text steps)
  rw [found, scanner_of_on on]

/-- The cursor stands on a token of the text: it knows the bytes that the token takes, and a run
goes no further in either direction. -/
structure StandsOn (c : Cursor) (text : String) (t : Token) : Prop where
  source : c.source = text
  current : c.current = some t
  nonempty : c.span.start < c.span.stop
  within : c.span.stop ≤ text.utf8ByteSize
  valid : String.Pos.Raw.IsValid text ⟨c.span.start⟩ ∧ String.Pos.Raw.IsValid text ⟨c.span.stop⟩
  slice : c.span.slice text = t.text
  consumed : c.consumed = c.before ++ t.text
  whole : ∀ run, t = .run run → Word run ∧
    (∀ d, c.before.toList.getLast? = some d → Token.isDelimiter d = true) ∧
    ∃ rest, text = c.consumed ++ rest ∧ Token.Boundary rest.toList

/-- The cursor has the text behind it, and stays there. -/
structure AtEnd (c : Cursor) (text : String) : Prop where
  source : c.source = text
  current : c.current = none
  span : c.span = ⟨text.utf8ByteSize, text.utf8ByteSize⟩
  before : c.before = text
  consumed : c.consumed = text
  stays : c.next = c

/-- The first steps of the cursor, as many as there are tokens, cut the text into these tokens and
spaces; the next one finds the end. -/
structure Partitions (text : String) (count : Nat) : Prop where
  bound : count ≤ text.utf8ByteSize
  positions : (ofText text).positions = (List.range (count + 2)).map (after text)
  scanned : ∀ steps, (after text steps).scanner.next? = some (after text (steps + 1)).scanner
  tokens : ∀ index < count, ∃ t, (after text (index + 1)).StandsOn text t
  ordered : ∀ i j, i < j → j < count →
    (after text (i + 1)).span.stop ≤ (after text (j + 1)).span.start
  spaces : ∀ place < text.utf8ByteSize, (∀ index < count,
      place < (after text (index + 1)).span.start ∨ (after text (index + 1)).span.stop ≤ place) →
    (Text.bytes text)[place]? = some ' '.toUInt8
  ended : ∀ steps, count < steps →
    (after text steps).AtEnd text ∧ after text steps = after text (count + 1)

theorem pointsAt_after {text : String} {index : Nat} (bound : index ≤ (tokensOf text).length) :
    Context.PointsAt ⟨(after text (index + 1)).before, (after text (index + 1)).span⟩ text
      (tokensOf text)[index]? := by
  obtain ⟨points, -⟩ := pointsAt_ofIndex bound
  rw [after_eq]
  generalize Context.ofIndex text (Token.scan text) index = place at points
  have same : String.ofList (Text.takeBytes place.span.start text.toList) = place.before := by
    obtain ⟨rest, split, -⟩ := points.split
    rw [points.start, split, String.append_assoc, takeBytes_beginning, String.ofList_toList]
  rw [before, same]
  exact points

theorem standsOn_after {text : String} {index : Nat} (inner : index < (tokensOf text).length) :
    ∃ t, (after text (index + 1)).StandsOn text t := by
  obtain ⟨t, here⟩ : ∃ t, (tokensOf text)[index]? = some t := ⟨_, List.getElem?_eq_getElem inner⟩
  have points := pointsAt_after (Nat.le_of_lt inner)
  rw [here] at points
  have consumed : (after text (index + 1)).consumed = (after text (index + 1)).before ++ t.text := by
    rw [← Token.written, ← points.upTo_eq, after_eq]
    rfl
  obtain ⟨rest, split, stands⟩ := points.split
  have nonempty := Nat.lt_add_of_pos_right (n := (after text (index + 1)).span.start) stands.size_pos
  refine ⟨t, ?_, ?_, ?_, points.stop_le, points.isValid, points.slice_eq, consumed, ?_⟩
  · rw [after_eq]
  · rw [after_eq, here]
  · exact Nat.lt_of_lt_of_eq nonempty points.stop.symm
  · rintro run rfl
    obtain ⟨word, outside, boundary⟩ := stands
    refine ⟨word, fun d => Token.isDelimiter_getLast outside, rest, ?_, boundary⟩
    rw [consumed]
    exact split

theorem after_of_le {text : String} {index : Nat} (past : (tokensOf text).length ≤ index) :
    after text (index + 1) =
      ⟨text, [], none, text.utf8ByteSize, text.utf8ByteSize⟩ := by
  have none := List.getElem?_eq_none past
  rw [tokensOf, List.length_map] at past
  rw [after_eq, none, List.drop_eq_nil_of_le (Nat.le_succ_of_le past), Context.ofIndex,
    List.getElem?_eq_none past]
  rfl

theorem atEnd_after {text : String} {steps : Nat} (past : (tokensOf text).length < steps) :
    (after text steps).AtEnd text ∧
      after text steps = after text ((tokensOf text).length + 1) := by
  obtain ⟨index, rfl⟩ := Nat.exists_eq_add_of_lt past
  have whole : String.ofList (Text.takeBytes text.utf8ByteSize text.toList) = text := by
    have all := takeBytes_beginning text ""
    rw [String.append_empty] at all
    rw [all, String.ofList_toList]
  rw [after_of_le (Nat.le_add_right _ _), after_of_le (Nat.le_refl _)]
  exact ⟨⟨rfl, rfl, rfl, whole, whole, rfl⟩, rfl⟩

theorem source_after (text : String) (steps : Nat) : (after text steps).source = text :=
  (ahead_scanner text steps).source

theorem stop_le_start (text : String) (steps : Nat) :
    (after text steps).span.stop ≤ (after text (steps + 1)).span.start :=
  (Scanner.next?_gap (next?_scanner text steps)).1

theorem start_le_stop (text : String) (steps : Nat) :
    (after text steps).span.start ≤ (after text steps).span.stop := by
  cases steps with
  | zero => exact Nat.le_refl 0
  | succ steps => exact (Scanner.next?_gap (next?_scanner text steps)).2.1

theorem stop_le_start_of_lt (text : String) {i j : Nat} (less : i < j) :
    (after text i).span.stop ≤ (after text j).span.start := by
  induction j, less using Nat.le_induction with
  | base => exact stop_le_start text i
  | succ j less ih =>
    calc (after text i).span.stop
      _ ≤ (after text j).span.start := ih
      _ ≤ (after text j).span.stop := start_le_stop text j
      _ ≤ (after text (j + 1)).span.start := stop_le_start text j

theorem covered {text : String} {steps place : Nat}
    (passed : place < (after text steps).span.stop) :
    (∃ index < steps, (after text (index + 1)).span.start ≤ place ∧
        place < (after text (index + 1)).span.stop) ∨
      (Text.bytes text)[place]? = some ' '.toUInt8 := by
  induction steps with
  | zero => exact absurd passed (Nat.not_lt_zero place)
  | succ steps ih =>
    by_cases earlier : place < (after text steps).span.stop
    · rcases ih earlier with ⟨index, less, inside⟩ | space
      · exact .inl ⟨index, Nat.lt_succ_of_lt less, inside⟩
      · exact .inr space
    · by_cases skipped : place < (after text (steps + 1)).span.start
      · obtain ⟨-, -, spaces⟩ := Scanner.next?_gap (next?_scanner text steps)
        have space := spaces place (Nat.not_lt.mp earlier) skipped
        rw [scanner, source_after] at space
        exact .inr space
      · exact .inl ⟨steps, Nat.lt_succ_self steps, Nat.not_lt.mp skipped, passed⟩

theorem le_stop {text : String} {count : Nat} (bound : count ≤ (tokensOf text).length) :
    count ≤ (after text count).span.stop := by
  induction count with
  | zero => exact Nat.zero_le _
  | succ count ih =>
    obtain ⟨t, stands⟩ := standsOn_after bound
    calc count + 1
      _ ≤ (after text count).span.stop + 1 := Nat.succ_le_succ (ih (Nat.le_of_succ_le bound))
      _ ≤ (after text (count + 1)).span.start + 1 := Nat.succ_le_succ (stop_le_start text count)
      _ ≤ (after text (count + 1)).span.stop := stands.nonempty

theorem positions_after (text : String) (steps rest : Nat) :
    positions.go (after text steps) rest = (List.range' steps (rest + 2)).map (after text) := by
  induction rest generalizing steps with
  | zero => rfl
  | succ rest ih => exact congrArg _ (ih (steps + 1))

theorem map_current_positions (c : Cursor) :
    c.positions.map (·.current) = c.current :: (c.ahead.map (some ·.token) ++ [none]) := by
  obtain ⟨source, ahead, current, span⟩ := c
  induction ahead generalizing current span with
  | nil => rfl
  | cons l rest ih => exact congrArg (current :: ·) (ih (some l.token) ⟨l.start, l.stop⟩)

theorem partitions (text : String) : Partitions text (tokensOf text).length := by
  obtain ⟨ended, -⟩ := atEnd_after (Nat.lt_succ_self (tokensOf text).length)
  have stop : (after text ((tokensOf text).length + 1)).span.stop = text.utf8ByteSize := by
    rw [ended.span]
  refine ⟨?_, ?_, next?_scanner text, fun index => standsOn_after, ?_, ?_,
    fun steps => atEnd_after⟩
  · calc (tokensOf text).length
      _ ≤ (after text (tokensOf text).length).span.stop := le_stop (Nat.le_refl _)
      _ ≤ (after text ((tokensOf text).length + 1)).span.start := stop_le_start text _
      _ ≤ (after text ((tokensOf text).length + 1)).span.stop := start_le_stop text _
      _ = text.utf8ByteSize := stop
  · rw [positions, List.range_eq_range', tokensOf, List.length_map]
    exact positions_after text 0 (Token.scan text).length
  · intro i j less _
    exact stop_le_start_of_lt text (Nat.succ_lt_succ less)
  · intro place inside outside
    rw [← stop] at inside
    rcases covered inside with ⟨index, less, reached, left⟩ | space
    · -- no byte is in the last span, which is that of the end
      rcases Nat.eq_or_lt_of_le (Nat.le_of_lt_succ less) with rfl | inner
      · rw [ended.span] at reached left
        exact absurd left (Nat.not_lt.mpr reached)
      · rcases outside index inner with before | behind
        · exact absurd before (Nat.not_lt.mpr reached)
        · exact absurd left (Nat.not_lt.mpr behind)
    · exact space

end Cursor

/-- A cursor cuts every text into its tokens, by bytes, and what is between them are spaces. Tokens
that are written out with spaces around them, and at least one between two runs, are what the cursor
finds in that text. -/
theorem cursor_partitions (text : String) :
    (∃ count, Cursor.Partitions text count) ∧
      ∀ items trailing, text.toList = Token.write items trailing →
        Token.Words (items.map (·.2)) → items.IsChain Token.SetApart →
        (Cursor.ofText text).positions.map (·.current) =
          none :: (items.map (some ·.2) ++ [none]) := by
  refine ⟨⟨_, Cursor.partitions text⟩, ?_⟩
  intro items trailing written words apart
  have found : tokensOf text = items.map (·.2) := by
    rw [← Token.found_write words apart trailing, ← written]
    rfl
  have seen : (Token.scan text).map (some ·.token) = items.map (some ·.2) := by
    have tokens := congrArg (List.map some) found
    rw [tokensOf, List.map_map, List.map_map] at tokens
    exact tokens
  rw [Cursor.map_current_positions, Cursor.ofText, seen]

theorem cursor_partitions_accented :
    " (né  x)y ".toList = Token.write [(1, .opening), (0, .run "né"), (2, .run "x"), (0, .closing),
      (0, .run "y")] 1 ∧
    (Cursor.ofText " (né  x)y ").positions.map (·.current) =
      [none, some .opening, some (.run "né"), some (.run "x"), some .closing, some (.run "y"),
        none] := by
  have words : Token.Words [.opening, .run "né", .run "x", .closing, .run "y"] := by
    intro text mem
    simp only [List.mem_cons, List.not_mem_nil, or_false, reduceCtorEq, false_or,
      Token.run.injEq] at mem
    rcases mem with rfl | rfl | rfl
    · exact word_of_all rfl
    · exact word_of_all rfl
    · exact word_of_all rfl
  have apart : List.IsChain Token.SetApart [(1, .opening), (0, .run "né"), (2, .run "x"),
      (0, .closing), (0, .run "y")] := by
    simp [Token.SetApart]
  refine ⟨rfl, ?_⟩
  exact (cursor_partitions " (né  x)y ").2 [(1, .opening), (0, .run "né"), (2, .run "x"),
    (0, .closing), (0, .run "y")] 1 rfl words apart

end Formula
