import Formula.Proofs.Descent.Bytes

/-!
Scanning by bytes. The scanner keeps a place in the bytes of its text and cuts the tokens out with
checked slices. No check fails, and the tokens are those of `Token.scan`.
-/

namespace Formula

structure Scanner where
  source : String
  pos : Nat := 0
  current : Option Token := none
  start : Nat := 0

namespace Scanner

def span (s : Scanner) : Span :=
  ⟨s.start, s.pos⟩

def isSpace (b : UInt8) : Bool :=
  b == ' '.toUInt8

def isDelimiter (b : UInt8) : Bool :=
  b == '('.toUInt8 || b == ')'.toUInt8 || b == ' '.toUInt8

def skipSpaces? (s : Scanner) : Option Nat := do
  let ahead ← Text.bytesFrom? s.source s.pos
  return s.pos + (ahead.takeWhile isSpace).length

def take? (s : Scanner) (start : Nat) : Option Scanner := do
  match (Text.bytes s.source)[start]? with
  | none => return { s with pos := start, current := none, start }
  | some b =>
    if b = '('.toUInt8 then return { s with pos := start + 1, current := some .opening, start }
    else if b = ')'.toUInt8 then return { s with pos := start + 1, current := some .closing, start }
    else
      let ahead ← Text.bytesFrom? s.source start
      let stop := start + (ahead.takeWhile (!isDelimiter ·)).length
      let text ← Text.slice? s.source start stop
      return { s with pos := stop, current := some (.run text), start }

/-- Goes on to the next token; there is no result if a slice cannot be taken. -/
def next? (s : Scanner) : Option Scanner := do
  s.take? (← s.skipSpaces?)

def context? (s : Scanner) : Option Context := do
  let before ← Text.slice? s.source 0 s.start
  return ⟨before, s.span⟩

theorem isSpace_encoded (c : Char) : ∀ b ∈ String.utf8EncodeChar c, isSpace b = (c == ' ') :=
  fun _ mem => Text.beq_encoded (by decide) mem

theorem isDelimiter_encoded (c : Char) :
    ∀ b ∈ String.utf8EncodeChar c, (!isDelimiter b) = (!Token.isDelimiter c) := by
  intro b mem
  rw [isDelimiter, Token.isDelimiter, Text.beq_encoded (by decide) mem,
    Text.beq_encoded (by decide) mem, Text.beq_encoded (by decide) mem, Bool.or_comm, Bool.or_assoc]

/-- What the scanner has before it are the tokens from this one on. -/
structure Ahead (s : Scanner) (text : String) (index : Nat) : Prop where
  source : s.source = text
  cut : ∃ done rest, text = done ++ rest ∧ s.pos = done.utf8ByteSize ∧
    Token.scanFrom s.pos false rest.toList = (Token.scan text).drop index

/-- The scanner stands on the token with this index, or at the end if there is none. -/
structure On (s : Scanner) (text : String) (index : Nat) : Prop extends s.Ahead text (index + 1) where
  current : s.current = (tokensOf text)[index]?
  span : (Context.ofIndex text (Token.scan text) index).span = s.span

theorem ahead_ofText (text : String) : Ahead { source := text } text 0 :=
  ⟨rfl, "", text, by simp, rfl, rfl⟩

theorem scanFrom_spaces {spaces : List Char} (all : ∀ c ∈ spaces, c = ' ') (start : Nat)
    (rest : List Char) :
    Token.scanFrom start false (spaces ++ rest) =
      Token.scanFrom (start + Text.byteSize spaces) false rest := by
  induction spaces generalizing start with
  | nil => rfl
  | cons c spaces ih =>
    obtain rfl := all c List.mem_cons_self
    have later := ih (fun c mem => all c (List.mem_cons_of_mem ' ' mem)) (start + ' '.utf8Size)
    rw [Nat.add_assoc, ← Text.byteSize_cons] at later
    exact later

theorem skipSpaces?_ahead {s : Scanner} {text : String} {index : Nat}
    (ahead : s.Ahead text index) :
    ∃ done rest, text = done ++ rest ∧ s.skipSpaces? = some done.utf8ByteSize ∧
      rest.toList.head? ≠ some ' ' ∧
      Token.scanFrom done.utf8ByteSize false rest.toList = (Token.scan text).drop index := by
  obtain ⟨rfl, done, rest, split, pos, scanned⟩ := ahead
  have whole := List.takeWhile_append_dropWhile (p := (· == ' ')) (l := rest.toList)
  have size : (done ++ String.ofList (rest.toList.takeWhile (· == ' '))).utf8ByteSize =
      s.pos + Text.byteSize (rest.toList.takeWhile (· == ' ')) := by
    rw [String.utf8ByteSize_append, ← Text.byteSize_toList (String.ofList _), String.toList_ofList,
      pos]
  refine ⟨done ++ .ofList (rest.toList.takeWhile (· == ' ')),
    .ofList (rest.toList.dropWhile (· == ' ')), ?_, ?_, ?_, ?_⟩
  · rw [split, String.append_assoc, ← String.ofList_append, whole, String.ofList_toList]
  · rw [size, skipSpaces?, pos, split, Text.bytesFrom?_cut, ← Text.length_encoded,
      ← Text.takeWhile_encoded isSpace_encoded, ← Text.bytes_eq]
    rfl
  · intro space
    rw [String.toList_ofList] at space
    have stops := List.head?_dropWhile_not (· == ' ') rest.toList
    rw [space] at stops
    cases stops
  · have spaces : ∀ c ∈ rest.toList.takeWhile (· == ' '), c = ' ' :=
      fun c mem => by simpa using List.mem_takeWhile_imp mem
    rw [size, String.toList_ofList, ← scanFrom_spaces spaces, whole, scanned]

theorem on_token {text done after : String} {t : Token} {index : Nat}
    (split : text = done ++ t.text ++ after) (stands : Token.Stands [] t after.toList)
    (scanned : Token.scanFrom done.utf8ByteSize false (t.text ++ after).toList =
      (Token.scan text).drop index) :
    On ⟨text, done.utf8ByteSize + t.text.utf8ByteSize, some t, done.utf8ByteSize⟩ text index := by
  have size : Text.byteSize t.chars = t.text.utf8ByteSize := Text.byteSize_toList t.text
  rw [String.toList_append] at scanned
  have found := Token.scanFrom_token stands done.utf8ByteSize
  rw [size] at found
  replace found := found.symm.trans scanned
  have here : (Token.scan text)[index]? = some ⟨t, done.utf8ByteSize⟩ := by
    rw [← List.head?_drop, ← found]
    rfl
  have later : (Token.scan text).drop (index + 1) =
      Token.scanFrom (done.utf8ByteSize + t.text.utf8ByteSize) false after.toList := by
    rw [← List.tail_drop, ← found]
    rfl
  refine ⟨⟨rfl, done ++ t.text, after, split, ?_, later.symm⟩, ?_, ?_⟩
  · rw [String.utf8ByteSize_append]
  · rw [tokensOf, List.getElem?_map, here]
    rfl
  · simp only [Context.ofIndex, here, Context.inText, Lexeme.stop, size]
    rfl

theorem on_end {text : String} {index : Nat} (none : (Token.scan text).drop index = []) :
    On ⟨text, text.utf8ByteSize, .none, text.utf8ByteSize⟩ text index := by
  have past := List.drop_eq_nil_iff.mp none
  have here := List.getElem?_eq_none past
  refine ⟨⟨rfl, text, "", by simp, rfl, ?_⟩, ?_, ?_⟩
  · exact (List.drop_eq_nil_of_le (Nat.le_succ_of_le past)).symm
  · rw [tokensOf, List.getElem?_map, here]
    rfl
  · simp only [Context.ofIndex, here]
    rfl

theorem getElem?_bytes (done rest : String) :
    (Text.bytes (done ++ rest))[done.utf8ByteSize]? = (Text.bytes rest).head? := by
  rw [Text.bytes_append, List.getElem?_append_right (Nat.le_of_eq (Text.length_bytes done)),
    Text.length_bytes, Nat.sub_self, List.head?_eq_getElem?]

theorem take?_run {s : Scanner} {done run after : String} {c : Char} {tail : List Char}
    (split : s.source = done ++ run ++ after) (chars : (run ++ after).toList = c :: tail)
    (solid : Token.isDelimiter c = false) (word : Word run)
    (boundary : Token.Boundary after.toList) :
    s.take? done.utf8ByteSize = some ⟨s.source, done.utf8ByteSize + run.utf8ByteSize,
      some (.run run), done.utf8ByteSize⟩ := by
  have bytes : Text.bytes (run ++ after) =
      String.utf8EncodeChar c ++ tail.flatMap String.utf8EncodeChar := by
    rw [Text.bytes_eq, chars, List.flatMap_cons]
  obtain ⟨b, more, encoded⟩ := List.exists_cons_of_ne_nil (String.utf8EncodeChar_ne_nil (c := c))
  have mem : b ∈ String.utf8EncodeChar c := by rw [encoded]; exact List.mem_cons_self
  have byte : (Text.bytes s.source)[done.utf8ByteSize]? = some b := by
    rw [split, String.append_assoc, getElem?_bytes, bytes, encoded]
    rfl
  obtain ⟨-, opening, closing⟩ := Token.solid_ne solid
  have notOpening : b ≠ '('.toUInt8 := by
    rintro rfl
    exact opening ((Text.mem_encoded (by decide)).mp mem)
  have notClosing : b ≠ ')'.toUInt8 := by
    rintro rfl
    exact closing ((Text.mem_encoded (by decide)).mp mem)
  have ahead : Text.bytesFrom? s.source done.utf8ByteSize = some (Text.bytes (run ++ after)) := by
    rw [split, String.append_assoc, Text.bytesFrom?_cut]
  have taken : (run ++ after).toList.takeWhile (!Token.isDelimiter ·) = run.toList := by
    rw [String.toList_append, List.takeWhile_append_of_pos, Token.takeWhile_boundary boundary,
      List.append_nil]
    intro d inner
    rw [word.solid d inner]
    rfl
  have length : ((Text.bytes (run ++ after)).takeWhile (!isDelimiter ·)).length =
      run.utf8ByteSize := by
    rw [Text.bytes_eq, Text.takeWhile_encoded isDelimiter_encoded, taken, Text.length_encoded,
      Text.byteSize_toList]
  simp only [take?, byte, if_neg notOpening, if_neg notClosing, ahead, Option.bind_eq_bind,
    Option.bind_some, length]
  rw [split, Text.slice?_cut]
  rfl

theorem take?_bracket {s : Scanner} {done after : String} {t : Token}
    (bracket : t = .opening ∨ t = .closing) (split : s.source = done ++ t.text ++ after) :
    s.take? done.utf8ByteSize = some ⟨s.source, done.utf8ByteSize + t.text.utf8ByteSize,
      some t, done.utf8ByteSize⟩ := by
  have byte : (Text.bytes s.source)[done.utf8ByteSize]? =
      (Text.bytes t.text ++ Text.bytes after).head? := by
    rw [split, String.append_assoc, getElem?_bytes, Text.bytes_append]
  rcases bracket with rfl | rfl
  · have first : (Text.bytes Token.opening.text ++ Text.bytes after).head? = some '('.toUInt8 := by
      rw [Text.bytes_eq]
      rfl
    rw [take?, byte, first]
    rfl
  · have first : (Text.bytes Token.closing.text ++ Text.bytes after).head? = some ')'.toUInt8 := by
      rw [Text.bytes_eq]
      rfl
    rw [take?, byte, first]
    rfl

/-- The scanner finds the next token, and every slice it takes exists. -/
theorem next?_on {s : Scanner} {text : String} {index : Nat} (ahead : s.Ahead text index) :
    ∃ next, s.next? = some next ∧ next.On text index := by
  obtain ⟨done, rest, split, skipped, space, scanned⟩ := skipSpaces?_ahead ahead
  obtain ⟨rfl, -⟩ := ahead
  have next : s.next? = s.take? done.utf8ByteSize := by rw [next?, skipped]; rfl
  rw [next]
  -- a token at the place is taken, and the scanner then stands on it
  have found {t : Token} {after : String} (cut : rest = t.text ++ after)
      (stands : Token.Stands [] t after.toList) (taken : s.take? done.utf8ByteSize =
        some ⟨s.source, done.utf8ByteSize + t.text.utf8ByteSize, some t, done.utf8ByteSize⟩) :
      ∃ next, s.take? done.utf8ByteSize = some next ∧ next.On s.source index := by
    subst cut
    exact ⟨_, taken, on_token (by rw [split, String.append_assoc]) stands scanned⟩
  cases chars : rest.toList with
  | nil =>
    rw [String.toList_eq_nil_iff] at chars
    subst chars
    rw [String.append_empty] at split
    subst split
    refine ⟨_, ?_, on_end scanned.symm⟩
    rw [take?, List.getElem?_eq_none (Nat.le_of_eq (Text.length_bytes _))]
    rfl
  | cons c tail =>
    rw [chars] at space
    have bracket {t : Token} (bracket : t = .opening ∨ t = .closing) (first : t.chars = [c]) :
        ∃ next, s.take? done.utf8ByteSize = some next ∧ next.On s.source index := by
      have cut : rest = t.text ++ .ofList tail := by
        rw [← String.toList_inj, chars, String.toList_append, String.toList_ofList]
        exact congrArg (· ++ tail) first.symm
      have parts : s.source = done ++ t.text ++ .ofList tail := by
        rw [split, cut, String.append_assoc]
      exact found cut (by rcases bracket with rfl | rfl <;> trivial) (take?_bracket bracket parts)
    cases delimiter : Token.isDelimiter c with
    | true =>
      rcases Token.delimiter_cases delimiter with rfl | rfl | rfl
      · exact absurd rfl space
      · exact bracket (.inl rfl) Token.chars_opening
      · exact bracket (.inr rfl) Token.chars_closing
    | false =>
      obtain ⟨run, after, same, word, boundary, -⟩ := Token.run_split delimiter tail
      have cut : rest = run ++ .ofList after := by
        rw [← String.toList_inj, chars, same, String.toList_append, String.toList_ofList]
      have boundary : Token.Boundary (String.ofList after).toList := by
        rwa [String.toList_ofList]
      have parts : s.source = done ++ run ++ .ofList after := by
        rw [split, cut, String.append_assoc]
      rw [cut] at chars
      exact found (t := .run run) cut ⟨word, rfl, boundary⟩
        (take?_run parts chars delimiter word boundary)

theorem context?_on {s : Scanner} {text : String} {index : Nat} (on : s.On text index)
    (bound : index ≤ (tokensOf text).length) :
    s.context? = some (Context.ofIndex text (Token.scan text) index) := by
  have span := on.span
  obtain ⟨points, -⟩ := pointsAt_ofIndex bound
  generalize Context.ofIndex text (Token.scan text) index = place at span points
  obtain ⟨after, split, -⟩ := points.split
  have start : s.start = place.before.utf8ByteSize := by rw [← points.start, span]; rfl
  have cut := Text.slice?_cut "" place.before (Token.written (tokensOf text)[index]? ++ after)
  rw [String.empty_append, ← String.append_assoc, ← split, String.utf8ByteSize_empty,
    Nat.zero_add, ← start] at cut
  rw [context?, on.source, cut, ← span]
  rfl

end Scanner

/- Tokens begin later and later. -/

def startOf (text : String) (index : Nat) : Nat :=
  (Context.ofIndex text (Token.scan text) index).span.start

theorem Scanner.On.start {s : Scanner} {text : String} {index : Nat} (on : s.On text index) :
    s.start = startOf text index := by
  rw [startOf, on.span]
  rfl

theorem Token.scanFrom_cons (start : Nat) (inside : Bool) (c : Char) (rest : List Char) :
    ∃ next, scanFrom start inside (c :: rest) = scanFrom (start + c.utf8Size) next rest ∨
      ∃ t, scanFrom start inside (c :: rest) =
        ⟨t, start⟩ :: scanFrom (start + c.utf8Size) next rest := by
  cases delimiter : isDelimiter c with
  | true =>
    rcases delimiter_cases delimiter with rfl | rfl | rfl
    · exact ⟨false, .inl rfl⟩
    · exact ⟨false, .inr ⟨.opening, rfl⟩⟩
    · exact ⟨false, .inr ⟨.closing, rfl⟩⟩
  | false =>
    cases inside with
    | true => exact ⟨true, .inl (scanFrom_inside delimiter start rest)⟩
    | false => exact ⟨true, .inr ⟨_, scanFrom_outside delimiter start rest⟩⟩

theorem Token.start_scanFrom {start : Nat} {inside : Bool} {text : List Char} {l : Lexeme}
    (mem : l ∈ scanFrom start inside text) :
    start ≤ l.start ∧ l.start < start + Text.byteSize text := by
  induction text generalizing start inside with
  | nil => cases mem
  | cons c rest ih =>
    have size := Char.utf8Size_pos c
    rw [Text.byteSize_cons]
    obtain ⟨next, scanned | ⟨t, scanned⟩⟩ := scanFrom_cons start inside c rest
    · rw [scanned] at mem
      have := ih mem
      omega
    · rw [scanned] at mem
      rcases List.mem_cons.mp mem with rfl | later
      · simp only
        omega
      · have := ih later
        omega

theorem Token.sorted_scanFrom (start : Nat) (inside : Bool) (text : List Char) :
    (scanFrom start inside text).Pairwise (·.start < ·.start) := by
  induction text generalizing start inside with
  | nil => exact .nil
  | cons c rest ih =>
    obtain ⟨next, scanned | ⟨t, scanned⟩⟩ := scanFrom_cons start inside c rest
    · rw [scanned]
      exact ih _ _
    · rw [scanned, List.pairwise_cons]
      refine ⟨?_, ih _ _⟩
      intro l mem
      exact Nat.lt_of_lt_of_le (Nat.lt_add_of_pos_right (Char.utf8Size_pos c)) (start_scanFrom mem).1

theorem startOf_lt {text : String} {i j : Nat} (less : i < j)
    (bound : j ≤ (tokensOf text).length) : startOf text i < startOf text j := by
  rw [tokensOf, List.length_map] at bound
  have inner : i < (Token.scan text).length := Nat.lt_of_lt_of_le less bound
  have here := List.getElem?_eq_getElem inner
  simp only [startOf, Context.ofIndex, here]
  rcases Nat.eq_or_lt_of_le bound with rfl | further
  · rw [List.getElem?_eq_none (Nat.le_refl _)]
    have within := (Token.start_scanFrom (List.getElem_mem inner)).2
    rw [Nat.zero_add, Text.byteSize_toList] at within
    exact within
  · rw [List.getElem?_eq_getElem further]
    exact List.pairwise_iff_getElem.mp (Token.sorted_scanFrom 0 false text.toList) i j inner
      further less

end Formula
