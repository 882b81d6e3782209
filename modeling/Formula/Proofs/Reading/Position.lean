import Mathlib.Data.List.TakeWhile
import Formula.Proofs.Reading.Run

namespace Formula

namespace Token

theorem chars_opening : Token.opening.chars = ['('] := by
  simp [chars, text]

theorem chars_closing : Token.closing.chars = [')'] := by
  simp [chars, text]

def endsInside (inside : Bool) : List Char → Bool
  | [] => inside
  | c :: rest => endsInside (!isDelimiter c) rest

/-- The token stands between the two texts: it is a bracket, or a run that goes no further in either
direction. -/
def StandsFrom (inside : Bool) (before : List Char) (t : Token) (after : List Char) : Prop :=
  match t with
  | .run text => Word text ∧ endsInside inside before = false ∧ Boundary after
  | _ => True

abbrev Stands : List Char → Token → List Char → Prop :=
  StandsFrom false

theorem scanFrom_inside {c : Char} (solid : isDelimiter c = false) (start : Nat)
    (rest : List Char) :
    scanFrom start true (c :: rest) = scanFrom (start + c.utf8Size) true rest := by
  obtain ⟨space, opening, closing⟩ := solid_ne solid
  simp only [scanFrom, if_neg space, if_neg opening, if_neg closing, if_true]

theorem scanFrom_outside {c : Char} (solid : isDelimiter c = false) (start : Nat)
    (rest : List Char) :
    scanFrom start false (c :: rest) =
      ⟨.run (String.ofList (c :: rest.takeWhile (!isDelimiter ·))), start⟩ ::
        scanFrom (start + c.utf8Size) true rest := by
  obtain ⟨space, opening, closing⟩ := solid_ne solid
  simp only [scanFrom, if_neg space, if_neg opening, if_neg closing, Bool.false_eq_true, if_false]

theorem scanFrom_boundary {text : List Char} (boundary : Boundary text) (start : Nat)
    (inside : Bool) : scanFrom start inside text = scanFrom start false text := by
  cases text with
  | nil => rfl
  | cons c rest => rcases delimiter_cases (boundary c rfl) with rfl | rfl | rfl <;> rfl

theorem boundary_cons {c : Char} (delimiter : isDelimiter c = true) (rest : List Char) :
    Boundary (c :: rest) := by
  intro d head
  cases head
  exact delimiter

/-- A run does not go from the first text into the second. -/
def Apart (inside : Bool) (a b : List Char) : Prop :=
  endsInside inside a = false ∨ Boundary b

theorem takeWhile_apart {a b : List Char} (apart : Apart true a b) :
    (a ++ b).takeWhile (!isDelimiter ·) = a.takeWhile (!isDelimiter ·) := by
  induction a with
  | nil => exact takeWhile_boundary (apart.resolve_left Bool.noConfusion)
  | cons c a ih =>
    rw [List.cons_append, List.takeWhile_cons, List.takeWhile_cons]
    cases delimiter : isDelimiter c with
    | true => rfl
    | false =>
      rw [Apart, endsInside, delimiter] at apart
      rw [ih apart]

theorem scanFrom_append {inside : Bool} {a b : List Char} (apart : Apart inside a b) (start : Nat) :
    scanFrom start inside (a ++ b) =
      scanFrom start inside a ++ scanFrom (start + Text.byteSize a) false b := by
  induction a generalizing start inside with
  | nil =>
    rcases apart with outside | boundary
    · cases outside
      rfl
    · exact scanFrom_boundary boundary start inside
  | cons c a ih =>
    rw [Apart, endsInside] at apart
    have later := ih apart (start + c.utf8Size)
    rw [Nat.add_assoc, ← Text.byteSize_cons] at later
    rw [List.cons_append]
    cases delimiter : isDelimiter c with
    | true =>
      rw [delimiter] at later
      rcases delimiter_cases delimiter with rfl | rfl | rfl
      · exact later
      · exact congrArg _ later
      · exact congrArg _ later
    | false =>
      rw [delimiter] at apart later
      cases inside with
      | true =>
        rw [scanFrom_inside delimiter, scanFrom_inside delimiter]
        exact later
      | false =>
        -- the run that begins here does not go on into the second text
        rw [scanFrom_outside delimiter, scanFrom_outside delimiter, takeWhile_apart apart]
        exact congrArg _ later

theorem StandsFrom.apart {inside : Bool} {before after : List Char} {t : Token}
    (stands : StandsFrom inside before t after) : Apart inside before (t.chars ++ after) := by
  cases t with
  | opening => exact .inr (boundary_cons rfl after)
  | closing => exact .inr (boundary_cons rfl after)
  | run text => exact .inl stands.2.1

theorem scanFrom_solid {text : List Char} (solid : ∀ c ∈ text, isDelimiter c = false)
    (start : Nat) : scanFrom start true text = [] := by
  induction text generalizing start with
  | nil => rfl
  | cons c rest ih =>
    have first := solid c List.mem_cons_self
    rw [scanFrom_inside first]
    exact ih (fun d mem => solid d (List.mem_cons_of_mem c mem)) _

theorem scanFrom_word {text : String} (word : Word text) (start : Nat) :
    scanFrom start false text.toList = [⟨.run text, start⟩] := by
  have solid := word.solid
  have whole : String.ofList text.toList = text := String.ofList_toList
  cases chars : text.toList with
  | nil => exact absurd (String.toList_eq_nil_iff.mp chars) word.some
  | cons c body =>
    rw [chars] at solid whole
    have others : ∀ d ∈ body, isDelimiter d = false :=
      fun d mem => solid d (List.mem_cons_of_mem c mem)
    have taken : body.takeWhile (!isDelimiter ·) = body := by
      rw [List.takeWhile_eq_self_iff]
      intro d mem
      rw [others d mem]
      rfl
    rw [scanFrom_outside (solid c List.mem_cons_self), taken, whole, scanFrom_solid others]

theorem scanFrom_token {before after : List Char} {t : Token} (stands : Stands before t after)
    (start : Nat) :
    scanFrom start false (t.chars ++ after) =
      ⟨t, start⟩ :: scanFrom (start + Text.byteSize t.chars) false after := by
  cases t with
  | opening => rfl
  | closing => rfl
  | run text =>
    obtain ⟨word, -, boundary⟩ := stands
    rw [scanFrom_append (.inr boundary)]
    exact congrArg (· ++ _) (scanFrom_word word start)

theorem scanFrom_stands {before after : List Char} {t : Token} (stands : Stands before t after) :
    scanFrom 0 false (before ++ (t.chars ++ after)) =
      scanFrom 0 false before ++ ⟨t, Text.byteSize before⟩ ::
        scanFrom (Text.byteSize before + Text.byteSize t.chars) false after := by
  rw [scanFrom_append stands.apart, scanFrom_token stands, Nat.zero_add]

theorem run_split {c : Char} (solid : isDelimiter c = false) (rest : List Char) :
    ∃ text after, c :: rest = text.toList ++ after ∧ Word text ∧ Boundary after ∧
      .ofList (c :: rest.takeWhile (!isDelimiter ·)) = text := by
  refine ⟨_, rest.dropWhile (!isDelimiter ·), ?_, ⟨?_, ?_⟩, ?_, rfl⟩
  · rw [String.toList_ofList, List.cons_append, List.takeWhile_append_dropWhile]
  · simp
  · intro d mem
    rw [String.toList_ofList] at mem
    rcases List.mem_cons.mp mem with rfl | later
    · exact solid
    · simpa using List.mem_takeWhile_imp later
  · intro d head
    simpa [head] using List.head?_dropWhile_not (!isDelimiter ·) rest

theorem StandsFrom.cons {inside next : Bool} {c : Char} {before after : List Char} {t : Token}
    (stands : StandsFrom next before t after) (same : (!isDelimiter c) = next) :
    StandsFrom inside (c :: before) t after := by
  subst same
  cases t with
  | opening => trivial
  | closing => trivial
  | run text => exact stands

/-- Every token that is found cuts its text, and those found before it are the tokens of what comes
before. -/
theorem scanFrom_split {start : Nat} {inside : Bool} {text : List Char} {front back : List Lexeme}
    {l : Lexeme} (scanned : scanFrom start inside text = front ++ l :: back) :
    ∃ before after, text = before ++ (l.token.chars ++ after) ∧
      StandsFrom inside before l.token after ∧ scanFrom start inside before = front := by
  -- a character is the first of the token, or it joins what comes before the token in the rest
  induction text generalizing start inside front with
  | nil => cases front <;> cases scanned
  | cons c rest ih =>
    cases delimiter : isDelimiter c with
    | true =>
      rcases delimiter_cases delimiter with rfl | rfl | rfl
      · obtain ⟨before, after, rfl, stands, found⟩ := ih scanned
        exact ⟨' ' :: before, after, rfl, stands.cons rfl, found⟩
      · rcases List.cons_eq_append_iff.mp scanned with ⟨rfl, same⟩ | ⟨more, rfl, later⟩
        · cases same
          exact ⟨[], rest, by rw [chars_opening]; rfl, trivial, rfl⟩
        · obtain ⟨before, after, rfl, stands, found⟩ := ih later
          exact ⟨'(' :: before, after, rfl, stands.cons rfl, congrArg _ found⟩
      · rcases List.cons_eq_append_iff.mp scanned with ⟨rfl, same⟩ | ⟨more, rfl, later⟩
        · cases same
          exact ⟨[], rest, by rw [chars_closing]; rfl, trivial, rfl⟩
        · obtain ⟨before, after, rfl, stands, found⟩ := ih later
          exact ⟨')' :: before, after, rfl, stands.cons rfl, congrArg _ found⟩
    | false =>
      have solid : (!isDelimiter c) = true := by rw [delimiter]; rfl
      cases inside with
      | true =>
        rw [scanFrom_inside delimiter] at scanned
        obtain ⟨before, after, rfl, stands, found⟩ := ih scanned
        refine ⟨c :: before, after, rfl, stands.cons solid, ?_⟩
        rw [scanFrom_inside delimiter, found]
      | false =>
        rw [scanFrom_outside delimiter] at scanned
        rcases List.cons_eq_append_iff.mp scanned with ⟨rfl, same⟩ | ⟨more, rfl, later⟩
        · cases same
          obtain ⟨text, after, same, word, boundary, run⟩ := run_split delimiter rest
          rw [run]
          exact ⟨[], after, same, ⟨word, rfl, boundary⟩, rfl⟩
        · obtain ⟨before, after, rfl, stands, found⟩ := ih later
          refine ⟨c :: before, after, rfl, stands.cons solid, ?_⟩
          rw [scanFrom_outside delimiter, found, takeWhile_apart stands.apart]

theorem getElem?_cut (taken rest : List Token) (t : Token) :
    (taken ++ t :: rest)[taken.length]? = some t := by
  simp

def written : Option Token → String
  | some t => t.text
  | none => ""

end Token

/-- The place belongs to a whole token of the text, or to its end: it tells the text before and the
bytes that the token takes. -/
structure Context.PointsAt (place : Context) (text : String) (pointed : Option Token) : Prop where
  start : place.span.start = place.before.utf8ByteSize
  stop : place.span.stop = place.span.start + (Token.written pointed).utf8ByteSize
  split : ∃ after, text = place.before ++ Token.written pointed ++ after ∧
    match pointed with
    | some t => Token.Stands place.before.toList t after.toList
    | none => after = ""

def Span.upTo (s : Span) (text : String) : String :=
  .ofList (Text.takeBytes s.stop text.toList)

def Span.slice (s : Span) (text : String) : String :=
  .ofList ((Text.takeBytes s.stop text.toList).drop (Text.takeBytes s.start text.toList).length)

theorem takeBytes_beginning (beginning rest : String) :
    Text.takeBytes beginning.utf8ByteSize (beginning ++ rest).toList = beginning.toList := by
  rw [String.toList_append, ← Text.byteSize_toList, Text.takeBytes_append]

theorem Context.PointsAt.upTo_eq {place : Context} {text : String} {pointed : Option Token}
    (points : place.PointsAt text pointed) :
    place.span.upTo text = place.before ++ Token.written pointed := by
  obtain ⟨start, stop, after, rfl, -⟩ := points
  rw [Span.upTo, stop, start, ← String.utf8ByteSize_append, takeBytes_beginning,
    String.ofList_toList]

theorem Context.PointsAt.slice_eq {place : Context} {text : String} {pointed : Option Token}
    (points : place.PointsAt text pointed) :
    place.span.slice text = Token.written pointed := by
  have whole := congrArg String.toList points.upTo_eq
  rw [Span.upTo, String.toList_ofList, String.toList_append] at whole
  obtain ⟨start, stop, after, rfl, -⟩ := points
  rw [Span.slice, whole, start, String.append_assoc, takeBytes_beginning, List.drop_left,
    String.ofList_toList]

theorem scan_stands {before after : String} {t : Token}
    (stands : Token.Stands before.toList t after.toList) :
    Token.scan (before ++ t.text ++ after) =
      Token.scan before ++ ⟨t, before.utf8ByteSize⟩ ::
        Token.scanFrom (before.utf8ByteSize + t.text.utf8ByteSize) false after.toList := by
  have cut := Token.scanFrom_stands stands
  rw [Token.chars, Text.byteSize_toList, Text.byteSize_toList] at cut
  rw [Token.scan, String.toList_append, String.toList_append, List.append_assoc]
  exact cut

theorem tokensOf_stands {before after : String} {t : Token}
    (stands : Token.Stands before.toList t after.toList) :
    tokensOf (before ++ t.text ++ after) = tokensOf before ++ t :: tokensOf after := by
  rw [tokensOf, scan_stands stands, List.map_append, List.map_cons, Token.map_token_scanFrom]
  rfl

theorem ofIndex_stands {before after : String} {t : Token}
    (stands : Token.Stands before.toList t after.toList) :
    Context.ofIndex (before ++ t.text ++ after) (Token.scan (before ++ t.text ++ after))
        (tokensOf before).length =
      ⟨before, before.utf8ByteSize, before.utf8ByteSize + t.text.utf8ByteSize⟩ := by
  have found : (Token.scan (before ++ t.text ++ after))[(tokensOf before).length]? =
      some ⟨t, before.utf8ByteSize⟩ := by
    rw [scan_stands stands, tokensOf, List.length_map, List.getElem?_append_right (Nat.le_refl _),
      Nat.sub_self]
    rfl
  simp only [Context.ofIndex, found, Lexeme.stop, Context.inText]
  rw [String.toList_append, String.toList_append, List.append_assoc, ← Text.byteSize_toList,
    Text.takeBytes_append, String.ofList_toList, Token.chars, Text.byteSize_toList t.text]

theorem ofIndex_end (text : String) :
    Context.ofIndex text (Token.scan text) (tokensOf text).length =
      ⟨text, text.utf8ByteSize, text.utf8ByteSize⟩ := by
  have none : (Token.scan text)[(tokensOf text).length]? = none := by
    rw [tokensOf, List.length_map, List.getElem?_eq_none (Nat.le_refl _)]
  have whole := Text.takeBytes_append text.toList []
  rw [List.append_nil, Text.byteSize_toList] at whole
  simp only [Context.ofIndex, none, Context.inText]
  rw [whole, String.ofList_toList]

theorem stands_of_index {text : String} {index : Nat} (inner : index < (tokensOf text).length) :
    ∃ before t after, text = before ++ t.text ++ after ∧
      Token.Stands before.toList t after.toList ∧ (tokensOf before).length = index := by
  have bound : index < (Token.scan text).length := by rwa [tokensOf, List.length_map] at inner
  have scanned := List.take_append_drop index (Token.scan text)
  rw [List.drop_eq_getElem_cons bound] at scanned
  obtain ⟨before, after, split, stands, found⟩ := Token.scanFrom_split scanned.symm
  refine ⟨.ofList before, (Token.scan text)[index].token, .ofList after, ?_, ?_, ?_⟩
  · rw [← String.toList_inj, split, String.toList_append, String.toList_append,
      String.toList_ofList, String.toList_ofList, List.append_assoc, Token.chars]
  · rw [String.toList_ofList, String.toList_ofList]
    exact stands
  · rw [tokensOf, Token.scan, String.toList_ofList, found, List.length_map,
      List.length_take_of_le (Nat.le_of_lt bound)]

theorem pointsAt_ofIndex {text : String} {index : Nat} (bound : index ≤ (tokensOf text).length) :
    (Context.ofIndex text (Token.scan text) index).PointsAt text (tokensOf text)[index]? ∧
      tokensOf (Context.ofIndex text (Token.scan text) index).before =
        (tokensOf text).take index := by
  rcases Nat.eq_or_lt_of_le bound with rfl | inner
  · rw [ofIndex_end, List.getElem?_eq_none (Nat.le_refl _), List.take_length]
    refine ⟨⟨rfl, ?_, "", ?_, rfl⟩, rfl⟩
    · simp [Token.written]
    · simp [Token.written]
  · obtain ⟨before, t, after, rfl, stands, rfl⟩ := stands_of_index inner
    have pointed : (tokensOf (before ++ t.text ++ after))[(tokensOf before).length]? = some t := by
      rw [tokensOf_stands stands, Token.getElem?_cut]
    rw [ofIndex_stands stands, pointed]
    refine ⟨⟨rfl, rfl, after, rfl, stands⟩, ?_⟩
    rw [tokensOf_stands stands, List.take_left]

end Formula
