import Formula.Proofs.Reading.Term

namespace Formula.Token

def found (inside : Bool) (text : List Char) : List Token :=
  (scanFrom 0 inside text).map (·.token)

theorem map_token_scanFrom (start : Nat) (inside : Bool) (text : List Char) :
    (scanFrom start inside text).map (·.token) = found inside text := by
  induction text generalizing start inside with
  | nil => rfl
  | cons c rest ih =>
    have anywhere (s t : Nat) (i : Bool) :
        (scanFrom s i rest).map (·.token) = (scanFrom t i rest).map (·.token) :=
      (ih s i).trans (ih t i).symm
    simp only [found, scanFrom]
    split
    · exact anywhere _ _ _
    · split
      · exact congrArg (.opening :: ·) (anywhere _ _ _)
      · split
        · exact congrArg (.closing :: ·) (anywhere _ _ _)
        · split
          · exact anywhere _ _ _
          · exact congrArg (List.cons (.run _)) (anywhere _ _ _)

theorem found_space (inside : Bool) (rest : List Char) :
    found inside (' ' :: rest) = found false rest :=
  map_token_scanFrom _ false rest

theorem found_opening (inside : Bool) (rest : List Char) :
    found inside ('(' :: rest) = .opening :: found false rest :=
  congrArg _ (map_token_scanFrom _ false rest)

theorem found_closing (inside : Bool) (rest : List Char) :
    found inside (')' :: rest) = .closing :: found false rest :=
  congrArg _ (map_token_scanFrom _ false rest)

theorem solid_ne {c : Char} (solid : isDelimiter c = false) : c ≠ ' ' ∧ c ≠ '(' ∧ c ≠ ')' := by
  simpa [isDelimiter, and_assoc] using solid

theorem found_inside {c : Char} (solid : isDelimiter c = false) (rest : List Char) :
    found true (c :: rest) = found true rest := by
  obtain ⟨space, opening, closing⟩ := solid_ne solid
  simp only [found, scanFrom, if_neg space, if_neg opening, if_neg closing, if_true]
  exact map_token_scanFrom _ true rest

theorem found_outside {c : Char} (solid : isDelimiter c = false) (rest : List Char) :
    found false (c :: rest) =
      .run (String.ofList (c :: rest.takeWhile (!isDelimiter ·))) :: found true rest := by
  obtain ⟨space, opening, closing⟩ := solid_ne solid
  simp only [found, scanFrom, if_neg space, if_neg opening, if_neg closing, Bool.false_eq_true,
    if_false, List.map_cons]
  exact congrArg _ (map_token_scanFrom _ true rest)

theorem found_cons (inside : Bool) (c : Char) (rest : List Char) :
    ∃ front next, found inside (c :: rest) = front ++ found next rest := by
  cases delimiter : isDelimiter c with
  | true =>
    rcases delimiter_cases delimiter with rfl | rfl | rfl
    · exact ⟨[], false, found_space inside rest⟩
    · exact ⟨[.opening], false, found_opening inside rest⟩
    · exact ⟨[.closing], false, found_closing inside rest⟩
  | false =>
    cases inside with
    | true => exact ⟨[], true, found_inside delimiter rest⟩
    | false => exact ⟨[_], true, found_outside delimiter rest⟩

theorem mem_found {d : Char} {t : Token}
    (alone : ∀ inside rest, found inside (d :: rest) = t :: found false rest) {text : List Char}
    (mem : d ∈ text) (inside : Bool) : t ∈ found inside text := by
  induction text generalizing inside with
  | nil => cases mem
  | cons c rest ih =>
    rcases List.mem_cons.mp mem with rfl | later
    · rw [alone]
      exact List.mem_cons_self
    · obtain ⟨front, next, same⟩ := found_cons inside c rest
      rw [same]
      exact List.mem_append_right front (ih later next)

/-- A run that comes before the text ends there. -/
def Boundary (text : List Char) : Prop :=
  ∀ c, text.head? = some c → isDelimiter c = true

theorem found_boundary {text : List Char} (boundary : Boundary text) :
    found true text = found false text := by
  cases text with
  | nil => rfl
  | cons c rest =>
    rcases delimiter_cases (boundary c rfl) with rfl | rfl | rfl
    · rw [found_space, found_space]
    · rw [found_opening, found_opening]
    · rw [found_closing, found_closing]

theorem takeWhile_boundary {text : List Char} (boundary : Boundary text) :
    text.takeWhile (!isDelimiter ·) = [] := by
  cases text with
  | nil => rfl
  | cons c rest => rw [List.takeWhile_cons, boundary c rfl]; rfl

theorem found_rest {body text : List Char} (solid : ∀ c ∈ body, isDelimiter c = false) :
    found true (body ++ text) = found true text := by
  induction body with
  | nil => rfl
  | cons c body ih =>
    have first := solid c (List.mem_cons_self ..)
    have others : ∀ d ∈ body, isDelimiter d = false :=
      fun d mem => solid d (List.mem_cons_of_mem c mem)
    rw [List.cons_append, found_inside first, ih others]

theorem found_word {text : String} (word : Word text) {rest : List Char}
    (boundary : Boundary rest) :
    found false (text.toList ++ rest) = .run text :: found false rest := by
  have solid := word.solid
  cases chars : text.toList with
  | nil => exact absurd (String.toList_eq_nil_iff.mp chars) word.some
  | cons c body =>
    rw [chars] at solid
    have first := solid c (List.mem_cons_self ..)
    have others : ∀ d ∈ body, isDelimiter d = false :=
      fun d mem => solid d (List.mem_cons_of_mem c mem)
    have taken : (body ++ rest).takeWhile (!isDelimiter ·) = body := by
      rw [List.takeWhile_append_of_pos, takeWhile_boundary boundary, List.append_nil]
      intro d mem
      rw [others d mem]
      rfl
    have whole : String.ofList (c :: body) = text := by rw [← chars, String.ofList_toList]
    rw [List.cons_append, found_outside first, taken, whole, found_rest others,
      found_boundary boundary]

def Words (ts : List Token) : Prop :=
  ∀ text, .run text ∈ ts → Word text

theorem found_gap (t u : Token) (rest : List Char) :
    found false (gap t u ++ rest) = found false rest := by
  unfold gap
  split
  · rfl
  · rfl
  · exact found_space false rest

theorem boundary_gap (text : String) (u : Token) (rest : List Token) :
    Boundary (gap (.run text) u ++ spell (u :: rest)) := by
  intro c head
  cases u with
  | closing =>
    have first : c = ')' := by
      cases rest with
      | nil => exact (Option.some.inj head).symm
      | cons v more => exact (Option.some.inj head).symm
    rw [first]
    rfl
  | opening =>
    cases head
    rfl
  | run other =>
    cases head
    rfl

theorem found_spell {ts : List Token} (words : Words ts) : found false (spell ts) = ts := by
  induction ts with
  | nil => rfl
  | cons t ts ih =>
    have others : Words ts := fun text mem => words text (List.mem_cons_of_mem t mem)
    cases ts with
    | nil =>
      cases t with
      | opening => rfl
      | closing => rfl
      | run text =>
        have word := words text (List.mem_cons_self ..)
        have ended : Boundary [] := by
          intro c head
          cases head
        have one := found_word word ended
        rw [List.append_nil] at one
        exact one
    | cons u rest =>
      have next := (found_gap t u (spell (u :: rest))).trans (ih others)
      rw [spell, List.append_assoc]
      cases t with
      | opening => exact (found_opening false _).trans (congrArg _ next)
      | closing => exact (found_closing false _).trans (congrArg _ next)
      | run text =>
        have word := words text (List.mem_cons_self ..)
        exact (found_word word (boundary_gap text u rest)).trans (congrArg _ next)

theorem scan_spell {ts : List Token} (words : Words ts) :
    (scan (String.ofList (spell ts))).map (·.token) = ts := by
  rw [scan, String.toList_ofList]
  exact found_spell words

end Formula.Token
