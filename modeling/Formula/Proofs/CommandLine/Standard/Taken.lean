import Mathlib.Data.List.Nodup
import Mathlib.Data.List.TakeWhile
import Formula.CommandLine.Standard.Reader
import Formula.Proofs.CommandLine.Line
import Formula.Proofs.Reading.Term

namespace Formula.CommandLine.Standard

def given (parts : List Part) : Given where
  reading := (valueIn? parts .reading).bind fun value => (Notation.read value).toOption
  maxDepth := (valueIn? parts .maxDepth).bind fun value => readLimit? value.toList
  verbosity := (parts.map Part.steps).sum
  x := (valueIn? parts (.coordinate .x)).bind Number.read?
  y := (valueIn? parts (.coordinate .y)).bind Number.read?
  z := (valueIn? parts (.coordinate .z)).bind Number.read?
  wrt := (valueIn? parts .wrt).bind Variable.ofName?
  output := (valueIn? parts .output).bind fun value => (Notation.read value).toOption
  target := (valueIn? parts .target).bind fun value => (Notation.read value).toOption
  formula := parts.findSome? Part.formula?

theorem fill_none {α : Type} {value : Option α} (some : value.isSome) :
    fill none value = .ok value := by
  cases value with
  | none => cases some
  | some v => rfl

theorem set_given {parts : List Part} {s : Setting} {value : String}
    (fresh : valueIn? parts s = none) (takes : s.Takes value) :
    (given parts).set s value.toList = .ok (given (parts ++ [.setting s value])) := by
  have here : valueIn? (parts ++ [.setting s value]) s = some value := by
    rw [valueIn?_snoc, fresh, Option.none_or, Part.value?, if_pos rfl]
  have others (s' : Setting) (ne : s ≠ s') :
      valueIn? (parts ++ [.setting s value]) s' = valueIn? parts s' := by
    rw [valueIn?_snoc, Part.value?, if_neg ne, Option.or_none]
  rcases s with _ | _ | (_ | _ | _) | _ | _ | _ <;>
    simp [Given.set, given, fresh, here, others, fill_none takes, Part.steps, Part.formula?]

theorem given_verbose (parts : List Part) (steps : Nat) :
    given (parts ++ [.verbose steps]) =
      { given parts with verbosity := (given parts).verbosity + steps } := by
  simp [given, valueIn?_snoc, Part.value?, Part.steps, Part.formula?]

theorem given_formula {parts : List Part} (only : parts.findSome? Part.formula? = none)
    (text : String) :
    given (parts ++ [.formula text]) = { given parts with formula := some text } := by
  simp [given, valueIn?_snoc, Part.value?, Part.steps, Part.formula?, only]

/- The texts of values. -/

theorem chars_of_name {value name : String} (known : name ∈ ["infix", "rpn", "prefix", "postfix"])
    (same : String.ofList (value.toList.map Char.toLower) = name) :
    value ≠ "" ∧ '=' ∉ value.toList := by
  have solid : ∀ name ∈ ["infix", "rpn", "prefix", "postfix"],
      name.toList ≠ [] ∧ '=' ∉ name.toList := by decide
  have chars : value.toList.map Char.toLower = name.toList := by rw [← same, String.toList_ofList]
  obtain ⟨some, absent⟩ := solid name known
  constructor
  · rintro rfl
    exact some chars.symm
  · intro mem
    have lower := List.mem_map_of_mem (f := Char.toLower) mem
    rw [chars] at lower
    exact absent lower

theorem chars_of_notation {value : String} (form : (Notation.read value).toOption.isSome) :
    value ≠ "" ∧ '=' ∉ value.toList := by
  unfold Notation.read at form
  simp only at form
  split at form
  · next bare =>
    rcases bare with same | same <;> exact chars_of_name (by simp) same
  · split at form
    · next same => exact chars_of_name (by simp) same
    · split at form
      · next same => exact chars_of_name (by simp) same
      · cases form

theorem digits_of_limit {text : List Char} (limit : (readLimit? text).isSome) :
    ∃ digits, (text = '+' :: digits ∨ text = digits) ∧ digits ≠ [] ∧
      digits.all Char.isDigit = true := by
  unfold readLimit? at limit
  extract_lets digits number at limit
  have shape : text = '+' :: digits ∨ text = digits := by
    unfold digits
    split
    · exact .inl rfl
    · exact .inr rfl
  split at limit
  · next bounded => exact ⟨digits, shape, bounded.1, bounded.2.1⟩
  · cases limit

theorem chars_of_limit {text : List Char} (limit : (readLimit? text).isSome) :
    text ≠ [] ∧ '=' ∉ text := by
  obtain ⟨digits, shape, some, all⟩ := digits_of_limit limit
  have absent : '=' ∉ digits := by
    intro mem
    cases List.all_eq_true.mp all _ mem
  rcases shape with rfl | rfl
  · simpa using absent
  · exact ⟨some, absent⟩

theorem chars_of_takes {s : Setting} {value : String} (takes : s.Takes value) :
    value ≠ "" ∧ '=' ∉ value.toList := by
  cases s with
  | reading => exact chars_of_notation takes
  | output => exact chars_of_notation takes
  | target => exact chars_of_notation takes
  | maxDepth =>
    obtain ⟨some, solid⟩ := chars_of_limit takes
    exact ⟨fun none => some (by rw [none]; rfl), solid⟩
  | coordinate v =>
    obtain ⟨number, read⟩ := Option.isSome_iff_exists.mp takes
    refine ⟨Number.ne_empty_of_read? read, ?_⟩
    intro mem
    cases Number.numerals_of_read? read _ mem
  | wrt =>
    obtain ⟨v, found⟩ := Option.isSome_iff_exists.mp takes
    rw [← name_of_ofName? found]
    cases v <;> decide

/- The table of options. -/

theorem byName?_option (place : Option Subcommand) :
    ∀ o ∈ options place, byName? place o.name.toList = some o.choice := by
  rcases place with _ | _ | _ | _ <;> decide

theorem byLetter?_option (place : Option Subcommand) :
    ∀ o ∈ options place, ∀ c, o.letter = some c → byLetter? place c = some o.choice := by
  have each : ∀ o ∈ options place, o.letter.all fun c => byLetter? place c = some o.choice := by
    rcases place with _ | _ | _ | _ <;> decide
  intro o option c letter
  simpa [letter] using each o option

theorem name_option (place : Option Subcommand) :
    ∀ o ∈ options place, o.name.toList ≠ [] ∧ '=' ∉ o.name.toList := by
  rcases place with _ | _ | _ | _ <;> decide

theorem letter_option (place : Option Subcommand) :
    ∀ o ∈ options place, o.letter ≠ some '-' := by
  rcases place with _ | _ | _ | _ <;> decide

namespace Progress

def after (place : Option Subcommand) (outer : Given) (parts : List Part) : Progress :=
  ⟨place, outer, given parts, none, false⟩

variable {p : Progress} {argument : String}

theorem take_word (options : p.ended = false) (idle : p.waiting = none)
    (plain : argument.toList.head? ≠ some '-') :
    p.take argument = p.takeWord argument.toList := by
  simp only [take, options, idle, Bool.false_eq_true, if_false]
  split
  · next text => simp [text] at plain
  · next text => simp [text] at plain
  · next text => simp [text] at plain
  · rfl

theorem take_long {c : Char} {name : List Char} (options : p.ended = false)
    (idle : p.waiting = none) (text : argument.toList = '-' :: '-' :: c :: name) :
    p.take argument = p.takeName (c :: name) := by
  simp only [take, options, idle, text]
  rfl

theorem take_short {c : Char} {letters : List Char} (options : p.ended = false)
    (idle : p.waiting = none) (ne : c ≠ '-') (text : argument.toList = '-' :: c :: letters) :
    p.take argument = p.takeLetters (c :: letters) := by
  simp only [take, options, idle, text]
  simp [ne]

theorem take_value {s : Setting} (options : p.ended = false) (waits : p.waiting = some s) :
    p.take argument = p.takeValue s argument.toList := by
  simp only [take, options, waits]
  rfl

theorem take_formula (ended : p.ended = true) : p.take argument = p.takeWord argument.toList := by
  simp only [take, ended, if_true]

theorem set_after {place : Option Subcommand} {outer : Given} {parts : List Part} {s : Setting}
    {value : String} (waiting : Option Setting) (fresh : valueIn? parts s = none)
    (takes : s.Takes value) :
    ({ after place outer parts with waiting := waiting }).set s value.toList =
      .ok (after place outer (parts ++ [.setting s value])) := by
  simp only [set, after, set_given fresh takes]
  rfl

theorem takeValue_stands {s : Setting} {value : String} (stands : s.Stands value) (p : Progress) :
    p.takeValue s value.toList = p.set s value.toList := by
  unfold Setting.Stands at stands
  cases text : value.toList with
  | nil => cases s <;> rfl
  | cons c rest =>
    rw [text] at stands
    by_cases minus : c = '-'
    · subst minus
      obtain ⟨⟨v, rfl⟩, plain⟩ := stands
      simp [takeValue, plain]
    · cases s <;> simp [takeValue, minus]

theorem takeLetters_setting {c : Char} {s : Setting}
    (found : byLetter? p.place c = some (.setting s)) {value : String} (takes : s.Takes value) :
    p.takeLetters (c :: value.toList) = p.set s value.toList := by
  obtain ⟨some, absent⟩ := chars_of_takes takes
  cases text : value.toList with
  | nil => exact absurd (String.toList_eq_nil_iff.mp text) some
  | cons d rest =>
    have ne : d ≠ '=' := by
      rintro rfl
      rw [text] at absent
      exact absent List.mem_cons_self
    simp [takeLetters, found, ne]

theorem takeLetters_equals {c : Char} {s : Setting}
    (found : byLetter? p.place c = some (.setting s)) (value : List Char) :
    p.takeLetters (c :: '=' :: value) = p.set s value := by
  simp only [takeLetters, found]

theorem takeLetters_waits {c : Char} {s : Setting}
    (found : byLetter? p.place c = some (.setting s)) :
    p.takeLetters [c] = .ok { p with waiting := some s } := by
  simp only [takeLetters, found]

theorem bne_equals {name : List Char} (solid : '=' ∉ name) : ∀ c ∈ name, (c != '=') = true := by
  intro c mem
  rw [bne_iff_ne]
  rintro rfl
  exact solid mem

theorem takeName_waits {name : List Char} {s : Setting}
    (found : byName? p.place name = some (.setting s)) (solid : '=' ∉ name) :
    p.takeName name = .ok { p with waiting := some s } := by
  have head : name.takeWhile (· != '=') = name := List.takeWhile_eq_self_iff.mpr (bne_equals solid)
  have tail : name.dropWhile (· != '=') = [] := List.dropWhile_eq_nil_iff.mpr (bne_equals solid)
  simp only [takeName, head, tail, found]

theorem takeName_equals {name : List Char} {s : Setting}
    (found : byName? p.place name = some (.setting s)) (solid : '=' ∉ name) (value : List Char) :
    p.takeName (name ++ '=' :: value) = p.set s value := by
  simp [takeName, List.takeWhile_append_of_pos (bne_equals solid),
    List.dropWhile_append_of_pos (bne_equals solid), found]

theorem takeLetters_verbose (p : Progress) (steps : Nat) :
    p.takeLetters (List.replicate steps 'v') =
      .ok { p with here := { p.here with verbosity := p.here.verbosity + steps } } := by
  induction steps generalizing p with
  | zero => rfl
  | succ steps ih =>
    have verbose : byLetter? p.place 'v' = some (.switch .verbose) := by
      rcases p.place with _ | _ | _ | _ <;> rfl
    simp only [List.replicate_succ, takeLetters, verbose, press]
    change takeLetters _ (List.replicate steps 'v') = _
    rw [ih, Nat.add_assoc, Nat.add_comm 1]

section Options

variable {place : Option Subcommand} {outer : Given} {parts : List Part} {o : Spelling}
  {s : Setting}

theorem take_name (option : o ∈ options place) {argument : String} (rest : List Char)
    (text : argument.toList = '-' :: '-' :: (o.name.toList ++ rest)) :
    (after place outer parts).take argument =
      (after place outer parts).takeName (o.name.toList ++ rest) := by
  obtain ⟨some, -⟩ := name_option place o option
  cases name : o.name.toList with
  | nil => exact absurd name some
  | cons c more =>
    rw [name, List.cons_append] at text
    exact take_long rfl rfl text

theorem take_name_waits (option : o ∈ options place) (choice : o.choice = .setting s) :
    (after place outer parts).take ("--" ++ o.name) =
      .ok { after place outer parts with waiting := some s } := by
  have found := byName?_option place o option
  rw [choice] at found
  rw [take_name option [] (by simp), List.append_nil,
    takeName_waits found (name_option place o option).2]

theorem take_name_equals (option : o ∈ options place) (choice : o.choice = .setting s)
    (value : String) :
    (after place outer parts).take ("--" ++ o.name ++ "=" ++ value) =
      (after place outer parts).set s value.toList := by
  have found := byName?_option place o option
  rw [choice] at found
  rw [take_name option ('=' :: value.toList) (by simp),
    takeName_equals found (name_option place o option).2]

theorem take_letter {c : Char} (option : o ∈ options place) (letter : o.letter = some c)
    {argument : String} (rest : List Char) (text : argument.toList = '-' :: c :: rest) :
    (after place outer parts).take argument =
      (after place outer parts).takeLetters (c :: rest) := by
  have ne : c ≠ '-' := by
    rintro rfl
    exact letter_option place o option letter
  exact take_short rfl rfl ne text

variable {c : Char} (option : o ∈ options place) (choice : o.choice = .setting s)
  (letter : o.letter = some c)

include option choice letter

theorem byLetter?_setting : byLetter? place c = some (.setting s) := by
  rw [← choice]
  exact byLetter?_option place o option c letter

theorem take_letter_waits :
    (after place outer parts).take ("-" ++ c.toString) =
      .ok { after place outer parts with waiting := some s } := by
  rw [take_letter option letter [] (by simp),
    takeLetters_waits (byLetter?_setting option choice letter)]

theorem take_letter_joined {value : String} (takes : s.Takes value) :
    (after place outer parts).take ("-" ++ c.toString ++ value) =
      (after place outer parts).set s value.toList := by
  rw [take_letter option letter value.toList (by simp),
    takeLetters_setting (byLetter?_setting option choice letter) takes]

theorem take_letter_equals (value : String) :
    (after place outer parts).take ("-" ++ c.toString ++ "=" ++ value) =
      (after place outer parts).set s value.toList := by
  rw [take_letter option letter ('=' :: value.toList) (by simp),
    takeLetters_equals (byLetter?_setting option choice letter)]

end Options

theorem foldlM_one {p q : Progress} {a : String} (first : p.take a = .ok q) :
    [a].foldlM take p = .ok q := by
  rw [List.foldlM_cons, first]
  rfl

theorem foldlM_append_ok {p q r : Progress} {as bs : List String} (first : as.foldlM take p = .ok q)
    (second : bs.foldlM take q = .ok r) : (as ++ bs).foldlM take p = .ok r := by
  rw [List.foldlM_append, first]
  exact second

theorem foldlM_two {p q r : Progress} {a b : String} (first : p.take a = .ok q)
    (second : q.take b = .ok r) : [a, b].foldlM take p = .ok r :=
  foldlM_append_ok (foldlM_one first) (foldlM_one second)

theorem after_verbose (place : Option Subcommand) (outer : Given) (parts : List Part)
    (steps : Nat) :
    after place outer (parts ++ [.verbose steps]) =
      { after place outer parts with
        here := { given parts with verbosity := (given parts).verbosity + steps } } := by
  rw [after, given_verbose]
  rfl

theorem takeWord_formula {sub : Subcommand} {outer : Given} {parts : List Part} (ended : Bool)
    (only : parts.findSome? Part.formula? = none) (text : String) :
    ({ after (some sub) outer parts with ended := ended }).takeWord text.toList =
      .ok { after (some sub) outer (parts ++ [.formula text]) with ended := ended } := by
  have free : (given parts).formula = none := only
  simp only [takeWord, after, free, given_formula only, String.ofList_toList]
  rfl

theorem foldlM_piece {place : Option Subcommand} {outer : Given} {parts : List Part} {part : Part}
    {piece : List String} (spells : Spells place part piece)
    (fresh : ∀ s, part.setting? = some s → valueIn? parts s = none)
    (takes : ∀ s value, part = .setting s value → s.Takes value)
    (only : part.formula?.isSome → parts.findSome? Part.formula? = none) :
    piece.foldlM take (after place outer parts) = .ok (after place outer (parts ++ [part])) := by
  have set {s : Setting} {value : String} (same : part = .setting s value)
      (waiting : Option Setting) :
      ({ after place outer parts with waiting := waiting }).set s value.toList =
        .ok (after place outer (parts ++ [part])) := by
    subst same
    exact set_after waiting (fresh s rfl) (takes s value rfl)
  have waited {s : Setting} {value : String} (same : part = .setting s value)
      (stands : s.Stands value) :
      ({ after place outer parts with waiting := some s }).take value =
        .ok (after place outer (parts ++ [part])) := by
    rw [take_value rfl rfl, takeValue_stands stands, set same]
  cases spells with
  | name option choice stands =>
    exact foldlM_two (take_name_waits option choice) (waited rfl stands)
  | nameEquals option choice =>
    exact foldlM_one ((take_name_equals option choice _).trans (set rfl none))
  | letter option choice letter stands =>
    exact foldlM_two (take_letter_waits option choice letter) (waited rfl stands)
  | letterJoined option choice letter =>
    exact foldlM_one ((take_letter_joined option choice letter (takes _ _ rfl)).trans
      (set rfl none))
  | letterEquals option choice letter =>
    exact foldlM_one ((take_letter_equals option choice letter _).trans (set rfl none))
  | verbose steps =>
    have letters : (after place outer parts).take
        ("-" ++ String.ofList (List.replicate (steps + 1) 'v')) =
          (after place outer parts).takeLetters ('v' :: List.replicate steps 'v') :=
      take_short rfl rfl (by decide) (by simp [List.replicate_succ])
    rw [← List.replicate_succ, takeLetters_verbose] at letters
    rw [after_verbose]
    exact foldlM_one letters
  | verboseName =>
    have pressed : (after place outer parts).take "--verbose" =
        (after place outer parts).press .verbose := by
      rcases place with _ | _ | _ | _ <;> rfl
    rw [after_verbose]
    exact foldlM_one pressed
  | @formula sub text placed plain =>
    subst placed
    have word := take_word (p := after (some sub) outer parts) rfl rfl plain
    exact foldlM_one (word.trans (takeWord_formula false (only rfl) text))

/-- Parts that are spelled one after the other are taken one after the other. -/
theorem foldlM_pieces {place : Option Subcommand} (outer : Given) (done : List Part)
    {parts : List Part} {pieces : List (List String)} (spells : List.Forall₂ (Spells place) parts pieces)
    (once : ((done ++ parts).filterMap Part.setting?).Nodup)
    (takes : ∀ s value, .setting s value ∈ parts → s.Takes value)
    (only : ((done ++ parts).filterMap Part.formula?).length ≤ 1) :
    pieces.flatten.foldlM take (after place outer done) =
      .ok (after place outer (done ++ parts)) := by
  induction spells generalizing done with
  | nil =>
    rw [List.append_nil]
    rfl
  | @cons part piece parts pieces first rest ih =>
    -- an option that was given before cannot be given again
    have fresh : ∀ s, part.setting? = some s → valueIn? done s = none := by
      intro s setting
      rw [List.filterMap_append, List.filterMap_cons_some setting, List.nodup_middle,
        List.nodup_cons, List.mem_append, not_or] at once
      exact valueIn?_eq_none once.1.1
    have free : part.formula?.isSome → done.findSome? Part.formula? = none := by
      intro some
      obtain ⟨text, formula⟩ := Option.isSome_iff_exists.mp some
      rw [List.filterMap_append, List.filterMap_cons_some formula, List.length_append,
        List.length_cons] at only
      have none : done.filterMap Part.formula? = [] := List.eq_nil_of_length_eq_zero (by omega)
      rw [List.findSome?_eq_none_iff]
      exact List.filterMap_eq_nil_iff.mp none
    have own : ∀ s value, part = .setting s value → s.Takes value := by
      rintro s value rfl
      exact takes s value List.mem_cons_self
    have snoc : done ++ part :: parts = (done ++ [part]) ++ parts := by simp
    rw [snoc] at once only ⊢
    rw [List.flatten_cons]
    exact foldlM_append_ok (foldlM_piece first fresh own free)
      (ih _ once (fun s value mem => takes s value (List.mem_cons_of_mem part mem)) only)

end Progress

end Formula.CommandLine.Standard
