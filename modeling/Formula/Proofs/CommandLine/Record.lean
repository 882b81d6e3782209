import Formula.Proofs.CommandLine.Laws

namespace Formula

namespace Text

theorem Clear.no_break {text : List Char} (clear : Clear text) : '\n' ∉ text :=
  fun mem => Bool.noConfusion (clear '\n' mem)

theorem Clear.append {a b : String} (first : Clear a.toList) (second : Clear b.toList) :
    Clear (a ++ b).toList := by
  rw [String.toList_append]
  exact List.forall_mem_append.mpr ⟨first, second⟩

theorem clear_digits {base : Nat} (many : 1 < base) (few : base ≤ 16) (n : Nat) :
    Clear (Nat.toDigits base n) := by
  have digit : ∀ d < 16, isControl d.digitChar = false := by decide
  induction n using Nat.strongRecOn with
  | ind n ih =>
    intro c mem
    rw [Nat.toDigits_eq_if many] at mem
    split at mem
    · next small =>
      rw [List.mem_singleton.mp mem]
      exact digit n (by omega)
    · next large =>
      rcases List.mem_append.mp mem with first | last
      · exact ih (n / base) (Nat.div_lt_self (by omega) many) c first
      · rw [List.mem_singleton.mp last]
        exact digit _ (Nat.lt_of_lt_of_le (Nat.mod_lt n (Nat.zero_lt_of_lt many)) few)

theorem clear_toString (n : Nat) : Clear (toString n).toList := by
  rw [Nat.toString_eq_ofList_toDigits, String.toList_ofList]
  exact clear_digits (by decide) (by decide) n

theorem isInvisible_of_isControl {c : Char} (control : isControl c = true) :
    isInvisible c = true := by
  rw [isInvisible, List.any_eq_true]
  simp only [isControl, Bool.or_eq_true, Bool.and_eq_true, decide_eq_true_eq] at control
  rcases control with low | high
  · exact ⟨(0x0, 0x1f), List.mem_cons_self, by simp; omega⟩
  · exact ⟨(0x7f, 0xa0), List.mem_cons_of_mem _ List.mem_cons_self, by simp; omega⟩

theorem clear_escape (c : Char) : Clear (escape c) := by
  unfold escape
  split
  · decide
  split
  · decide
  split
  · decide
  split
  · decide
  split
  · next special => rcases special with rfl | rfl <;> decide
  split
  · intro d mem
    rw [escapeCode, List.mem_append] at mem
    rcases mem with first | last
    · simp only [List.mem_cons] at first
      rcases first with rfl | rfl | rfl | digit
      · rfl
      · rfl
      · rfl
      · exact clear_digits (by decide) (by decide) _ d digit
    · rw [List.mem_singleton.mp last]
      rfl
  · next visible =>
    intro d mem
    rw [List.mem_singleton.mp mem]
    exact Bool.eq_false_iff.mpr fun control => visible (isInvisible_of_isControl control)

theorem clear_quoted (text : String) : Clear (quoted text).toList := by
  have mark : Clear "\"".toList := by decide
  refine (mark.append ?_).append mark
  intro c mem
  rw [String.toList_ofList] at mem
  obtain ⟨d, -, escaped⟩ := List.mem_flatMap.mp mem
  exact clear_escape d c escaped

end Text

namespace CommandLine

namespace Record

theorem clear_describeToken (t : Token) : Text.Clear (describeToken t).toList := by
  cases t with
  | opening => decide
  | closing => decide
  | run text =>
    have first : Text.Clear "Text(".toList := by decide
    have last : Text.Clear ")".toList := by decide
    exact (first.append (Text.clear_quoted text)).append last

theorem clear_token {description : String} (clear : Text.Clear description.toList) (start : Nat) :
    (token description start).Clear where
  named := by simp [token]
  source := by
    have tokenizer : Text.Clear "exprdiff::parser::tokenizer".toList := by decide
    exact tokenizer
  message := by
    have first : Text.Clear "token ".toList := by decide
    have middle : Text.Clear " at ".toList := by decide
    exact ((first.append clear).append middle).append (Text.clear_toString start)

theorem mem_tokens {n : Notation} {limit : Option Nat} {text : String} {r : Record}
    (mem : r ∈ tokens n limit text) :
    ∃ description start, Text.Clear description.toList ∧ r = token description start := by
  rcases List.mem_append.mp (List.mem_of_mem_take mem) with inner | last
  · obtain ⟨l, -, rfl⟩ := List.mem_map.mp inner
    exact ⟨_, _, clear_describeToken l.token, rfl⟩
  · exact ⟨"End", _, by decide, List.mem_singleton.mp last⟩

/-- Reading a text puts on record nothing that weighs as much as a warning. -/
theorem rank_of_parse {n : Notation} {limit : Option Nat} {text : String} {r : Record}
    (mem : r ∈ catalogue :: parse n limit text) : Severity.warn.rank < r.severity.rank := by
  have debug : Severity.warn.rank < Severity.debug.rank := by decide
  have trace : Severity.warn.rank < Severity.trace.rank := by decide
  rcases List.mem_cons.mp mem with rfl | mem
  · exact debug
  rcases List.mem_append.mp mem with first | last
  · rcases List.mem_cons.mp first with rfl | token
    · exact debug
    · obtain ⟨description, start, -, rfl⟩ := mem_tokens token
      exact trace
  · rw [List.mem_singleton.mp last]
    exact debug

theorem clear_parsing {message : String} (clear : Text.Clear message.toList) : (parsing message).Clear where
  named := by simp [parsing]
  source := by
    have parser : Text.Clear "exprdiff::parser".toList := by decide
    exact parser
  message := clear

theorem clear_catalogue : catalogue.Clear where
  named := by decide
  source := by decide
  message := by
    have first : Text.Clear "catalogue built with ".toList := by decide
    have middle : Text.Clear " operations and ".toList := by decide
    have last : Text.Clear " constants".toList := by decide
    exact (((first.append (Text.clear_toString _)).append middle).append
      (Text.clear_toString _)).append last

theorem clear_parse {n : Notation} {limit : Option Nat} {text : String} {e : Expr}
    (accepted : Formula.parse n limit text = .ok e) {r : Record}
    (mem : r ∈ catalogue :: parse n limit text) : r.Clear := by
  rcases List.mem_cons.mp mem with rfl | mem
  · exact clear_catalogue
  -- only a failed reading quotes the text as it is, and this one has succeeded
  rw [parse, accepted] at mem
  rcases List.mem_append.mp mem with first | last
  · rcases List.mem_cons.mp first with rfl | inner
    · have name : Text.Clear ("parsing " ++ n.name ++ " input of ").toList := by cases n <;> decide
      have unit : Text.Clear " bytes".toList := by decide
      exact clear_parsing ((name.append (Text.clear_toString _)).append unit)
    · obtain ⟨description, start, clear, rfl⟩ := mem_tokens inner
      exact clear_token clear start
  · have first : Text.Clear "parsed ".toList := by decide
    have unit : Text.Clear " nodes".toList := by decide
    rw [List.mem_singleton.mp last]
    exact clear_parsing ((first.append (Text.clear_toString _)).append unit)

theorem clear_ambiguity : ambiguity.Clear where
  named := by decide
  source := by decide
  message := by decide

end Record

end CommandLine

end Formula
