import Formula.Proofs.Reading.Fault
import Formula.Proofs.Reading.Grammar

namespace Formula

namespace Reader

variable {σ : Type} {r : Reader σ}

/-- Whatever follows the token, the reading fails at it. -/
def Hopeless (r : Reader σ) (taken : List Token) (t : Token) : Prop :=
  ∀ more, ∃ cause, r.read (taken ++ t :: more) = .error ⟨cause, taken.length⟩

/-- A reading fails in a state after the tokens before an index, and the token there is to blame. -/
structure Blames (r : Reader σ) (ts : List Token) (index : Nat) (s : σ) : Prop where
  bound : index ≤ ts.length
  reached : r.Reaches (ts.take index) s
  hopeless : ∀ t, ts[index]? = some t → r.Hopeless (ts.take index) t

theorem blames_token {taken rest : List Token} {s : σ} {t : Token} (reached : r.Reaches taken s)
    (hopeless : r.Hopeless taken t) : r.Blames (taken ++ t :: rest) taken.length s := by
  constructor
  · rw [List.length_append]
    exact Nat.le_add_right ..
  · rw [List.take_left]
    exact reached
  · intro u found
    rw [Token.getElem?_cut] at found
    cases found
    rw [List.take_left]
    exact hopeless

theorem blames_end {ts : List Token} {s : σ} (reached : r.Reaches ts s) :
    r.Blames ts ts.length s := by
  constructor
  · exact Nat.le_refl _
  · rw [List.take_length]
    exact reached
  · intro t found
    rw [List.getElem?_eq_none (Nat.le_refl _)] at found
    cases found

theorem Reaches.hopeless {taken : List Token} {s : σ} {t : Token} {fault : Fault}
    (reached : r.Reaches taken s) (stopped : r.step s taken.length t = .error fault)
    (index : fault.index = taken.length) : r.Hopeless taken t := by
  intro more
  refine ⟨fault.cause, ?_⟩
  rw [reached.read_error stopped, ← index]

end Reader

theorem OperatorFirst.blames_of_read_error {limit : Option Nat} {ts : List Token} {fault : Fault}
    (failed : (reader limit).read ts = .error fault) :
    ∃ s, (reader limit).Blames ts fault.index s := by
  rcases Reader.read_error failed with ⟨taken, t, rest, s, rfl, reached, stopped⟩ |
    ⟨s, reached, finished⟩
  · obtain ⟨index, -⟩ := step_error stopped
    rw [index]
    exact ⟨s, Reader.blames_token reached (reached.hopeless stopped index)⟩
  · obtain ⟨index, -⟩ := finish_error finished
    rw [index]
    exact ⟨s, Reader.blames_end reached⟩

namespace OperatorLast

variable {limit : Option Nat}

theorem readFrom_doubt (limit : Option Nat) (text : String) (place index : Nat) (ts : List Token) :
    ∃ cause, (reader limit).readFrom (.doubt text place) index ts = .error ⟨cause, place⟩ := by
  cases ts with
  | nil => exact ⟨_, rfl⟩
  | cons t ts =>
    by_cases close : t = .closing
    · refine ⟨.unknownOperator text, ?_⟩
      simp only [Reader.readFrom, reader, step, if_pos close]
    · refine ⟨.invalidTerm text, ?_⟩
      simp only [Reader.readFrom, reader, step, if_neg close]

/-- A run that is put in doubt is wrong whether the bracket closes after it or not. The state before
it is none of doubt. -/
theorem blames_of_doubted {taken : List Token} {s : State} {fault : Fault}
    (reached : (reader limit).Reaches taken s) (doubted : Doubted s fault) (rest : List Token) :
    ∃ s : State, s.Settled ∧ (reader limit).Blames (taken ++ rest) fault.index s := by
  obtain ⟨text, rfl, -⟩ := doubted
  obtain ⟨before, operands, pending, rfl, index, earlier⟩ := reaches_doubt reached
  rw [index] at reached ⊢
  refine ⟨.operand (operands :: pending), trivial, ?_⟩
  rw [List.append_assoc]
  apply Reader.blames_token earlier
  intro more
  have read := reached.read_append more
  rw [List.append_assoc] at read
  obtain ⟨cause, failed⟩ := readFrom_doubt limit text before.length _ more
  exact ⟨cause, read.trans failed⟩

theorem blames_of_read_error {ts : List Token} {fault : Fault}
    (failed : (reader limit).read ts = .error fault) :
    ∃ s : State, s.Settled ∧ (reader limit).Blames ts fault.index s := by
  rcases Reader.read_error failed with ⟨taken, t, rest, s, rfl, reached, stopped⟩ |
    ⟨s, reached, finished⟩
  · rcases step_error stopped with ⟨settled, index, -⟩ | doubted
    · rw [index]
      exact ⟨s, settled, Reader.blames_token reached (reached.hopeless stopped index)⟩
    · exact blames_of_doubted reached doubted (t :: rest)
  · rcases finish_error finished with ⟨settled, index, -⟩ | doubted
    · rw [index]
      exact ⟨s, settled, Reader.blames_end reached⟩
    · have blames := blames_of_doubted reached doubted []
      rw [List.append_nil] at blames
      exact blames

/-- The state can be led to the end of a formula. -/
def Completable (limit : Option Nat) (s : State) : Prop :=
  ∃ more e, Token.Words more ∧ ∀ index, (reader limit).readFrom s index more = .ok e

theorem Completable.reads {s next : State} {ts : List Token} (completable : Completable limit next)
    (words : Token.Words ts) (reads : (reader limit).Reads s ts next) : Completable limit s := by
  obtain ⟨more, e, others, ok⟩ := completable
  refine ⟨ts ++ more, e, ?_, ?_⟩
  · intro text mem
    exact (List.mem_append.mp mem).elim (words text) (others text)
  · intro index
    rw [reads index more, ok]

theorem completable_closing {pending : List (List Expr)} {inner : Expr}
    (completable : Completable limit (deliver pending inner)) :
    Completable limit (.closing pending inner) := by
  have words : Token.Words [.closing] := by
    intro text mem
    cases List.mem_singleton.mp mem
  exact completable.reads words (.one fun _ => rfl)

theorem completable_bracket {operands : List Expr} {pending : List (List Expr)}
    (completable : Completable limit (deliver pending (.mean operands.reverse))) :
    Completable limit (.operand (operands :: pending)) := by
  have words : Token.Words [.run (Operation.statistic .mean).token] := by
    intro text mem
    cases List.mem_singleton.mp mem
    exact Operation.word _
  -- a mean takes whatever operands there are
  have named : (reader limit).Reads (.operand (operands :: pending))
      [.run (Operation.statistic .mean).token] (.closing pending (.mean operands.reverse)) :=
    .one fun _ => rfl
  exact (completable_closing completable).reads words named

theorem completable_deliver (pending : List (List Expr)) (e : Expr) :
    Completable limit (deliver pending e) := by
  induction pending generalizing e with
  | nil => exact ⟨[], e, by simp [Token.Words], fun _ => rfl⟩
  | cons operands pending ih => exact completable_bracket (ih _)

theorem completable_of_settled {s : State} (settled : s.Settled) : Completable limit s := by
  cases s with
  | operand pending =>
    cases pending with
    | nil =>
      have words : Token.Words [.run Variable.x.name] := by
        intro text mem
        cases List.mem_singleton.mp mem
        exact (Term.var .x).word
      exact (completable_deliver [] (.var .x)).reads words (.one fun _ => rfl)
    | cons operands pending => exact completable_bracket (completable_deliver ..)
  | doubt text place => exact settled.elim
  | closing pending inner => exact completable_closing (completable_deliver ..)
  | nothing whole => exact completable_deliver [] whole

theorem beginning_of_read_error {ts : List Token} {fault : Fault}
    (failed : (reader limit).read ts = .error fault) :
    ∃ more e, Token.Words more ∧ (reader limit).read (ts.take fault.index ++ more) = .ok e := by
  obtain ⟨s, settled, blames⟩ := blames_of_read_error failed
  have completable : Completable limit s := completable_of_settled settled
  obtain ⟨more, e, words, ok⟩ := completable
  refine ⟨more, e, words, ?_⟩
  rw [blames.reached.read_append, ok]

end OperatorLast

theorem blames_of_readTokens_error (p : Place) {limit : Option Nat} {ts : List Token}
    {fault : Fault} (failed : readTokens p.notation limit ts = .error fault) :
    fault.index ≤ ts.length ∧ ∀ t, ts[fault.index]? = some t → ∀ more, ∃ cause,
      readTokens p.notation limit (ts.take fault.index ++ t :: more) =
        .error ⟨cause, (ts.take fault.index).length⟩ := by
  cases p with
  | first =>
    obtain ⟨s, blames⟩ := OperatorFirst.blames_of_read_error failed
    exact ⟨blames.bound, blames.hopeless⟩
  | last =>
    obtain ⟨s, -, blames⟩ := OperatorLast.blames_of_read_error failed
    exact ⟨blames.bound, blames.hopeless⟩

theorem Word.ne_bracket {text : String} (word : Word text) : text ≠ "(" ∧ text ≠ ")" := by
  constructor
  · rintro rfl
    cases word.solid '(' (by simp)
  · rintro rfl
    cases word.solid ')' (by simp)

theorem stands_before {before after rest : String} {t : Token}
    (stands : Token.Stands before.toList t after.toList)
    (ends : t.text ≠ "(" → t.text ≠ ")" → Token.Boundary rest.toList) :
    Token.Stands before.toList t rest.toList := by
  cases t with
  | opening => trivial
  | closing => trivial
  | run text =>
    obtain ⟨word, apart, -⟩ := stands
    obtain ⟨notOpening, notClosing⟩ := word.ne_bracket
    exact ⟨word, apart, ends notOpening notClosing⟩

theorem tokensOf_append_spell {more : List Token} (words : Token.Words more) (text : String) :
    tokensOf (text ++ .ofList (' ' :: Token.spell more)) = tokensOf text ++ more := by
  have boundary : Token.Boundary (' ' :: Token.spell more) := Token.boundary_cons rfl _
  rw [tokensOf, Token.scan, String.toList_append, String.toList_ofList,
    Token.scanFrom_append (.inr boundary), List.map_append, Token.map_token_scanFrom,
    Token.map_token_scanFrom, Token.found_space, Token.found_spell words]
  rfl

theorem parse_error_hopeless (p : Place) {limit : Option Nat} {text : String} {err : ParseError}
    (failed : parse p.notation limit text = .error err)
    (atToken : err.context.span.isValid = true)
    {rest : String} (ends : err.context.span.slice text ≠ "(" → err.context.span.slice text ≠ ")" →
      Token.Boundary rest.toList) :
    ∃ later, parse p.notation limit (err.context.span.upTo text ++ rest) = .error later ∧
      later.context = err.context := by
  obtain ⟨⟨cause, index⟩, stopped, rfl⟩ := parse_eq_error_iff.mp failed
  obtain ⟨bound, hopeless⟩ := blames_of_readTokens_error p stopped
  obtain ⟨points, earlier⟩ := pointsAt_ofIndex bound
  rw [points.slice_eq] at ends
  rw [points.upTo_eq]
  rcases Nat.eq_or_lt_of_le bound with last | inner
  · change index = (tokensOf text).length at last
    simp [last, ofIndex_end, Span.isValid] at atToken
  · obtain ⟨before, t, after, rfl, stands, rfl⟩ := stands_of_index inner
    have pointed : (tokensOf (before ++ t.text ++ after))[(tokensOf before).length]? = some t := by
      rw [tokensOf_stands stands, Token.getElem?_cut]
    simp only [pointed, Token.written, ofIndex_stands stands] at ends earlier ⊢
    have goes := stands_before stands ends
    obtain ⟨other, fails⟩ := hopeless t pointed (tokensOf rest)
    rw [← earlier, ← tokensOf_stands goes] at fails
    exact ⟨_, parse_eq_error_iff.mpr ⟨_, fails, rfl⟩, ofIndex_stands goes⟩

/-- What is wrong with a text in brackets is wrong with every text that goes the same way up to the
end of the token at the place of the error, and it shows at the same place. With the operation last,
the text before that place is the beginning of a formula. -/
theorem parse_error_earliest (p : Place) {limit : Option Nat} {text : String} {err : ParseError}
    (failed : parse p.notation limit text = .error err) :
    (err.context.span.isValid = true → ∀ rest : String,
      (err.context.span.slice text ≠ "(" → err.context.span.slice text ≠ ")" →
        Token.Boundary rest.toList) →
      ∃ later, parse p.notation limit (err.context.span.upTo text ++ rest) = .error later ∧
        later.context = err.context) ∧
    (p = .last → ∃ rest e, parse p.notation limit (err.context.before ++ rest) = .ok e) := by
  constructor
  · intro atToken rest ends
    exact parse_error_hopeless p failed atToken ends
  · rintro rfl
    obtain ⟨fault, stopped, rfl⟩ := parse_eq_error_iff.mp failed
    obtain ⟨bound, -⟩ := fits_of_readTokens_error stopped
    obtain ⟨-, earlier⟩ := pointsAt_ofIndex bound
    obtain ⟨more, e, words, ok⟩ := OperatorLast.beginning_of_read_error stopped
    refine ⟨.ofList (' ' :: Token.spell more), e, ?_⟩
    rw [parse_eq_ok_iff, tokensOf_append_spell words, earlier]
    exact ok

theorem parse_error_earliest_unknown :
    parse .operatorLast (some 1) "(x foo)" = .error ⟨.unknownOperator "foo", ⟨"(x ", ⟨3, 6⟩⟩⟩ ∧
    (∃ later, parse .operatorLast (some 1) ("(x foo" ++ " y +)") = .error later ∧
      later.context = ⟨"(x ", ⟨3, 6⟩⟩) ∧
    ∃ rest e, parse .operatorLast (some 1) ("(x " ++ rest) = .ok e := by
  have failed : parse .operatorLast (some 1) "(x foo)" =
      .error ⟨.unknownOperator "foo", ⟨"(x ", ⟨3, 6⟩⟩⟩ := rfl
  obtain ⟨hopeless, beginning⟩ := parse_error_earliest .last failed
  have boundary : Token.Boundary " y +)".toList := Token.boundary_cons rfl _
  exact ⟨failed, hopeless rfl " y +)" fun _ _ => boundary, beginning rfl⟩

end Formula
