import Formula.Proofs.Reading.Nesting
import Formula.Proofs.Reading.Spacing

/-!
Causes tell the truth. Each says something about the tokens before the place of the error and about
those from there on: what a bracket holds so far, what stands at the place, and, where a run is
neither operand nor operation, what stands behind it.
-/

namespace Formula

/-- The operation of that token takes so many operands, no fewer and no more. -/
def Fixed (token : String) (count : Nat) : Prop :=
  ∃ op : Operation, op.token = token ∧ op.arity = .exactly count

def Meaningless (text : String) : Prop :=
  (∀ op : Operation, op.token ≠ text) ∧ ∀ e, ¬ Term text e

/-- The tokens end in a bracket, with these tokens at its front and complete operands behind them. -/
def Place.Within (p : Place) (front : List Token) (operands : List Expr)
    (taken : List Token) : Prop :=
  ∃ before body, DerivesAll p body operands ∧ taken = before ++ .opening :: (front ++ body)

def Place.Overruns (p : Place) (taken rest : List Token) (found : String) : Prop :=
  (∃ e, Derives p taken e) ∧ ∃ t, rest.head? = some t ∧ found = t.text

def ExceedsLimit (limit : Option Nat) (taken rest : List Token) (most : Nat) : Prop :=
  limit = some most ∧ rest.head? = some .opening ∧
    taken.count .opening = taken.count .closing + most

theorem not_term_of_leaf? {text : String} (notLeaf : Expr.leaf? text = none) (e : Expr) :
    ¬ Term text e := by
  intro term
  rw [leaf?_iff.mpr term] at notLeaf
  cases notLeaf

theorem meaningless_of_none {text : String} (notOperation : Operation.ofToken? text = none)
    (notLeaf : Expr.leaf? text = none) : Meaningless text := by
  refine ⟨?_, not_term_of_leaf? notLeaf⟩
  rintro op rfl
  rw [Operation.ofToken?_token] at notOperation
  cases notOperation

theorem fixed_of_refused {op : Operation} {es : List Expr} (refused : Expr.build? op es = none) :
    Fixed op.token op.arity.least ∧ es.length ≠ op.arity.least := by
  obtain ⟨count, arity, differs⟩ := arity_of_refused refused
  rw [arity]
  exact ⟨⟨op, rfl, arity⟩, differs⟩

namespace OperatorFirst

/-- An operand may come next: the first token of all, or one in a bracket behind its operation. -/
def AwaitsOperand (taken : List Token) : Prop :=
  taken = [] ∨ ∃ op operands, Place.first.Within [.run (Operation.token op)] operands taken

/-- What a cause says about the tokens before the place of the error and those from there on. -/
def Explains (limit : Option Nat) (taken rest : List Token) : Cause → Prop
  | .unknownOperator token =>
    token = Token.describe rest.head? ∧ (∃ before, taken = before ++ [.opening]) ∧
      ∀ op : Operation, rest.head? ≠ some (.run op.token)
  | .missingOperator _ => False
  | .arityMismatch token expected found =>
    Fixed token expected ∧ found ≠ expected ∧ EndsBracket rest.head? ∧
      ∃ operands, Place.first.Within [.run token] operands taken ∧ found = operands.length
  | .expectedClose found reading =>
    found = Token.endText ∧ reading = .operatorFirst ∧ rest = [] ∧
      ∃ op operands, Operation.accepts op operands.length = true ∧
        Place.first.Within [.run op.token] operands taken
  | .extraToken found => Place.first.Overruns taken rest found
  | .invalidTerm found =>
    found = Token.describe rest.head? ∧
      (taken = [] ∧ EndsBracket rest.head? ∨
        AwaitsOperand taken ∧ rest.head? = some (.run found) ∧ ∀ e, ¬ Term found e)
  | .tooDeep most => ExceedsLimit limit taken rest most

theorem taken_of_reaches {limit : Option Nat} {ts : List Token} {s : State}
    (reached : (reader limit).Reaches ts s) : Taken s ts := by
  have start : Taken (reader limit).start [] := Opened.none
  exact reached.keeps start taken_step

theorem Opened.within {p : Pending} {pending : List Pending} {taken : List Token}
    (opened : Opened (p :: pending) taken) :
    Place.first.Within [.run p.operation.token] p.operands.reverse taken := by
  cases opened with
  | more outer all => exact ⟨_, _, all, rfl⟩

theorem Opened.awaitsOperand {pending : List Pending} {taken : List Token}
    (opened : Opened pending taken) : AwaitsOperand taken := by
  cases pending with
  | nil =>
    cases opened
    exact .inl rfl
  | cons p pending => exact .inr ⟨_, _, opened.within⟩

theorem explains_of_refuses {limit : Option Nat} {taken rest : List Token} {s : State}
    {fault : Fault} (reached : (reader limit).Reaches taken s)
    (refuses : Refuses limit s taken.length rest.head? fault) :
    Explains limit taken rest fault.cause := by
  have inv := taken_of_reaches reached
  generalize head : rest.head? = t at refuses
  cases refuses with
  | tooDeep limited deep =>
    obtain ⟨depth, isOpen, count, within⟩ := (counts limit).reached reached
    cases isOpen
    have exact := within _ limited
    refine ⟨limited, head, ?_⟩
    omega
  | nothing ends =>
    cases inv
    subst head
    exact ⟨rfl, .inl ⟨rfl, ends⟩⟩
  | arity ends refused =>
    obtain ⟨fixed, differs⟩ := fixed_of_refused refused
    subst head
    exact ⟨fixed, differs, ends, _, Opened.within inv, rfl⟩
  | unclosed built =>
    rw [List.head?_eq_none_iff] at head
    exact ⟨rfl, rfl, head, _, _, accepts_of_build? built, Opened.within inv⟩
  | term unknown =>
    refine ⟨by rw [head]; rfl, .inr ⟨Opened.awaitsOperand inv, head, ?_⟩⟩
    exact not_term_of_leaf? unknown
  | operation unknown =>
    obtain ⟨before, -, rfl⟩ := inv
    subst head
    refine ⟨rfl, ⟨before, rfl⟩, ?_⟩
    intro op same
    rw [same] at unknown
    cases (Operation.ofToken?_token op).symm.trans unknown
  | extra => exact ⟨⟨_, inv⟩, _, head, rfl⟩

theorem explains_of_read_error {limit : Option Nat} {ts : List Token} {fault : Fault}
    (failed : (reader limit).read ts = .error fault) :
    Explains limit (ts.take fault.index) (ts.drop fault.index) fault.cause := by
  obtain ⟨taken, rest, s, rfl, reached, refuses⟩ := refused_of_read_error failed
  obtain ⟨index, -⟩ := fits_of_refuses refuses
  rw [index, List.take_left, List.drop_left]
  exact explains_of_refuses reached refuses

end OperatorFirst

namespace OperatorLast

def Explains (limit : Option Nat) (taken rest : List Token) : Cause → Prop
  | .unknownOperator token =>
    Meaningless token ∧ (∃ operands, Place.last.Within [] operands taken) ∧
      ∃ more, rest = .run token :: .closing :: more
  | .missingOperator found =>
    found = Token.describe rest.head? ∧ EndsBracket rest.head? ∧
      ∃ operands, Place.last.Within [] operands taken
  | .arityMismatch token expected found =>
    Fixed token expected ∧ found ≠ expected ∧ rest.head? = some (.run token) ∧
      ∃ operands, Place.last.Within [] operands taken ∧ found = operands.length
  | .expectedClose found reading =>
    found = Token.describe rest.head? ∧ reading = .operatorLast ∧ rest.head? ≠ some .closing ∧
      ∃ op operands before, Operation.accepts op operands.length = true ∧
        Place.last.Within [] operands before ∧ taken = before ++ [.run op.token]
  | .extraToken found => Place.last.Overruns taken rest found
  | .invalidTerm found =>
    taken = [] ∧ found = Token.describe rest.head? ∧
        (EndsBracket rest.head? ∨ rest.head? = some (.run found) ∧ ∀ e, ¬ Term found e) ∨
      Meaningless found ∧ (∃ operands, Place.last.Within [] operands taken) ∧
        ∃ more, rest = .run found :: more ∧ more.head? ≠ some .closing
  | .tooDeep most => ExceedsLimit limit taken rest most

theorem taken_of_reaches {limit : Option Nat} {ts : List Token} {s : State}
    (reached : (reader limit).Reaches ts s) : Taken s ts := by
  have start : Taken (reader limit).start [] := Opened.none
  exact reached.keeps start taken_step

theorem Opened.within {operands : List Expr} {pending : List (List Expr)} {taken : List Token}
    (opened : Opened (operands :: pending) taken) :
    Place.last.Within [] operands.reverse taken := by
  cases opened with
  | more outer all => exact ⟨_, _, all, rfl⟩

/-- A run that is put in doubt has no meaning, and it stands in a bracket. -/
theorem meaningless_of_doubt {limit : Option Nat} {taken : List Token} {text : String} {place : Nat}
    (reached : (reader limit).Reaches taken (.doubt text place)) :
    ∃ before operands, taken = before ++ [.run text] ∧ place = before.length ∧
      Place.last.Within [] operands before ∧ Meaningless text := by
  cases reached with
  | @step before s next t earlier ok =>
    obtain ⟨rfl, rfl, operands, pending, rfl⟩ := step_doubt ok
    refine ⟨before, _, rfl, rfl, Opened.within (taken_of_reaches earlier), ?_⟩
    simp only [reader, step, stepInside] at ok
    split at ok
    · obtain ⟨e, -, ok⟩ := ok_bind ok
      cases ok
    · next notOperation =>
      split at ok
      · exact absurd (Except.ok.inj ok) (deliver_ne_doubt _ _ _ _)
      · next notLeaf => exact meaningless_of_none notOperation notLeaf

theorem explains_of_settled {limit : Option Nat} {taken rest : List Token} {s : State}
    {fault : Fault} (settled : s.Settled) (reached : (reader limit).Reaches taken s)
    (refuses : Refuses limit s taken.length rest.head? fault) :
    Explains limit taken rest fault.cause := by
  have inv := taken_of_reaches reached
  generalize head : rest.head? = t at refuses
  cases refuses with
  | tooDeep limited deep =>
    obtain ⟨depth, isOpen, count, within⟩ := (counts limit).reached reached
    cases isOpen
    have bound := within _ limited
    refine ⟨limited, head, ?_⟩
    omega
  | nothing ends =>
    cases inv
    subst head
    exact .inl ⟨rfl, rfl, .inl ends⟩
  | operation ends =>
    subst head
    exact ⟨rfl, ends, _, Opened.within inv⟩
  | term unknown =>
    cases inv
    refine .inl ⟨rfl, by rw [head]; rfl, .inr ⟨head, ?_⟩⟩
    exact not_term_of_leaf? unknown
  | arity refused =>
    obtain ⟨fixed, differs⟩ := fixed_of_refused refused
    exact ⟨fixed, differs, head, _, Opened.within inv, rfl⟩
  | doubtClosed => exact settled.elim
  | doubt goesOn => exact settled.elim
  | unclosed goesOn =>
    obtain ⟨before, body, op, es, outer, all, built, rfl⟩ := inv
    subst head
    refine ⟨rfl, rfl, goesOn, op, es, before ++ .opening :: body, accepts_of_build? built,
      ⟨before, body, all, rfl⟩, ?_⟩
    rw [List.append_assoc, List.cons_append]
  | extra => exact ⟨⟨_, inv⟩, _, head, rfl⟩

theorem explains_of_doubt {limit : Option Nat} {taken rest : List Token} {text : String}
    {place : Nat} {fault : Fault} (reached : (reader limit).Reaches taken (.doubt text place))
    (refuses : Refuses limit (.doubt text place) taken.length rest.head? fault) :
    Explains limit ((taken ++ rest).take fault.index) ((taken ++ rest).drop fault.index)
      fault.cause := by
  obtain ⟨before, operands, rfl, rfl, within, meaningless⟩ := meaningless_of_doubt reached
  generalize head : rest.head? = t at refuses
  cases refuses with
  | doubtClosed =>
    obtain ⟨more, rfl⟩ := List.head?_eq_some_iff.mp head
    rw [List.append_assoc, List.take_left, List.drop_left]
    exact ⟨meaningless, ⟨operands, within⟩, more, rfl⟩
  | doubt goesOn =>
    subst head
    rw [List.append_assoc, List.take_left, List.drop_left]
    exact .inr ⟨meaningless, ⟨operands, within⟩, rest, rfl, goesOn⟩

theorem explains_of_read_error {limit : Option Nat} {ts : List Token} {fault : Fault}
    (failed : (reader limit).read ts = .error fault) :
    Explains limit (ts.take fault.index) (ts.drop fault.index) fault.cause := by
  obtain ⟨taken, rest, s, rfl, reached, refuses⟩ := refused_of_read_error failed
  rcases fits_of_refuses refuses with ⟨settled, index, -⟩ | ⟨text, rfl, -⟩
  · rw [index, List.take_left, List.drop_left]
    exact explains_of_settled settled reached refuses
  · exact explains_of_doubt reached refuses

end OperatorLast

namespace Bare

/-- What a cause says about the tokens before the place of the error and those from there on. An
operation is refused when it comes; that there is more than one formula shows when all is read. -/
def Explains (taken rest : List Token) : Cause → Prop
  | .arityMismatch token expected found =>
    Fixed token expected ∧ found < expected ∧ rest.head? = some (.run token) ∧
      ∃ stack, reader.Reaches taken stack ∧ found = stack.length
  | .extraToken found =>
    rest.head? = some (.run found) ∧ ∃ above extra bottom,
      reader.Reaches (taken ++ rest) (above ++ [extra, bottom]) ∧ extra.index = taken.length
  | .invalidTerm found =>
    found = Token.describe rest.head? ∧
      (taken = [] ∧ rest = [] ∨ rest.head? = some .opening ∨ rest.head? = some .closing ∨
        rest.head? = some (.run found) ∧ Meaningless found)
  | _ => False

theorem eq_nil_of_reaches {ts : List Token} (reached : reader.Reaches ts []) : ts = [] := by
  cases reached with
  | start => rfl
  | step reached ok =>
    change step _ _ _ = .ok [] at ok
    unfold step at ok
    split at ok
    · obtain ⟨e, -, ok⟩ := ok_bind ok
      cases ok
    · split at ok <;> cases ok

theorem meaningless_or_bracket {t : Token} (notOperation : t.operation? = none)
    (notLeaf : t.leaf? = none) :
    t = .opening ∨ t = .closing ∨ t = .run t.text ∧ Meaningless t.text := by
  cases t with
  | opening => exact .inl rfl
  | closing => exact .inr (.inl rfl)
  | run text => exact .inr (.inr ⟨rfl, meaningless_of_none notOperation notLeaf⟩)

theorem explains_of_token {taken : List Token} {t : Token} {stack : List Value} {fault : Fault}
    (reached : reader.Reaches taken stack)
    (refuses : Refuses stack taken.length (some t) fault) (rest : List Token) :
    fault.index = taken.length ∧ Explains taken (t :: rest) fault.cause := by
  cases refuses with
  | arity arity few => exact ⟨rfl, ⟨_, rfl, arity⟩, few, rfl, stack, reached, rfl⟩
  | term notOperation notLeaf =>
    refine ⟨rfl, rfl, .inr ?_⟩
    simpa only [List.head?_cons, Option.some.injEq] using
      meaningless_or_bracket notOperation notLeaf

theorem explains_of_end {ts : List Token} {stack : List Value} {fault : Fault}
    (reached : reader.Reaches ts stack) (refuses : Refuses stack ts.length none fault) :
    Explains (ts.take fault.index) (ts.drop fault.index) fault.cause := by
  cases refuses with
  | nothing =>
    rw [eq_nil_of_reaches reached]
    exact ⟨rfl, .inl ⟨rfl, rfl⟩⟩
  | @extra above extra bottom =>
    have found : ts[extra.index]? = some (.run extra.text) :=
      placed_of_reaches reached extra (by simp)
    obtain ⟨inside, -⟩ := List.getElem?_eq_some_iff.mp found
    refine ⟨?_, above, extra, bottom, ?_, ?_⟩
    · rw [List.head?_drop, found]
    · rw [List.take_append_drop]
      exact reached
    · rw [List.length_take_of_le (Nat.le_of_lt inside)]

theorem explains_of_read_error {ts : List Token} {fault : Fault}
    (failed : reader.read ts = .error fault) :
    Explains (ts.take fault.index) (ts.drop fault.index) fault.cause := by
  obtain ⟨taken, rest, stack, rfl, reached, refuses⟩ := refused_of_read_error failed
  cases rest with
  | nil =>
    rw [List.append_nil]
    exact explains_of_end reached refuses
  | cons t rest =>
    obtain ⟨index, explains⟩ := explains_of_token reached refuses rest
    rw [index, List.take_left, List.drop_left]
    exact explains

end Bare

def Cause.Explained (n : Notation) (limit : Option Nat) (taken rest : List Token)
    (cause : Cause) : Prop :=
  match n with
  | .bare => Bare.Explains taken rest cause
  | .operatorFirst => OperatorFirst.Explains limit taken rest cause
  | .operatorLast => OperatorLast.Explains limit taken rest cause

theorem explained_of_readTokens_error {n : Notation} {limit : Option Nat} {ts : List Token}
    {fault : Fault} (failed : readTokens n limit ts = .error fault) :
    fault.cause.Explained n limit (ts.take fault.index) (ts.drop fault.index) := by
  cases n with
  | bare => exact Bare.explains_of_read_error failed
  | operatorFirst => exact OperatorFirst.explains_of_read_error failed
  | operatorLast => exact OperatorLast.explains_of_read_error failed

/-- What the cause of an error says is so of the tokens before its place and of those from there on. -/
theorem parse_error_explained {n : Notation} {limit : Option Nat} {text : String} {err : ParseError}
    (failed : parse n limit text = .error err) :
    ∃ index, err.context.IsAt text index ∧
      err.cause.Explained n limit ((tokensOf text).take index) ((tokensOf text).drop index) := by
  obtain ⟨fault, stopped, rfl⟩ := parse_eq_error_iff.mp failed
  obtain ⟨place, located, isAt⟩ := parse_error_at stopped
  rw [failed] at located
  cases located
  exact ⟨fault.index, isAt, explained_of_readTokens_error stopped⟩

/-- The run stands where its bracket closes, so an operation is missed there and not an operand. -/
theorem parse_error_explained_unknown :
    parse .operatorLast (some 2) "(z (x y foo) *)" =
      .error ⟨.unknownOperator "foo", ⟨"(z (x y ", ⟨8, 11⟩⟩⟩ ∧
    ∃ index, Context.IsAt ⟨"(z (x y ", ⟨8, 11⟩⟩ "(z (x y foo) *)" index ∧
      Cause.Explained .operatorLast (some 2) ((tokensOf "(z (x y foo) *)").take index)
        ((tokensOf "(z (x y foo) *)").drop index) (.unknownOperator "foo") := by
  have failed : parse .operatorLast (some 2) "(z (x y foo) *)" =
      .error ⟨.unknownOperator "foo", ⟨"(z (x y ", ⟨8, 11⟩⟩⟩ := rfl
  exact ⟨failed, parse_error_explained failed⟩

end Formula
