import Formula.Proofs.Reading.Position
import Formula.Proofs.Reading.Refusal

/-!
Faults tell the truth about the token they point at. The readers of brackets point at the token in
hand, or at the run they doubted one token ago; the reader without brackets also points back at the
first token of a formula on its stack.
-/

namespace Formula

/-- What a cause reports is the token at its place, or the end. A wrong number of operands shows at
the operation where that is known last, and else at the end of its bracket. -/
def Cause.Fits (n : Notation) (pointed : Option Token) : Cause → Prop
  | .unknownOperator token => token = Token.describe pointed
  | .missingOperator found => found = Token.describe pointed
  | .arityMismatch token _ _ =>
    match n with
    | .operatorFirst => pointed = some .closing ∨ pointed = none
    | _ => pointed = some (.run token)
  | .expectedClose found _ => found = Token.describe pointed
  | .extraToken found => found = Token.describe pointed
  | .invalidTerm found => found = Token.describe pointed
  | .tooDeep _ => pointed = some .opening

/-- The fault points at one of the tokens, or at their end, and reports what is there. -/
def Fault.Fits (fault : Fault) (n : Notation) (ts : List Token) : Prop :=
  fault.index ≤ ts.length ∧ fault.cause.Fits n ts[fault.index]?

theorem Fault.fits_token {fault : Fault} {n : Notation} {taken rest : List Token} {t : Token}
    (index : fault.index = taken.length) (fits : fault.cause.Fits n (some t)) :
    fault.Fits n (taken ++ t :: rest) := by
  constructor
  · rw [index, List.length_append]
    exact Nat.le_add_right ..
  · rw [index, Token.getElem?_cut]
    exact fits

theorem Fault.fits_end {fault : Fault} {n : Notation} {ts : List Token}
    (index : fault.index = ts.length) (fits : fault.cause.Fits n none) : fault.Fits n ts := by
  constructor
  · rw [index]
  · rw [index, List.getElem?_eq_none (Nat.le_refl _)]
    exact fits

namespace OperatorFirst

theorem fits_of_refuses {limit : Option Nat} {s : State} {index : Nat} {t : Option Token}
    {fault : Fault} (refuses : Refuses limit s index t fault) :
    fault.index = index ∧ fault.cause.Fits .operatorFirst t := by
  cases refuses with
  | arity ends refused => exact ⟨rfl, ends⟩
  | _ => exact ⟨rfl, rfl⟩

theorem step_error {limit : Option Nat} {s : State} {index : Nat} {t : Token} {fault : Fault}
    (failed : step limit s index t = .error fault) :
    fault.index = index ∧ fault.cause.Fits .operatorFirst (some t) :=
  fits_of_refuses (refuses_of_step failed)

theorem finish_error {s : State} {index : Nat} {fault : Fault}
    (failed : finish s index = .error fault) :
    fault.index = index ∧ fault.cause.Fits .operatorFirst none := by
  have refuses : Refuses none s index none fault := refuses_of_finish failed
  exact fits_of_refuses refuses

theorem fits_of_read_error {limit : Option Nat} {ts : List Token} {fault : Fault}
    (failed : (reader limit).read ts = .error fault) : fault.Fits .operatorFirst ts := by
  rcases Reader.read_error failed with ⟨taken, t, rest, s, rfl, -, stopped⟩ | ⟨s, -, finished⟩
  · obtain ⟨index, fits⟩ := step_error stopped
    exact Fault.fits_token index fits
  · obtain ⟨index, fits⟩ := finish_error finished
    exact Fault.fits_end index fits

end OperatorFirst

namespace OperatorLast

def State.Settled : State → Prop
  | .doubt _ _ => False
  | _ => True

def Doubted (s : State) (fault : Fault) : Prop :=
  ∃ text, s = .doubt text fault.index ∧ fault.cause.Fits .operatorLast (some (.run text))

theorem fits_of_refuses {limit : Option Nat} {s : State} {index : Nat} {t : Option Token}
    {fault : Fault} (refuses : Refuses limit s index t fault) :
    s.Settled ∧ fault.index = index ∧ fault.cause.Fits .operatorLast t ∨ Doubted s fault := by
  cases refuses with
  | doubtClosed => exact .inr ⟨_, rfl, rfl⟩
  | doubt goesOn => exact .inr ⟨_, rfl, rfl⟩
  | _ => exact .inl ⟨trivial, rfl, rfl⟩

theorem step_error {limit : Option Nat} {s : State} {index : Nat} {t : Token} {fault : Fault}
    (failed : step limit s index t = .error fault) :
    s.Settled ∧ fault.index = index ∧ fault.cause.Fits .operatorLast (some t) ∨
      Doubted s fault :=
  fits_of_refuses (refuses_of_step failed)

theorem finish_error {s : State} {index : Nat} {fault : Fault}
    (failed : finish s index = .error fault) :
    s.Settled ∧ fault.index = index ∧ fault.cause.Fits .operatorLast none ∨
      Doubted s fault := by
  have refuses : Refuses none s index none fault := refuses_of_finish failed
  exact fits_of_refuses refuses

theorem deliver_ne_doubt (pending : List (List Expr)) (e : Expr) (text : String) (place : Nat) :
    deliver pending e ≠ .doubt text place := by
  cases pending <;> exact State.noConfusion

theorem step_doubt {limit : Option Nat} {s : State} {index place : Nat} {t : Token} {text : String}
    (ok : step limit s index t = .ok (.doubt text place)) :
    place = index ∧ t = .run text ∧ ∃ operands pending, s = .operand (operands :: pending) := by
  cases s with
  | operand pending =>
    cases t with
    | opening =>
      obtain ⟨_, -, ok⟩ := ok_bind ok
      cases ok
    | closing => cases pending <;> cases ok
    | run found =>
      cases pending with
      | nil =>
        simp only [step, stepOutside] at ok
        split at ok <;> cases ok
      | cons operands pending =>
        simp only [step, stepInside] at ok
        split at ok
        · obtain ⟨e, -, ok⟩ := ok_bind ok
          cases ok
        · split at ok
          · next e leaf => exact absurd (Except.ok.inj ok) (deliver_ne_doubt _ _ _ _)
          · cases ok
            exact ⟨rfl, rfl, operands, pending, rfl⟩
  | doubt other place =>
    simp only [step] at ok
    split at ok <;> cases ok
  | closing pending inner =>
    simp only [step] at ok
    split at ok
    · exact absurd (Except.ok.inj ok) (deliver_ne_doubt _ _ _ _)
    · cases ok
  | nothing whole => cases ok

/-- Doubt comes from the last token taken, a run in an open bracket. -/
theorem reaches_doubt {limit : Option Nat} {ts : List Token} {text : String} {place : Nat}
    (reached : (reader limit).Reaches ts (.doubt text place)) :
    ∃ taken operands pending, ts = taken ++ [.run text] ∧ place = taken.length ∧
      (reader limit).Reaches taken (.operand (operands :: pending)) := by
  cases reached with
  | @step taken s next t reached ok =>
    obtain ⟨rfl, rfl, operands, pending, rfl⟩ := step_doubt ok
    exact ⟨taken, operands, pending, rfl, rfl, reached⟩

theorem fits_of_doubted {limit : Option Nat} {taken : List Token} {s : State} {fault : Fault}
    (reached : (reader limit).Reaches taken s) (doubted : Doubted s fault) (rest : List Token) :
    fault.Fits .operatorLast (taken ++ rest) := by
  obtain ⟨text, rfl, fits⟩ := doubted
  obtain ⟨before, -, -, rfl, index, -⟩ := reaches_doubt reached
  rw [List.append_assoc]
  exact Fault.fits_token index fits

theorem fits_of_read_error {limit : Option Nat} {ts : List Token} {fault : Fault}
    (failed : (reader limit).read ts = .error fault) : fault.Fits .operatorLast ts := by
  rcases Reader.read_error failed with ⟨taken, t, rest, s, rfl, reached, stopped⟩ |
    ⟨s, reached, finished⟩
  · rcases step_error stopped with ⟨-, index, fits⟩ | doubted
    · exact Fault.fits_token index fits
    · exact fits_of_doubted reached doubted (t :: rest)
  · rcases finish_error finished with ⟨-, index, fits⟩ | doubted
    · exact Fault.fits_end index fits
    · have fits := fits_of_doubted reached doubted []
      rw [List.append_nil] at fits
      exact fits

end OperatorLast

namespace Bare

def Placed (stack : List Value) (ts : List Token) : Prop :=
  ∀ value ∈ stack, ts[value.index]? = some (.run value.text)

theorem placed_snoc {stack : List Value} {ts : List Token} (placed : Placed stack ts) (t : Token) :
    Placed stack (ts ++ [t]) := by
  intro value mem
  have found := placed value mem
  obtain ⟨inside, -⟩ := List.getElem?_eq_some_iff.mp found
  rw [List.getElem?_append_left inside, found]

theorem placed_cons {stack : List Value} {ts : List Token} {value : Value}
    (placed : Placed stack ts) (top : ts[value.index]? = some (.run value.text)) :
    Placed (value :: stack) ts := by
  intro other mem
  rcases List.mem_cons.mp mem with rfl | below
  · exact top
  · exact placed other below

theorem placed_reduce {op : Operation} {stack next : List Value} {ts : List Token}
    (placed : Placed stack ts) (ok : reduce op stack ts.length = .ok next) :
    Placed next (ts ++ [.run op.token]) := by
  obtain ⟨e, applied, ok⟩ := ok_bind ok
  cases ok
  have later := placed_snoc placed (.run op.token)
  apply placed_cons
  · intro value mem
    exact later value (List.mem_of_mem_drop mem)
  -- the new node is found where its first operand is, or at its own token if it has none
  · split
    · next first operands shape =>
      have mem : first ∈ (stack.take (wanted op stack.length)).reverse := by
        rw [shape]
        exact List.mem_cons_self
      exact later first (List.mem_of_mem_take (List.mem_reverse.mp mem))
    · exact Token.getElem?_cut ts [] _

theorem placed_of_reaches {ts : List Token} {stack : List Value}
    (reached : reader.Reaches ts stack) : Placed stack ts := by
  induction reached with
  | start =>
    intro value mem
    cases mem
  | @step taken s next t reached ok placed =>
    change step s taken.length t = .ok next at ok
    unfold step at ok
    split at ok
    · next op found =>
      rw [Token.eq_run_of_operation? found]
      exact placed_reduce placed ok
    · split at ok <;> cases ok
      next e leaf =>
      cases t with
      | opening => cases leaf
      | closing => cases leaf
      | run text =>
        exact placed_cons (placed_snoc placed _) (Token.getElem?_cut taken [] _)

theorem step_error {stack : List Value} {index : Nat} {t : Token} {fault : Fault}
    (failed : step stack index t = .error fault) :
    fault.index = index ∧ fault.cause.Fits .bare (some t) := by
  cases refuses_of_step failed with
  | arity arity few => exact ⟨rfl, rfl⟩
  | term notOperation notLeaf => exact ⟨rfl, rfl⟩

theorem finish_error {stack : List Value} {ts : List Token} {fault : Fault}
    (placed : Placed stack ts) (failed : finish stack ts.length = .error fault) :
    fault.Fits .bare ts := by
  unfold finish at failed
  split at failed
  · cases failed
    exact Fault.fits_end rfl rfl
  · cases failed
  · next first extra rest shape =>
    cases failed
    have mem : extra ∈ stack.reverse := by
      rw [shape]
      exact List.mem_cons_of_mem first List.mem_cons_self
    have found := placed extra (List.mem_reverse.mp mem)
    obtain ⟨inside, -⟩ := List.getElem?_eq_some_iff.mp found
    refine ⟨Nat.le_of_lt inside, ?_⟩
    rw [found]
    rfl

theorem fits_of_read_error {ts : List Token} {fault : Fault}
    (failed : reader.read ts = .error fault) : fault.Fits .bare ts := by
  rcases Reader.read_error failed with ⟨taken, t, rest, stack, rfl, -, stopped⟩ |
    ⟨stack, reached, finished⟩
  · obtain ⟨index, fits⟩ := step_error stopped
    exact Fault.fits_token index fits
  · exact finish_error (placed_of_reaches reached) finished

end Bare

theorem fits_of_readTokens_error {n : Notation} {limit : Option Nat} {ts : List Token}
    {fault : Fault} (failed : readTokens n limit ts = .error fault) : fault.Fits n ts := by
  cases n with
  | bare => exact Bare.fits_of_read_error failed
  | operatorFirst => exact OperatorFirst.fits_of_read_error failed
  | operatorLast => exact OperatorLast.fits_of_read_error failed

theorem parse_eq_error_iff {n : Notation} {limit : Option Nat} {text : String} {err : ParseError} :
    parse n limit text = .error err ↔
      ∃ fault, readTokens n limit (tokensOf text) = .error fault ∧
        err = ⟨fault.cause, Context.ofIndex text (Token.scan text) fault.index⟩ := by
  simp only [parse, tokensOf]
  cases readTokens n limit ((Token.scan text).map (·.token)) with
  | ok e => simp
  | error fault => simp [eq_comm]

end Formula
