import Formula.Proofs.Reading.Reached

/-!
Why a reading fails. For each reader the ways in which it refuses a token, or the end, are listed
once, with the state in which that happens and the fault that is reported.
-/

namespace Formula

theorem Token.eq_run_of_operation? {t : Token} {op : Operation} (found : t.operation? = some op) :
    t = .run op.token := by
  cases t with
  | opening => cases found
  | closing => cases found
  | run text => exact congrArg Token.run (Operation.token_of_ofToken? found).symm

theorem error_bind {α β ε : Type} {x : Except ε α} {f : α → Except ε β} {fault : ε}
    (failed : (x >>= f) = .error fault) :
    x = .error fault ∨ ∃ a, x = .ok a ∧ f a = .error fault := by
  cases x with
  | ok a => exact .inr ⟨a, rfl, failed⟩
  | error other =>
    cases failed
    exact .inl rfl

theorem error_of_bind_pure {α β ε : Type} {x : Except ε α} {f : α → β} {fault : ε}
    (failed : (x >>= fun a => pure (f a)) = .error fault) : x = .error fault := by
  rcases error_bind failed with first | ⟨a, -, failed⟩
  · exact first
  · cases failed

theorem applied_error {op : Operation} {es : List Expr} {index : Nat} {fault : Fault}
    (failed : Reader.applied op es index = .error fault) :
    Expr.build? op es = none ∧
      fault = ⟨.arityMismatch op.token op.arity.least es.length, index⟩ := by
  unfold Reader.applied at failed
  split at failed <;> cases failed
  next none => exact ⟨none, rfl⟩

theorem arity_of_refused {op : Operation} {es : List Expr}
    (refused : Expr.build? op es = none) :
    ∃ count, op.arity = .exactly count ∧ es.length ≠ count := by
  have unaccepted := Expr.build?_isSome op es
  rw [refused, Operation.accepts] at unaccepted
  cases arity : op.arity with
  | exactly count =>
    rw [arity] at unaccepted
    exact ⟨count, rfl, fun same => by simp [Arity.accepts, same] at unaccepted⟩
  | any =>
    rw [arity] at unaccepted
    cases unaccepted

theorem checkDepth_error {limit : Option Nat} {depth index : Nat} {fault : Fault}
    (failed : Reader.checkDepth limit depth index = .error fault) :
    ∃ most, limit = some most ∧ most < depth ∧ fault = ⟨.tooDeep most, index⟩ := by
  unfold Reader.checkDepth at failed
  split at failed
  · next most =>
    split at failed <;> cases failed
    next deep => exact ⟨most, rfl, deep, rfl⟩
  · cases failed

def EndsBracket (t : Option Token) : Prop :=
  t = some .closing ∨ t = none

/-- A failing reading has taken some of the tokens, and then it refuses the next one or the end. -/
theorem Reader.refused_of_read_error {σ : Type} {r : Reader σ}
    {Refuses : σ → Nat → Option Token → Fault → Prop}
    (step : ∀ {s index t fault}, r.step s index t = .error fault → Refuses s index (some t) fault)
    (finish : ∀ {s index fault}, r.finish s index = .error fault → Refuses s index none fault)
    {ts : List Token} {fault : Fault} (failed : r.read ts = .error fault) :
    ∃ taken rest s, ts = taken ++ rest ∧ r.Reaches taken s ∧
      Refuses s taken.length rest.head? fault := by
  rcases read_error failed with ⟨taken, t, rest, s, rfl, reached, stopped⟩ | ⟨s, reached, finished⟩
  · exact ⟨taken, t :: rest, s, rfl, reached, step stopped⟩
  · exact ⟨ts, [], s, (List.append_nil ts).symm, reached, finish finished⟩

namespace OperatorFirst

/-- The reader refuses what comes next, a token or the end. -/
inductive Refuses (limit : Option Nat) : State → Nat → Option Token → Fault → Prop
  | tooDeep {pending : List Pending} {most index : Nat} (limited : limit = some most)
      (deep : most < pending.length + 1) :
      Refuses limit (.operand pending) index (some .opening) ⟨.tooDeep most, index⟩
  | nothing {index : Nat} {t : Option Token} (ends : EndsBracket t) :
      Refuses limit (.operand []) index t ⟨.invalidTerm (Token.describe t), index⟩
  | arity {p : Pending} {pending : List Pending} {index : Nat} {t : Option Token}
      (ends : EndsBracket t) (refused : Expr.build? p.operation p.operands.reverse = none) :
      Refuses limit (.operand (p :: pending)) index t
        ⟨.arityMismatch p.operation.token p.operation.arity.least p.operands.reverse.length, index⟩
  | unclosed {p : Pending} {pending : List Pending} {index : Nat} {e : Expr}
      (built : Expr.build? p.operation p.operands.reverse = some e) :
      Refuses limit (.operand (p :: pending)) index none
        ⟨.expectedClose Token.endText .operatorFirst, index⟩
  | term {pending : List Pending} {index : Nat} {text : String}
      (unknown : Expr.leaf? text = none) :
      Refuses limit (.operand pending) index (some (.run text)) ⟨.invalidTerm text, index⟩
  | operation {pending : List Pending} {index : Nat} {t : Option Token}
      (unknown : t.bind Token.operation? = none) :
      Refuses limit (.operation pending) index t ⟨.unknownOperator (Token.describe t), index⟩
  | extra {whole : Expr} {index : Nat} {t : Token} :
      Refuses limit (.nothing whole) index (some t) ⟨.extraToken t.text, index⟩

theorem refuses_of_step {limit : Option Nat} {s : State} {index : Nat} {t : Token} {fault : Fault}
    (failed : step limit s index t = .error fault) : Refuses limit s index (some t) fault := by
  cases s with
  | operand pending =>
    cases t with
    | opening =>
      obtain ⟨most, limited, deep, rfl⟩ := checkDepth_error (error_of_bind_pure failed)
      exact .tooDeep limited deep
    | closing =>
      cases pending with
      | nil =>
        cases failed
        exact .nothing (.inl rfl)
      | cons p pending =>
        obtain ⟨refused, rfl⟩ := applied_error (error_of_bind_pure failed)
        exact .arity (.inl rfl) refused
    | run text =>
      simp only [step] at failed
      split at failed <;> cases failed
      next unknown => exact .term unknown
  | operation pending =>
    simp only [step] at failed
    split at failed <;> cases failed
    next unknown => exact .operation unknown
  | nothing whole =>
    cases failed
    exact .extra

theorem refuses_of_finish {limit : Option Nat} {s : State} {index : Nat} {fault : Fault}
    (failed : finish s index = .error fault) : Refuses limit s index none fault := by
  cases s with
  | operand pending =>
    cases pending with
    | nil =>
      cases failed
      exact .nothing (.inr rfl)
    | cons p pending =>
      rcases error_bind failed with arity | ⟨e, built, failed⟩
      · obtain ⟨refused, rfl⟩ := applied_error arity
        exact .arity (.inr rfl) refused
      · cases failed
        exact .unclosed (applied_eq_ok_iff.mp built)
  | operation pending =>
    cases failed
    exact .operation rfl
  | nothing whole => cases failed

theorem refused_of_read_error {limit : Option Nat} {ts : List Token} {fault : Fault}
    (failed : (reader limit).read ts = .error fault) :
    ∃ taken rest s, ts = taken ++ rest ∧ (reader limit).Reaches taken s ∧
      Refuses limit s taken.length rest.head? fault :=
  Reader.refused_of_read_error refuses_of_step refuses_of_finish failed

end OperatorFirst

namespace OperatorLast

/-- The reader refuses what comes next, a token or the end. In doubt it refuses the run before. -/
inductive Refuses (limit : Option Nat) : State → Nat → Option Token → Fault → Prop
  | tooDeep {pending : List (List Expr)} {most index : Nat} (limited : limit = some most)
      (deep : most < pending.length + 1) :
      Refuses limit (.operand pending) index (some .opening) ⟨.tooDeep most, index⟩
  | nothing {index : Nat} {t : Option Token} (ends : EndsBracket t) :
      Refuses limit (.operand []) index t ⟨.invalidTerm (Token.describe t), index⟩
  | operation {operands : List Expr} {pending : List (List Expr)} {index : Nat} {t : Option Token}
      (ends : EndsBracket t) :
      Refuses limit (.operand (operands :: pending)) index t
        ⟨.missingOperator (Token.describe t), index⟩
  | term {index : Nat} {text : String} (unknown : Expr.leaf? text = none) :
      Refuses limit (.operand []) index (some (.run text)) ⟨.invalidTerm text, index⟩
  | arity {op : Operation} {operands : List Expr} {pending : List (List Expr)} {index : Nat}
      (refused : Expr.build? op operands.reverse = none) :
      Refuses limit (.operand (operands :: pending)) index (some (.run op.token))
        ⟨.arityMismatch op.token op.arity.least operands.reverse.length, index⟩
  | doubtClosed {text : String} {place index : Nat} :
      Refuses limit (.doubt text place) index (some .closing) ⟨.unknownOperator text, place⟩
  | doubt {text : String} {place index : Nat} {t : Option Token} (goesOn : t ≠ some .closing) :
      Refuses limit (.doubt text place) index t ⟨.invalidTerm text, place⟩
  | unclosed {pending : List (List Expr)} {inner : Expr} {index : Nat} {t : Option Token}
      (goesOn : t ≠ some .closing) :
      Refuses limit (.closing pending inner) index t
        ⟨.expectedClose (Token.describe t) .operatorLast, index⟩
  | extra {whole : Expr} {index : Nat} {t : Token} :
      Refuses limit (.nothing whole) index (some t) ⟨.extraToken t.text, index⟩

theorem refuses_of_step {limit : Option Nat} {s : State} {index : Nat} {t : Token} {fault : Fault}
    (failed : step limit s index t = .error fault) : Refuses limit s index (some t) fault := by
  cases s with
  | operand pending =>
    cases t with
    | opening =>
      obtain ⟨most, limited, deep, rfl⟩ := checkDepth_error (error_of_bind_pure failed)
      exact .tooDeep limited deep
    | closing =>
      cases pending with
      | nil =>
        cases failed
        exact .nothing (.inl rfl)
      | cons operands pending =>
        cases failed
        exact .operation (.inl rfl)
    | run text =>
      cases pending with
      | nil =>
        simp only [step, stepOutside] at failed
        split at failed <;> cases failed
        next unknown => exact .term unknown
      | cons operands pending =>
        simp only [step, stepInside] at failed
        split at failed
        · next op found =>
          obtain ⟨refused, rfl⟩ := applied_error (error_of_bind_pure failed)
          rw [← Operation.token_of_ofToken? found]
          exact .arity refused
        · split at failed <;> cases failed
  | doubt text place =>
    simp only [step] at failed
    split at failed <;> cases failed
    · next close =>
      subst close
      exact .doubtClosed
    · next goesOn => exact .doubt fun close => goesOn (Option.some.inj close)
  | closing pending inner =>
    simp only [step] at failed
    split at failed <;> cases failed
    next goesOn => exact .unclosed fun close => goesOn (Option.some.inj close)
  | nothing whole =>
    cases failed
    exact .extra

theorem refuses_of_finish {limit : Option Nat} {s : State} {index : Nat} {fault : Fault}
    (failed : finish s index = .error fault) : Refuses limit s index none fault := by
  cases s with
  | operand pending =>
    cases pending with
    | nil =>
      cases failed
      exact .nothing (.inr rfl)
    | cons operands pending =>
      cases failed
      exact .operation (.inr rfl)
  | doubt text place =>
    cases failed
    exact .doubt nofun
  | closing pending inner =>
    cases failed
    exact .unclosed nofun
  | nothing whole => cases failed

theorem refused_of_read_error {limit : Option Nat} {ts : List Token} {fault : Fault}
    (failed : (reader limit).read ts = .error fault) :
    ∃ taken rest s, ts = taken ++ rest ∧ (reader limit).Reaches taken s ∧
      Refuses limit s taken.length rest.head? fault :=
  Reader.refused_of_read_error refuses_of_step refuses_of_finish failed

end OperatorLast

namespace Bare

inductive Refuses : List Value → Nat → Option Token → Fault → Prop
  | arity {op : Operation} {stack : List Value} {count index : Nat}
      (arity : op.arity = .exactly count) (few : stack.length < count) :
      Refuses stack index (some (.run op.token))
        ⟨.arityMismatch op.token count stack.length, index⟩
  | term {stack : List Value} {index : Nat} {t : Token} (notOperation : t.operation? = none)
      (notLeaf : t.leaf? = none) : Refuses stack index (some t) ⟨.invalidTerm t.text, index⟩
  | nothing {index : Nat} : Refuses [] index none ⟨.invalidTerm Token.endText, index⟩
  | extra {above : List Value} {extra bottom : Value} {index : Nat} :
      Refuses (above ++ [extra, bottom]) index none ⟨.extraToken extra.text, extra.index⟩

theorem refuses_of_reduce {op : Operation} {stack : List Value} {index : Nat} {fault : Fault}
    (failed : reduce op stack index = .error fault) :
    Refuses stack index (some (.run op.token)) fault := by
  obtain ⟨refused, rfl⟩ := applied_error (error_of_bind_pure failed)
  obtain ⟨count, arity, differs⟩ := arity_of_refused refused
  have wants : wanted op stack.length = count := by rw [wanted, arity]
  rw [wants] at differs ⊢
  rw [List.length_map, List.length_reverse, List.length_take] at differs ⊢
  have few : stack.length < count := by omega
  rw [Nat.min_eq_right (Nat.le_of_lt few), arity]
  exact .arity arity few

theorem refuses_of_step {stack : List Value} {index : Nat} {t : Token} {fault : Fault}
    (failed : step stack index t = .error fault) : Refuses stack index (some t) fault := by
  unfold step at failed
  split at failed
  · next op found =>
    rw [Token.eq_run_of_operation? found]
    exact refuses_of_reduce failed
  · next notOperation =>
    split at failed <;> cases failed
    next notLeaf => exact .term notOperation notLeaf

theorem refuses_of_finish {stack : List Value} {index : Nat} {fault : Fault}
    (failed : finish stack index = .error fault) : Refuses stack index none fault := by
  unfold finish at failed
  split at failed <;> cases failed
  · next shape =>
    rw [List.reverse_eq_nil_iff] at shape
    subst shape
    exact .nothing
  · next bottom extra rest shape =>
    have split : stack = rest.reverse ++ [extra, bottom] := by
      rw [← List.reverse_reverse stack, shape, List.reverse_cons, List.reverse_cons,
        List.append_assoc]
      rfl
    subst split
    exact .extra

theorem refused_of_read_error {ts : List Token} {fault : Fault}
    (failed : reader.read ts = .error fault) :
    ∃ taken rest stack, ts = taken ++ rest ∧ reader.Reaches taken stack ∧
      Refuses stack taken.length rest.head? fault :=
  Reader.refused_of_read_error refuses_of_step refuses_of_finish failed

end Bare

end Formula
