import Formula.Proofs.Descent.Steps

namespace Formula

namespace OperatorLast

open Parsing Parsing.Limit

/- Steps of the reader. -/

variable (limit : Option Nat) {pending : List (List Expr)} {operands : List Expr} {index : Nat}

theorem step_opening (allowed : Reader.checkDepth limit (pending.length + 1) index = .ok ()) :
    step limit (.operand pending) index .opening = .ok (.operand ([] :: pending)) := by
  change (Reader.checkDepth limit (pending.length + 1) index >>= fun _ => pure _) = _
  rw [allowed]
  rfl

theorem step_opening_error {fault : Fault}
    (refused : Reader.checkDepth limit (pending.length + 1) index = .error fault) :
    step limit (.operand pending) index .opening = .error fault := by
  change (Reader.checkDepth limit (pending.length + 1) index >>= fun _ => pure _) = _
  rw [refused]
  rfl

theorem step_operation {t : Token} {op : Operation} {e : Expr} (found : t.operation? = some op)
    (applied : Reader.applied op operands.reverse index = .ok e) :
    step limit (.operand (operands :: pending)) index t = .ok (.closing pending e) := by
  obtain rfl := Token.eq_run_of_operation? found
  simp only [step, stepInside, Operation.ofToken?_token, applied]
  rfl

theorem step_operation_error {t : Token} {op : Operation} {fault : Fault}
    (found : t.operation? = some op)
    (refused : Reader.applied op operands.reverse index = .error fault) :
    step limit (.operand (operands :: pending)) index t = .error fault := by
  obtain rfl := Token.eq_run_of_operation? found
  simp only [step, stepInside, Operation.ofToken?_token, refused]
  rfl

theorem step_leaf {text : String} {e : Expr} (leaf : Expr.leaf? text = some e)
    (none : pending ≠ [] → Operation.ofToken? text = none) :
    step limit (.operand pending) index (.run text) = .ok (deliver pending e) := by
  cases pending with
  | nil => simp only [step, stepOutside, leaf, deliver]
  | cons operands pending =>
    simp only [step, stepInside, none (List.cons_ne_nil _ _), leaf]

theorem step_unknown {text : String} (leaf : Expr.leaf? text = none)
    (operation : Operation.ofToken? text = none) :
    step limit (.operand (operands :: pending)) index (.run text) = .ok (.doubt text index) := by
  simp only [step, stepInside, leaf, operation]

/- Calls. -/

variable {limit} {text : String} {d : Descent}

def operandOn (text : String) (limit : Option Nat) (pending : List (List Expr)) (index : Nat) :
    Except Fault Expr :=
  (reader limit).readOn text (.operand pending) index

def deliveredOn (text : String) (limit : Option Nat) (pending : List (List Expr)) (e : Expr)
    (index : Nat) : Except Fault Expr :=
  (reader limit).readOn text (deliver pending e) index

theorem closing_ends {op : Operation}
    (operation : (tokensOf text)[index]?.bind Token.operation? = some op)
    (stands : Stands text index (pending.length + 1) d) (noted : Noted text index d) :
    Ends text (operandOn text limit (operands.reverse :: pending) index)
      (fun e next => Stands text (index + 2) (pending.length + 1) next ∧ Noted text (index + 2) next ∧
        operandOn text limit (operands.reverse :: pending) index =
          deliveredOn text limit pending e (index + 2))
      ((do
        checkArity op operands.length
        let _ ← advance
        expectClose .operatorLast
        built op operands : Parsing Expr).exec d) := by
  obtain ⟨t, token, found⟩ := Option.bind_eq_some_iff.mp operation
  obtain ⟨inner, -⟩ := List.getElem?_eq_some_iff.mp token
  rcases arity_cases stands op operands with ⟨e, applied, is, checked⟩ | ⟨fault, refused, checked⟩
  · rw [← List.reverse_reverse operands] at applied
    have closing : operandOn text limit (operands.reverse :: pending) index =
        (reader limit).readOn text (.closing pending e) (index + 1) :=
      Reader.readOn_step token (step_operation limit found applied)
    obtain ⟨scanner, advanced, further⟩ := exec_next stands inner
    have kept := (noted.mono (Nat.le_succ index)).scanned scanner
    rw [exec_bind_ok checked, exec_bind_ok advanced, closing]
    by_cases closed : (tokensOf text)[index + 1]? = some .closing
    · obtain ⟨scanner, closes, behind⟩ := exec_expectClose further closed .operatorLast
      rw [exec_bind_ok closes, built, exec_require is]
      refine .arrived ⟨behind, (kept.mono (Nat.le_succ (index + 1))).scanned scanner, ?_⟩
      exact Reader.readOn_step closed rfl
    · rw [exec_bind_error (exec_expectClose_error further closed .operatorLast)]
      refine .refused ?_ (kept.mono (Nat.succ_le_succ stands.bound))
      cases next : (tokensOf text)[index + 1]? with
      | none => exact Reader.readOn_end next
      | some u =>
        have other : u ≠ .closing := by
          rintro rfl
          exact closed next
        exact Reader.readOn_stop next (if_neg other)
  · rw [exec_bind_error checked]
    rw [← List.reverse_reverse operands] at refused
    exact .refused (Reader.readOn_stop token (step_operation_error limit found refused))
      (noted.mono (Nat.le_succ_of_le stands.bound))

def Gathers (text : String) (limit : Option Nat) (index : Nat) (operands : List Expr)
    (pending : List (List Expr)) (found : Operation × List Expr) (d : Descent) : Prop :=
  ∃ later, index ≤ later ∧ Stands text later (pending.length + 1) d ∧ Noted text later d ∧
    (tokensOf text)[later]?.bind Token.operation? = some found.1 ∧
    operandOn text limit (operands.reverse :: pending) index =
      operandOn text limit (found.2.reverse :: pending) later

def OperandsFrom (text : String) (limit : Option Nat) (index : Nat) : Prop :=
  ∀ operands pending d, Stands text index (pending.length + 1) d → Noted text index d →
    Ends text (operandOn text limit (operands.reverse :: pending) index)
      (Gathers text limit index operands pending)
      ((operandsLast limit operands).exec d)

theorem body_ends (operandsFrom : ∀ later > index, OperandsFrom text limit later)
    (opening : (tokensOf text)[index]? = some .opening)
    (allowed : Reader.checkDepth limit (pending.length + 1) index = .ok ())
    (stands : Stands text index (pending.length + 1) d) (noted : Noted text (index + 1) d) :
    Ends text (operandOn text limit pending index)
      (Arrives text index (pending.length + 1) (operandOn text limit pending index)
        (deliveredOn text limit pending)) ((body .last limit).exec d) := by
  have begun : operandOn text limit pending index =
      operandOn text limit ([].reverse :: pending) (index + 1) :=
    Reader.readOn_step opening (step_opening limit allowed)
  obtain ⟨inner, -⟩ := List.getElem?_eq_some_iff.mp opening
  obtain ⟨scanner, advanced, further⟩ := exec_next stands inner
  have kept := noted.scanned scanner
  rw [body, exec_bind_ok advanced, begun]
  refine (operandsFrom (index + 1) (Nat.lt_succ_self index) [] pending _ further kept).bind ?_
  rintro ⟨op, operands⟩ next ⟨later, le, there, kept, operation, same⟩
  rw [same]
  refine (closing_ends operation there kept).mono ?_
  rintro e next ⟨behind, kept, delivered⟩
  exact ⟨later + 2, by omega, behind, kept, delivered⟩

/-- What an operand inside a bracket may begin with. A run that is no operand is left to a call only
if the bracket does not close behind it. -/
structure Operand (text : String) (index : Nat) : Prop where
  operation : (tokensOf text)[index]?.bind Token.operation? = none
  more : ¬ ((tokensOf text)[index]? = some .closing ∨ (tokensOf text)[index]? = none)
  unknown : isUnknown (tokensOf text)[index]? = true → (tokensOf text)[index + 1]? ≠ some .closing

theorem run_of_isUnknown {t : Option Token} (unknown : isUnknown t = true) :
    ∃ run, t = some (.run run) ∧ Expr.leaf? run = none := by
  cases t with
  | none => cases unknown
  | some t =>
    cases t with
    | opening => cases unknown
    | closing => cases unknown
    | run run => exact ⟨run, rfl, Option.isNone_iff_eq_none.mp unknown⟩

/-- A call reads what begins at a token. Inside a bracket it is made only for an operand. -/
def CallsFrom (text : String) (limit : Option Nat) (index : Nat) : Prop :=
  ∀ pending d, Stands text index pending.length d → Noted text index d →
    (pending ≠ [] → Operand text index) →
    Ends text (operandOn text limit pending index)
      (Arrives text index pending.length (operandOn text limit pending index)
        (deliveredOn text limit pending)) ((expression .last limit).exec d)

theorem operandOn_doubt {run : String} (token : (tokensOf text)[index]? = some (.run run))
    (leaf : Expr.leaf? run = none)
    (operation : (tokensOf text)[index]?.bind Token.operation? = none) :
    operandOn text limit (operands :: pending) index =
      (reader limit).readOn text (.doubt run index) (index + 1) := by
  rw [token] at operation
  exact Reader.readOn_step token (step_unknown limit leaf operation)

theorem operandOn_unknown (inside : pending ≠ [] → Operand text index)
    (other : (tokensOf text)[index]? ≠ some .opening)
    (unknown : (tokensOf text)[index]?.bind Token.leaf? = none) :
    operandOn text limit pending index =
      .error ⟨.invalidTerm (Token.describe (tokensOf text)[index]?), index⟩ := by
  cases pending with
  | nil =>
    cases token : (tokensOf text)[index]? with
    | none => exact Reader.readOn_end token
    | some t =>
      cases t with
      | opening => exact absurd token other
      | closing => exact Reader.readOn_stop token rfl
      | run run =>
        rw [token] at unknown
        have leaf : Expr.leaf? run = none := unknown
        refine Reader.readOn_stop token ?_
        change stepOutside index run = _
        rw [stepOutside, leaf]
        rfl
  | cons operands pending =>
    obtain ⟨operation, more, alone⟩ := inside (List.cons_ne_nil _ _)
    cases token : (tokensOf text)[index]? with
    | none => exact absurd (.inr token) more
    | some t =>
      cases t with
      | opening => exact absurd token other
      | closing => exact absurd (.inl token) more
      | run run =>
        rw [token] at unknown alone
        have leaf : Expr.leaf? run = none := unknown
        -- the run is doubted first, and the token behind it decides that an operand was wanted
        rw [operandOn_doubt token leaf operation]
        cases next : (tokensOf text)[index + 1]? with
        | none => exact Reader.readOn_end next
        | some u =>
          have apart : u ≠ .closing := by
            rintro rfl
            exact alone (Option.isNone_iff_eq_none.mpr leaf) next
          exact Reader.readOn_stop next (if_neg apart)

theorem callsFrom (operandsFrom : ∀ later > index, OperandsFrom text limit later) :
    CallsFrom text limit index := by
  intro pending d stands noted inside
  refine expression_ends ⟨?_, ?_, ?_, operandOn_unknown inside⟩ stands noted
  · intro fault opening refused
    exact Reader.readOn_stop opening (step_opening_error limit refused)
  · intro opening allowed d inside kept
    exact body_ends operandsFrom opening allowed inside kept
  · intro e found
    obtain ⟨run, token, leaf⟩ := Token.run_of_leaf? found
    refine Reader.readOn_step token (step_leaf limit leaf fun some => ?_)
    have operation := (inside some).operation
    rw [token] at operation
    exact operation

theorem operandThen_ends (callsFrom : CallsFrom text limit index)
    (operandsFrom : ∀ later > index, OperandsFrom text limit later)
    (stands : Stands text index (pending.length + 1) d) (noted : Noted text index d)
    (operand : Operand text index) :
    Ends text (operandOn text limit (operands.reverse :: pending) index)
      (Gathers text limit index operands pending)
      ((operandThen limit operands).exec d) := by
  rw [operandThen]
  refine (callsFrom (operands.reverse :: pending) d stands noted fun _ => operand).bind ?_
  rintro e next ⟨middle, further, there, kept, same⟩
  have one : deliveredOn text limit (operands.reverse :: pending) e middle =
      operandOn text limit ((operands ++ [e]).reverse :: pending) middle := by
    rw [List.reverse_append]
    rfl
  rw [same, one]
  refine (operandsFrom middle further (operands ++ [e]) pending next there kept).mono ?_
  rintro found final ⟨later, le, there, kept, operation, rest⟩
  exact ⟨later, by omega, there, kept, operation, same.trans (one.trans rest)⟩

theorem operandsFrom_step (callsFrom : CallsFrom text limit index)
    (operandsFrom : ∀ later > index, OperandsFrom text limit later) :
    OperandsFrom text limit index := by
  intro operands pending d stands noted
  have within : index ≤ (tokensOf text).length + 1 := Nat.le_succ_of_le stands.bound
  rw [operandsLast, exec_bind_ok (exec_current stands)]
  cases operation : (tokensOf text)[index]?.bind Token.operation? with
  | some op => exact .arrived ⟨index, Nat.le_refl index, stands, noted, operation, rfl⟩
  | none =>
    simp only
    by_cases last : (tokensOf text)[index]? = some .closing ∨ (tokensOf text)[index]? = none
    · rw [if_pos last]
      refine .fail stands noted within ?_
      rcases last with closing | none
      · rw [closing]
        exact Reader.readOn_stop closing rfl
      · rw [none]
        exact Reader.readOn_end none
    · rw [if_neg last]
      by_cases unknown : isUnknown (tokensOf text)[index]? = true
      · rw [if_pos unknown, exec_bind_ok (exec_peek stands)]
        by_cases closing : (tokensOf text)[index + 1]? = some .closing
        · rw [if_pos closing]
          obtain ⟨run, token, leaf⟩ := run_of_isUnknown unknown
          refine .fail stands noted within ?_
          rw [operandOn_doubt token leaf operation, token]
          exact Reader.readOn_stop closing rfl
        · rw [if_neg closing]
          exact operandThen_ends callsFrom operandsFrom stands noted
            ⟨operation, last, fun _ => closing⟩
      · rw [if_neg unknown]
        exact operandThen_ends callsFrom operandsFrom stands noted
          ⟨operation, last, fun known => absurd known unknown⟩

theorem operandsFrom (text : String) (limit : Option Nat) (index : Nat) :
    OperandsFrom text limit index := by
  refine forall_of_later (tokensOf text).length ?_ ?_ index
  · intro i beyond operands pending d stands
    exact absurd stands.bound (Nat.not_le.mpr beyond)
  · intro i later
    exact operandsFrom_step (callsFrom later) later

end OperatorLast

end Formula
