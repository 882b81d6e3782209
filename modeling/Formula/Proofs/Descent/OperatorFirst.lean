import Formula.Proofs.Descent.Steps

namespace Formula

namespace OperatorFirst

open Parsing Parsing.Limit

/- Steps of the reader. -/

variable (limit : Option Nat) {pending : List Pending} {index : Nat}

theorem step_opening (allowed : Reader.checkDepth limit (pending.length + 1) index = .ok ()) :
    step limit (.operand pending) index .opening = .ok (.operation pending) := by
  change (Reader.checkDepth limit (pending.length + 1) index >>= fun _ => pure _) = _
  rw [allowed]
  rfl

theorem step_opening_error {fault : Fault}
    (refused : Reader.checkDepth limit (pending.length + 1) index = .error fault) :
    step limit (.operand pending) index .opening = .error fault := by
  change (Reader.checkDepth limit (pending.length + 1) index >>= fun _ => pure _) = _
  rw [refused]
  rfl

theorem step_operation {t : Token} {op : Operation} (found : t.operation? = some op) :
    step limit (.operation pending) index t = .ok (.operand (⟨op, []⟩ :: pending)) := by
  cases t <;> simp only [step, found]

theorem step_operation_error {t : Token} (none : t.operation? = none) :
    step limit (.operation pending) index t = .error ⟨.unknownOperator t.text, index⟩ := by
  cases t <;> simp only [step, none]

theorem step_leaf {text : String} {e : Expr} (leaf : Expr.leaf? text = some e) :
    step limit (.operand pending) index (.run text) = .ok (deliver pending e) := by
  cases pending <;> simp only [step, leaf]

theorem step_unknown {text : String} (none : Expr.leaf? text = none) :
    step limit (.operand pending) index (.run text) = .error ⟨.invalidTerm text, index⟩ := by
  cases pending <;> simp only [step, none]

theorem step_closing {p : Pending} {e : Expr}
    (applied : Reader.applied p.operation p.operands.reverse index = .ok e) :
    step limit (.operand (p :: pending)) index .closing = .ok (deliver pending e) := by
  change (Reader.applied p.operation p.operands.reverse index >>= fun _ => pure _) = _
  rw [applied]
  rfl

theorem step_closing_error {p : Pending} {fault : Fault}
    (refused : Reader.applied p.operation p.operands.reverse index = .error fault) :
    step limit (.operand (p :: pending)) index .closing = .error fault := by
  change (Reader.applied p.operation p.operands.reverse index >>= fun _ => pure _) = _
  rw [refused]
  rfl

/- Calls. -/

variable {limit} {text : String} {d : Descent}

def operandOn (text : String) (limit : Option Nat) (pending : List Pending) (index : Nat) :
    Except Fault Expr :=
  (reader limit).readOn text (.operand pending) index

def deliveredOn (text : String) (limit : Option Nat) (pending : List Pending) (e : Expr)
    (index : Nat) : Except Fault Expr :=
  (reader limit).readOn text (deliver pending e) index

theorem closing_ends {op : Operation} {operands : List Expr}
    (last : (tokensOf text)[index]? = some .closing ∨ (tokensOf text)[index]? = none)
    (stands : Stands text index (pending.length + 1) d) (noted : Noted text index d) :
    Ends text (operandOn text limit (⟨op, operands.reverse⟩ :: pending) index)
      (fun e next => Stands text (index + 1) (pending.length + 1) next ∧ Noted text (index + 1) next ∧
        operandOn text limit (⟨op, operands.reverse⟩ :: pending) index =
          deliveredOn text limit pending e (index + 1))
      ((do
        checkArity op operands.length
        expectClose .operatorFirst
        built op operands : Parsing Expr).exec d) := by
  have within : index ≤ (tokensOf text).length + 1 := Nat.le_succ_of_le stands.bound
  rcases arity_cases stands op operands with ⟨e, applied, is, checked⟩ | ⟨fault, refused, checked⟩
  · rw [exec_bind_ok checked]
    rcases last with closing | none
    · obtain ⟨scanner, closed, further⟩ := exec_expectClose stands closing .operatorFirst
      rw [exec_bind_ok closed, built, exec_require is]
      refine .arrived ⟨further, (noted.mono (Nat.le_succ index)).scanned scanner, ?_⟩
      exact Reader.readOn_step closing (step_closing limit (by rw [List.reverse_reverse, applied]))
    · have open_ : (tokensOf text)[index]? ≠ some .closing := by rw [none]; exact nofun
      rw [exec_bind_error (exec_expectClose_error stands open_ .operatorFirst), none]
      refine .refused ?_ (noted.mono within)
      rw [operandOn, Reader.readOn_end none]
      change (Reader.applied op operands.reverse.reverse index >>= fun _ => _) = _
      rw [List.reverse_reverse, applied]
      rfl
  · rw [exec_bind_error checked]
    refine .refused ?_ (noted.mono within)
    rw [← List.reverse_reverse operands] at refused
    rcases last with closing | none
    · exact Reader.readOn_stop closing (step_closing_error limit refused)
    · rw [operandOn, Reader.readOn_end none]
      change (Reader.applied op operands.reverse.reverse index >>= fun _ => _) = _
      rw [refused]
      rfl

/-- The operands from a token on have been read, up to the end of their bracket. -/
def Gathers (text : String) (limit : Option Nat) (index : Nat) (op : Operation)
    (operands : List Expr) (pending : List Pending) (all : List Expr) (d : Descent) : Prop :=
  ∃ later, index ≤ later ∧ Stands text later (pending.length + 1) d ∧ Noted text later d ∧
    ((tokensOf text)[later]? = some .closing ∨ (tokensOf text)[later]? = none) ∧
    operandOn text limit (⟨op, operands.reverse⟩ :: pending) index =
      operandOn text limit (⟨op, all.reverse⟩ :: pending) later

def OperandsFrom (text : String) (limit : Option Nat) (index : Nat) : Prop :=
  ∀ op operands pending d, Stands text index (pending.length + 1) d → Noted text index d →
    Ends text (operandOn text limit (⟨op, operands.reverse⟩ :: pending) index)
      (Gathers text limit index op operands pending)
      ((operandsFirst limit operands).exec d)

theorem body_ends (operandsFrom : ∀ later > index, OperandsFrom text limit later)
    (opening : (tokensOf text)[index]? = some .opening)
    (allowed : Reader.checkDepth limit (pending.length + 1) index = .ok ())
    (stands : Stands text index (pending.length + 1) d) (noted : Noted text (index + 1) d) :
    Ends text (operandOn text limit pending index)
      (Arrives text index (pending.length + 1) (operandOn text limit pending index)
        (deliveredOn text limit pending)) ((body .first limit).exec d) := by
  have entered : operandOn text limit pending index =
      (reader limit).readOn text (.operation pending) (index + 1) :=
    Reader.readOn_step opening (step_opening limit allowed)
  obtain ⟨inner, -⟩ := List.getElem?_eq_some_iff.mp opening
  obtain ⟨scanner, advanced, further⟩ := exec_next stands inner
  have kept := noted.scanned scanner
  rw [body, exec_bind_ok advanced]
  generalize ({ d with scanner } : Descent) = d at further kept
  cases found : (tokensOf text)[index + 1]?.bind Token.operation? with
  | none =>
    -- what follows the bracket is no operation, which the reader refuses at the same token
    refine .fail further kept (Nat.le_succ_of_le further.bound) ?_
    rw [entered]
    cases token : (tokensOf text)[index + 1]? with
    | none => exact Reader.readOn_end token
    | some t =>
      rw [token] at found
      exact Reader.readOn_stop token (step_operation_error limit found)
  | some op =>
    obtain ⟨t, token, operation⟩ := Option.bind_eq_some_iff.mp found
    have begun : operandOn text limit pending index =
        operandOn text limit (⟨op, [].reverse⟩ :: pending) (index + 2) :=
      entered.trans (Reader.readOn_step token (step_operation limit operation))
    obtain ⟨inner, -⟩ := List.getElem?_eq_some_iff.mp token
    obtain ⟨scanner, advanced, further⟩ := exec_next further inner
    have kept := (kept.mono (Nat.le_succ (index + 1))).scanned scanner
    simp only [exec_bind_ok advanced]
    rw [begun]
    have after : index + 2 > index := by omega
    refine (operandsFrom (index + 2) after op [] pending _ further kept).bind ?_
    rintro operands next ⟨later, le, there, kept, last, same⟩
    rw [same]
    refine (closing_ends last there kept).mono ?_
    rintro e next ⟨behind, kept, delivered⟩
    exact ⟨later + 1, by omega, behind, kept, delivered⟩

/-- A call reads what begins at a token. Inside a bracket it is made only before the end of that. -/
def CallsFrom (text : String) (limit : Option Nat) (index : Nat) : Prop :=
  ∀ pending d, Stands text index pending.length d → Noted text index d →
    (pending ≠ [] → (tokensOf text)[index]? ≠ some .closing ∧ (tokensOf text)[index]? ≠ none) →
    Ends text (operandOn text limit pending index)
      (Arrives text index pending.length (operandOn text limit pending index)
        (deliveredOn text limit pending)) ((expression .first limit).exec d)

theorem operandOn_unknown
    (inside : pending ≠ [] → (tokensOf text)[index]? ≠ some .closing ∧ (tokensOf text)[index]? ≠ none)
    (other : (tokensOf text)[index]? ≠ some .opening)
    (unknown : (tokensOf text)[index]?.bind Token.leaf? = none) :
    operandOn text limit pending index =
      .error ⟨.invalidTerm (Token.describe (tokensOf text)[index]?), index⟩ := by
  cases token : (tokensOf text)[index]? with
  | none =>
    obtain rfl : pending = [] := by
      by_contra some
      exact (inside some).2 token
    exact Reader.readOn_end token
  | some t =>
    cases t with
    | opening => exact absurd token other
    | closing =>
      obtain rfl : pending = [] := by
        by_contra some
        exact (inside some).1 token
      exact Reader.readOn_stop token rfl
    | run run =>
      rw [token] at unknown
      exact Reader.readOn_stop token (step_unknown limit unknown)

theorem callsFrom (operandsFrom : ∀ later > index, OperandsFrom text limit later) :
    CallsFrom text limit index := by
  intro pending d stands noted inside
  refine expression_ends ⟨?_, ?_, ?_, operandOn_unknown inside⟩ stands noted
  · intro fault opening refused
    exact Reader.readOn_stop opening (step_opening_error limit refused)
  · intro opening allowed d inside kept
    exact body_ends operandsFrom opening allowed inside kept
  · intro e found
    obtain ⟨run, token, leaf⟩ := Token.run_of_leaf? found
    exact Reader.readOn_step token (step_leaf limit leaf)

theorem operandsFrom_step (callsFrom : CallsFrom text limit index)
    (operandsFrom : ∀ later > index, OperandsFrom text limit later) :
    OperandsFrom text limit index := by
  intro op operands pending d stands noted
  rw [operandsFirst, exec_bind_ok (exec_current stands)]
  by_cases last : (tokensOf text)[index]? = some .closing ∨ (tokensOf text)[index]? = none
  · rw [if_pos last]
    exact .arrived ⟨index, Nat.le_refl index, stands, noted, last, rfl⟩
  · rw [if_neg last]
    refine (callsFrom (⟨op, operands.reverse⟩ :: pending) d stands noted
      fun _ => not_or.mp last).bind ?_
    rintro e next ⟨middle, further, there, kept, same⟩
    have one : deliveredOn text limit (⟨op, operands.reverse⟩ :: pending) e middle =
        operandOn text limit (⟨op, (operands ++ [e]).reverse⟩ :: pending) middle := by
      rw [List.reverse_append]
      rfl
    rw [same, one]
    refine (operandsFrom middle further op (operands ++ [e]) pending next there kept).mono ?_
    rintro all final ⟨later, le, there, kept, last, rest⟩
    exact ⟨later, by omega, there, kept, last, same.trans (one.trans rest)⟩

theorem operandsFrom (text : String) (limit : Option Nat) (index : Nat) :
    OperandsFrom text limit index := by
  refine forall_of_later (tokensOf text).length ?_ ?_ index
  · intro i beyond op operands pending d stands
    exact absurd stands.bound (Nat.not_le.mpr beyond)
  · intro i later
    exact operandsFrom_step (callsFrom later) later

end OperatorFirst

end Formula
