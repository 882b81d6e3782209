import Mathlib
import Formula.Proofs.Expr.Dependence
import Formula.Proofs.Expr.Preorder
import Formula.Proofs.Reading.Term
import Formula.Proofs.Number.RoundTrip

/-!
The events of a walk through every node determine the formula, and so do their texts: an event has
the number of operands, which tells where the events of each operand end.
-/

namespace Formula

namespace Event

theorem write_injective : Function.Injective Number.write := by
  intro u w same
  have read := Number.read?_write u
  rw [same, Number.read?_write] at read
  exact (Option.some.inj read).symm

theorem space_not_mem_token (op : Operation) : ' ' ∉ op.token.toList := by
  intro mem
  cases op.word.solid ' ' mem

theorem space_not_mem_count (n : Nat) : ' ' ∉ (toString n).toList := by
  intro mem
  rw [Nat.toString_eq_repr, Nat.toList_repr] at mem
  cases Nat.isDigit_of_mem_toDigits (by decide) (by decide) mem

theorem describe_injective : Function.Injective describe := by
  intro a b same
  have chars := congrArg String.toList same
  cases a with
  | const u =>
    cases b with
    | const w => exact congrArg const (write_injective ((String.append_right_inj _).mp same))
    | _ => simp [describe] at chars
  | var v =>
    cases b with
    | var w =>
      exact congrArg var (Variable.name_injective ((String.append_right_inj _).mp same))
    | _ => simp [describe] at chars
  | operation op n =>
    cases b with
    | operation op' n' =>
      -- neither the token nor the count has a space
      have body : op.token.toList ++ ' ' :: (toString n).toList =
          op'.token.toList ++ ' ' :: (toString n').toList := by
        simpa [describe] using chars
      obtain ⟨tokens, -, counts⟩ :=
        (List.append_cons_inj_of_notMem (space_not_mem_token op) (space_not_mem_count n)).mp body
      have found := Operation.ofToken?_token op
      rw [String.toList_inj.mp tokens, Operation.ofToken?_token] at found
      rw [Option.some.inj found, Nat.repr_inj.mp (String.toList_inj.mp counts)]
    | _ => simp [describe] at chars

end Event

namespace Expr

theorem events_eq (e : Expr) : e.events = e.event :: e.operands.flatMap events := by
  have all : e.operation?.any (fun _ => false) = false := by cases e <;> rfl
  rw [events, walk_eq, all]
  rfl

theorem length_operands_of_event {e f : Expr} (root : e.event = f.event) :
    e.operands.length = f.operands.length := by
  cases e <;> cases f <;> simp_all [event, operands]

theorem eq_of_event {e f : Expr} (root : e.event = f.event) (same : e.operands = f.operands) :
    e = f := by
  cases e <;> cases f <;> simp_all [event, operands]

/-- The events of operands end where those of as many operands end. -/
theorem flatMap_events_cancel {es fs : List Expr}
    (each : ∀ e ∈ es, ∀ f s t, e.events ++ s = f.events ++ t → e = f ∧ s = t)
    (lengths : es.length = fs.length) {s t : List Event}
    (same : es.flatMap events ++ s = fs.flatMap events ++ t) : es = fs ∧ s = t := by
  induction es generalizing fs with
  | nil =>
    cases List.length_eq_zero_iff.mp lengths.symm
    exact ⟨rfl, same⟩
  | cons e es ih =>
    cases fs with
    | nil => cases lengths
    | cons f fs =>
      rw [List.flatMap_cons, List.flatMap_cons, List.append_assoc, List.append_assoc] at same
      obtain ⟨rfl, rest⟩ := each e List.mem_cons_self f _ _ same
      have others :=
        ih (fun g mem => each g (List.mem_cons_of_mem e mem)) (Nat.succ.inj lengths) rest
      exact ⟨congrArg _ others.1, others.2⟩

theorem events_append_cancel {e f : Expr} {s t : List Event}
    (same : e.events ++ s = f.events ++ t) : e = f ∧ s = t := by
  induction e using operand_induction generalizing f s t with
  | step e ih =>
    rw [events_eq, events_eq f, List.cons_append, List.cons_append] at same
    -- the events of the roots have the same number of operands, so the rest splits the same way
    obtain ⟨root, inner⟩ := List.cons.inj same
    have each : ∀ g ∈ e.operands, ∀ h u w, g.events ++ u = h.events ++ w → g = h ∧ u = w :=
      fun g mem h u w => ih g mem
    obtain ⟨operands, rest⟩ := flatMap_events_cancel each (length_operands_of_event root) inner
    exact ⟨eq_of_event root operands, rest⟩

theorem events_injective : Function.Injective events := by
  intro e f same
  exact (events_append_cancel (congrArg (· ++ []) same)).1

theorem eq_of_described {e f : Expr}
    (same : e.events.map Event.describe = f.events.map Event.describe) : e = f :=
  events_injective (List.map_injective_iff.mpr Event.describe_injective same)

theorem events_eq_map_subterms (e : Expr) : e.events = e.subterms.map event := by
  induction e using operand_induction with
  | step e ih =>
    rw [events_eq, subterms_eq, List.map_cons, List.map_flatMap, List.flatMap_congr ih]

end Expr

end Formula
