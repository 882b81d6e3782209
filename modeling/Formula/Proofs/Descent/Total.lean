import Mathlib.Data.List.Perm.Subperm
import Formula.Proofs.Descent.OperatorFirst
import Formula.Proofs.Descent.OperatorLast
import Formula.Proofs.Descent.Stack

/-!
Reading ends on every text, without a failed check. The calls begin at different tokens, so that there
are no more of them than tokens and the end of the text.
-/

namespace Formula

open Parsing

theorem parseChecked_ends (n : Notation) (limit : Option Nat) (text : String) :
    Ends text (readTokens n limit (tokensOf text))
      (fun e d => readTokens n limit (tokensOf text) = .ok e ∧
        Noted text ((tokensOf text).length + 1) d)
      (parseChecked n limit text) := by
  cases n with
  | bare => exact unbracketed_ends
  | operatorFirst =>
    have call : OperatorFirst.CallsFrom text limit 0 :=
      OperatorFirst.callsFrom fun later _ => OperatorFirst.operandsFrom text limit later
    exact bracketed_ends (fun d stands noted => call [] d stands noted (absurd rfl))
      (fun e i none => Reader.readOn_end none) (fun e i t token => Reader.readOn_stop token rfl)
  | operatorLast =>
    have call : OperatorLast.CallsFrom text limit 0 :=
      OperatorLast.callsFrom fun later _ => OperatorLast.operandsFrom text limit later
    exact bracketed_ends (fun d stands noted => call [] d stands noted (absurd rfl))
      (fun e i none => Reader.readOn_end none) (fun e i t token => Reader.readOn_stop token rfl)

theorem startOf_cases (text : String) (index : Nat) :
    startOf text index = text.utf8ByteSize ∨ ∃ t, ⟨t, startOf text index⟩ ∈ Token.scan text := by
  unfold startOf Context.ofIndex
  cases found : (Token.scan text)[index]? with
  | none => exact .inl rfl
  | some l => exact .inr ⟨l.token, List.mem_of_getElem? found⟩

theorem length_le_of_sorted {indices : List Nat} {bound : Nat} (sorted : indices.Pairwise (· > ·))
    (below : ∀ i ∈ indices, i < bound) : indices.length ≤ bound := by
  have distinct : indices.Nodup := sorted.imp Nat.ne_of_gt
  have within : indices ⊆ List.range bound := fun i mem => List.mem_range.mpr (below i mem)
  have length := (distinct.subperm within).length_le
  rwa [List.length_range] at length

theorem Parsing.Noted.calls_sorted {text : String} {d : Descent}
    (noted : Noted text ((tokensOf text).length + 1) d) :
    d.calls.Pairwise (· > ·) ∧
      (∀ start ∈ d.calls, start = text.utf8ByteSize ∨ ∃ t, ⟨t, start⟩ ∈ Token.scan text) ∧
      d.calls.length ≤ (tokensOf text).length + 1 := by
  obtain ⟨⟨indices, calls, sorted, below⟩, -⟩ := noted
  rw [calls]
  refine ⟨?_, ?_, ?_⟩
  · rw [List.pairwise_map]
    refine sorted.imp_of_mem ?_
    intro i j here _ less
    exact startOf_lt less (Nat.le_of_lt_succ (below i here))
  · intro start mem
    obtain ⟨i, -, rfl⟩ := List.mem_map.mp mem
    exact startOf_cases text i
  · rw [List.length_map]
    exact length_le_of_sorted sorted below

/-- On every text, in every notation and under every limit, the reading by calls or with a stack ends
with the formula or the error of `parse`. So no slice was out of range or inside a character, no depth
was counted down below zero and no stack split above its top. Every call began at a later token than
the call before it, or at the end of the text, and every call that gave a formula left the scanner at a
later place than it began. -/
theorem parseChecked_total (n : Notation) (limit : Option Nat) (text : String) :
    ∃ d, parseChecked n limit text = some ((parse n limit text).mapError .refused, d) ∧
      d.calls.Pairwise (· > ·) ∧
      (∀ start ∈ d.calls, start = text.utf8ByteSize ∨ ∃ t, ⟨t, start⟩ ∈ Token.scan text) ∧
      d.calls.length ≤ (tokensOf text).length + 1 ∧
      ∀ move ∈ d.moves, move.1 < move.2 := by
  have ends := parseChecked_ends n limit text
  generalize ran : parseChecked n limit text = outcome at ends
  cases ends with
  | arrived there =>
    obtain ⟨read, noted⟩ := there
    obtain ⟨sorted, placed, few⟩ := noted.calls_sorted
    refine ⟨_, ?_, sorted, placed, few, noted.moves⟩
    rw [parse_eq_ok_iff.mpr read]
    rfl
  | refused stopped noted =>
    obtain ⟨sorted, placed, few⟩ := noted.calls_sorted
    refine ⟨_, ?_, sorted, placed, few, noted.moves⟩
    rw [parse_eq_error_iff.mpr ⟨_, stopped, rfl⟩]
    rfl

end Formula
