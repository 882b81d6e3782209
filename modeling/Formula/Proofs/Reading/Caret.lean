import Formula.Proofs.Reading.Earliest
import Formula.Proofs.Reading.Spacing

/-!
The caret of an error stands under the token at its place. What comes before that token has been
read, so it is made of brackets, operations and terms: all of it is printable, each character takes
one byte and one column, and no line ends in it.
-/

namespace Formula

inductive Token.Known : Token → Prop
  | opening : Known .opening
  | closing : Known .closing
  | operation (op : Operation) : Known (.run op.token)
  | term {text : String} {e : Expr} (term : Term text e) : Known (.run text)

theorem Token.Known.printable {t : Token} (known : t.Known) : Text.Printable t.chars := by
  cases known with
  | opening =>
    rw [chars_opening]
    exact Text.printable_of_all rfl
  | closing =>
    rw [chars_closing]
    exact Text.printable_of_all rfl
  | operation op => exact op.printable
  | term term => exact term.printable

theorem Token.known_of_operation? {t : Token} {op : Operation} (found : t.operation? = some op) :
    t.Known := by
  rw [eq_run_of_operation? found]
  exact .operation op

theorem Token.known_of_leaf? {t : Token} {e : Expr} (found : t.leaf? = some e) : t.Known := by
  cases t with
  | opening => cases found
  | closing => cases found
  | run text => exact .term (leaf?_iff.mp found)

def AllKnown (ts : List Token) : Prop :=
  ∀ t ∈ ts, t.Known

theorem allKnown_nil : AllKnown [] := by
  intro t mem
  cases mem

theorem AllKnown.snoc {ts : List Token} {t : Token} (all : AllKnown ts) (known : t.Known) :
    AllKnown (ts ++ [t]) := by
  intro u mem
  rcases List.mem_append.mp mem with before | last
  · exact all u before
  · rw [List.mem_singleton.mp last]
    exact known

/-- If every step to a good state takes a known token in a good state, the tokens that are read up to
a good state are known. -/
theorem Reader.Reaches.allKnown {σ : Type} {r : Reader σ} {good : σ → Prop}
    (known : ∀ {s next index t}, r.step s index t = .ok next → good next → good s ∧ t.Known)
    {ts : List Token} {s : σ} (reached : r.Reaches ts s) (here : good s) : AllKnown ts := by
  induction reached with
  | start => exact allKnown_nil
  | step reached ok all =>
    obtain ⟨before, last⟩ := known ok here
    exact (all before).snoc last

namespace OperatorFirst

theorem known_of_step {limit : Option Nat} {s next : State} {index : Nat} {t : Token}
    (ok : step limit s index t = .ok next) : t.Known := by
  cases s with
  | operand pending =>
    cases t with
    | opening => exact .opening
    | closing => exact .closing
    | run text =>
      simp only [step] at ok
      split at ok <;> cases ok
      next e leaf => exact .term (leaf?_iff.mp leaf)
  | operation pending =>
    simp only [step] at ok
    split at ok <;> cases ok
    next op found => exact Token.known_of_operation? found
  | nothing whole => cases ok

theorem allKnown_of_reaches {limit : Option Nat} {ts : List Token} {s : State}
    (reached : (reader limit).Reaches ts s) : AllKnown ts :=
  reached.allKnown (fun ok _ => ⟨trivial, known_of_step ok⟩) trivial

end OperatorFirst

namespace OperatorLast

theorem known_of_step {limit : Option Nat} {s next : State} {index : Nat} {t : Token}
    (ok : step limit s index t = .ok next) (settled : next.Settled) : s.Settled ∧ t.Known := by
  cases s with
  | operand pending =>
    refine ⟨trivial, ?_⟩
    cases t with
    | opening => exact .opening
    | closing => exact .closing
    | run text =>
      cases pending with
      | nil =>
        simp only [step, stepOutside] at ok
        split at ok <;> cases ok
        next e leaf => exact .term (leaf?_iff.mp leaf)
      | cons operands pending =>
        simp only [step, stepInside] at ok
        split at ok
        · next op found =>
          rw [← Operation.token_of_ofToken? found]
          exact .operation op
        · split at ok <;> cases ok
          · next e leaf => exact .term (leaf?_iff.mp leaf)
          · exact settled.elim
  | doubt text place =>
    simp only [step] at ok
    split at ok <;> cases ok
  | closing pending inner =>
    simp only [step] at ok
    split at ok <;> cases ok
    next close =>
    rw [close]
    exact ⟨trivial, .closing⟩
  | nothing whole => cases ok

theorem allKnown_of_reaches {limit : Option Nat} {ts : List Token} {s : State}
    (reached : (reader limit).Reaches ts s) (settled : s.Settled) : AllKnown ts :=
  reached.allKnown known_of_step settled

end OperatorLast

namespace Bare

theorem known_of_step {stack next : List Value} {index : Nat} {t : Token}
    (ok : step stack index t = .ok next) : t.Known := by
  unfold step at ok
  split at ok
  · next op found => exact Token.known_of_operation? found
  · split at ok <;> cases ok
    next e leaf => exact Token.known_of_leaf? leaf

theorem allKnown_of_reaches {ts : List Token} {stack : List Value}
    (reached : reader.Reaches ts stack) : AllKnown ts :=
  reached.allKnown (fun ok _ => ⟨trivial, known_of_step ok⟩) trivial

theorem index_le_of_refuses {taken : List Token} {stack : List Value} {t : Option Token}
    {fault : Fault} (reached : reader.Reaches taken stack)
    (refuses : Refuses stack taken.length t fault) : fault.index ≤ taken.length := by
  cases refuses with
  | @extra above extra bottom =>
    have found := placed_of_reaches reached extra (by simp)
    obtain ⟨inside, -⟩ := List.getElem?_eq_some_iff.mp found
    exact Nat.le_of_lt inside
  | _ => exact Nat.le_refl _

theorem allKnown_of_read_error {ts : List Token} {fault : Fault}
    (failed : reader.read ts = .error fault) : AllKnown (ts.take fault.index) := by
  obtain ⟨taken, rest, stack, rfl, reached, refuses⟩ := refused_of_read_error failed
  rw [List.take_append_of_le_length (index_le_of_refuses reached refuses)]
  intro t mem
  exact allKnown_of_reaches reached t (List.mem_of_mem_take mem)

end Bare

theorem allKnown_of_readTokens_error {n : Notation} {limit : Option Nat} {ts : List Token}
    {fault : Fault} (failed : readTokens n limit ts = .error fault) :
    AllKnown (ts.take fault.index) := by
  cases n with
  | bare => exact Bare.allKnown_of_read_error failed
  | operatorFirst =>
    obtain ⟨s, blames⟩ := OperatorFirst.blames_of_read_error failed
    exact OperatorFirst.allKnown_of_reaches blames.reached
  | operatorLast =>
    obtain ⟨s, settled, blames⟩ := OperatorLast.blames_of_read_error failed
    exact OperatorLast.allKnown_of_reaches blames.reached settled

theorem mem_chars_of_mem {text : String} {c : Char} (mem : c ∈ text.toList) (space : c ≠ ' ') :
    ∃ t ∈ tokensOf text, c ∈ t.chars := by
  have solid : c ∈ text.toList.filter (· ≠ ' ') :=
    List.mem_filter.mpr ⟨mem, decide_eq_true space⟩
  have whole : (tokensOf text).flatMap Token.chars = text.toList.filter (· ≠ ' ') :=
    Token.flatMap_chars_found false text.toList
  rw [← whole] at solid
  exact List.mem_flatMap.mp solid

theorem printable_of_allKnown {text : String} (all : AllKnown (tokensOf text)) :
    Text.Printable text.toList := by
  intro c mem
  by_cases space : c = ' '
  · rw [space]
    rfl
  · obtain ⟨t, token, inner⟩ := mem_chars_of_mem mem space
    exact (all t token).printable c inner

theorem Text.Printable.byteSize {text : List Char} (printable : Printable text) :
    byteSize text = text.length := by
  induction text with
  | nil => rfl
  | cons c rest ih =>
    have first := printable c List.mem_cons_self
    rw [isPrintable, Bool.and_eq_true, decide_eq_true_eq, decide_eq_true_eq] at first
    have single : c.val.toNat ≤ 127 := Nat.le_of_lt first.2
    have one : c.utf8Size = 1 := Char.utf8Size_eq_one_iff.mpr (UInt32.le_iff_toNat_le.mpr single)
    rw [byteSize_cons, one, ih fun d mem => printable d (List.mem_cons_of_mem c mem),
      List.length_cons, Nat.add_comm]

theorem Text.Printable.utf8ByteSize {text : String} (printable : Printable text.toList) :
    text.utf8ByteSize = text.length := by
  rw [← byteSize_toList, printable.byteSize, String.length_toList]

/-- An error is at a token of the text or at its end. The text before that is printable, so it has
as many characters as bytes. The pointer is two lines: that text, and a caret behind as many
spaces. -/
theorem parse_error_caret {n : Notation} {limit : Option Nat} {text : String} {err : ParseError}
    (failed : parse n limit text = .error err) :
    (∃ pointed, err.context.PointsAt text pointed) ∧
      Text.Printable err.context.before.toList ∧
      err.context.before.length = err.context.span.start ∧
      err.pointer.toList.splitOn '\n' =
        [err.context.before.toList, List.replicate err.context.span.start ' ' ++ ['^']] := by
  obtain ⟨fault, stopped, rfl⟩ := parse_eq_error_iff.mp failed
  obtain ⟨bound, -⟩ := fits_of_readTokens_error stopped
  obtain ⟨points, earlier⟩ := pointsAt_ofIndex bound
  have known := allKnown_of_readTokens_error stopped
  rw [← earlier] at known
  have printable := printable_of_allKnown known
  have column := points.start.trans printable.utf8ByteSize
  generalize Context.ofIndex text (Token.scan text) fault.index = place at points printable column ⊢
  have caret : '\n' ∉ List.replicate place.span.start ' ' ++ ['^'] := by
    simp [List.mem_replicate]
  have lines : (ParseError.pointer ⟨fault.cause, place⟩).toList =
      place.before.toList ++ '\n' :: (List.replicate place.span.start ' ' ++ ['^']) := by
    simp [ParseError.pointer, column]
  refine ⟨⟨_, points⟩, printable, column.symm, ?_⟩
  rw [lines, List.splitOn_append_cons_self, List.splitOn_eq_singleton printable.no_break,
    List.splitOn_eq_singleton caret]
  rfl

theorem parse_error_caret_wide :
    parse .operatorFirst none "(+ x (é\nω y))" =
      .error ⟨.unknownOperator "é\nω", ⟨"(+ x (", ⟨6, 11⟩⟩⟩ ∧
    (∃ pointed, Context.PointsAt ⟨"(+ x (", ⟨6, 11⟩⟩ "(+ x (é\nω y))" pointed) ∧
    Text.Printable "(+ x (".toList ∧ "(+ x (".length = 6 ∧
    (ParseError.pointer ⟨.unknownOperator "é\nω", ⟨"(+ x (", ⟨6, 11⟩⟩⟩).toList.splitOn '\n' =
      ["(+ x (".toList, List.replicate 6 ' ' ++ ['^']] := by
  have failed : parse .operatorFirst none "(+ x (é\nω y))" =
      .error ⟨.unknownOperator "é\nω", ⟨"(+ x (", ⟨6, 11⟩⟩⟩ := rfl
  exact ⟨failed, parse_error_caret failed⟩

end Formula
