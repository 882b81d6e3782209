import Formula.Proofs.Reading.Bare
import Formula.Proofs.Reading.Bracketed
import Formula.Proofs.Reading.Fault

/-!
What a formula loses with its brackets. Its runs without the brackets are read as the formula itself
if the operations over any number of operands are in leading position. If not, such an operation
takes operands that wait for others: then an operation finds too few, or the runs are those of
another formula.
-/

namespace Formula

namespace Token

def isRun : Token → Bool
  | .run _ => true
  | _ => false

def blank (c : Char) : Char :=
  if c = '(' ∨ c = ')' then ' ' else c

theorem blank_solid {c : Char} (solid : isDelimiter c = false) : blank c = c := by
  obtain ⟨-, opening, closing⟩ := solid_ne solid
  simp only [blank, opening, closing, or_self, if_false]

theorem isDelimiter_blank {c : Char} (delimiter : isDelimiter c = true) :
    isDelimiter (blank c) = true := by
  rcases delimiter_cases delimiter with rfl | rfl | rfl <;> rfl

theorem takeWhile_blank (text : List Char) :
    (text.map blank).takeWhile (!isDelimiter ·) = text.takeWhile (!isDelimiter ·) := by
  induction text with
  | nil => rfl
  | cons c rest ih =>
    rw [List.map_cons, List.takeWhile_cons, List.takeWhile_cons]
    cases delimiter : isDelimiter c with
    | true => rw [isDelimiter_blank delimiter]; rfl
    | false => rw [blank_solid delimiter, delimiter, ih]

theorem found_blank (inside : Bool) (text : List Char) :
    found inside (text.map blank) = (found inside text).filter isRun := by
  induction text generalizing inside with
  | nil => rfl
  | cons c rest ih =>
    rw [List.map_cons]
    cases delimiter : isDelimiter c with
    | true =>
      rcases delimiter_cases delimiter with rfl | rfl | rfl
      · rw [found_space]
        exact (found_space inside _).trans (ih false)
      · rw [found_opening]
        exact (found_space inside _).trans (ih false)
      · rw [found_closing]
        exact (found_space inside _).trans (ih false)
    | false =>
      rw [blank_solid delimiter]
      cases inside with
      | true => rw [found_inside delimiter, found_inside delimiter, ih]
      | false =>
        rw [found_outside delimiter, found_outside delimiter, takeWhile_blank, ih]
        rfl

end Token

/-- The text with a space for every bracket. -/
def unbracketed (text : String) : String :=
  .ofList (text.toList.map Token.blank)

theorem tokensOf_unbracketed (text : String) :
    tokensOf (unbracketed text) = (tokensOf text).filter Token.isRun := by
  rw [tokensOf, Token.scan, unbracketed, String.toList_ofList]
  exact Token.found_blank false text.toList

theorem forall₂_map_of_mem {R S : List Token → Expr → Prop} {change : List Token → List Token}
    {parts : List (List Token)} {es : List Expr} (related : List.Forall₂ R parts es)
    (one : ∀ e ∈ es, ∀ ts, R ts e → S (change ts) e) : List.Forall₂ S (parts.map change) es := by
  induction related with
  | nil => exact .nil
  | @cons ts e parts es first rest ih =>
    have head := one e List.mem_cons_self ts first
    exact .cons head (ih fun f mem => one f (List.mem_cons_of_mem e mem))

theorem postorder_of_derives {ts : List Token} {e : Expr} (derived : Derives .last ts e) :
    Postorder (ts.filter Token.isRun) e := by
  induction e using Expr.operand_induction generalizing ts with
  | step e ih =>
    rcases derived.cases_bracket with ⟨text, term, rfl⟩ | ⟨op, parts, built, operands, rfl⟩
    · exact .leaf term
    · have runs : List.Forall₂ Postorder (parts.map (List.filter Token.isRun)) e.operands :=
        forall₂_map_of_mem operands fun f mem us one => ih f mem one
      have node := Postorder.node (Expr.operation?_build? built).1 runs
      rw [← List.filter_flatten] at node
      have body : (Place.last.bracket (.run op.token) parts.flatten).filter Token.isRun =
          parts.flatten.filter Token.isRun ++ [.run op.token] := List.filter_append ..
      rw [body]
      exact node

theorem postorder_tokens (e : Expr) : Postorder (e.tokens .bare) e := by
  induction e using Expr.node_induction with
  | leaf e none =>
    obtain ⟨text, term, tokens⟩ := tokens_leaf (n := .bare) none
    rw [tokens]
    exact .leaf term
  | node e op operation ih =>
    have all : List.Forall₂ Postorder (e.operands.map (Expr.tokens .bare)) e.operands :=
      List.forall₂_map_left_iff.mpr (List.forall₂_same.mpr ih)
    rw [tokens_node operation]
    exact .node operation all

theorem words_postorder {ts : List Token} {e : Expr} (derived : Postorder ts e) :
    Token.Words ts := by
  induction e using Expr.operand_induction generalizing ts with
  | step e ih =>
    intro text mem
    cases derived with
    | leaf term =>
      cases List.mem_singleton.mp mem
      exact term.word
    | node operation derived =>
      rcases List.mem_append.mp mem with inner | last
      · obtain ⟨us, part, inner⟩ := List.mem_flatten.mp inner
        exact forall_parts derived (fun f operand us one => ih f operand one) us part text inner
      · cases List.mem_singleton.mp last
        exact Operation.word _

theorem tokensOf_render (e : Expr) : tokensOf (e.render .bare) = e.tokens .bare :=
  Token.scan_spell (words_postorder (postorder_tokens e))

def Token.rewritten (t : Token) : List Token :=
  match t.leaf? with
  | some e => e.tokens .bare
  | none => [t]

/-- The runs of a formula determine how it is written. -/
theorem tokens_of_postorder {ts : List Token} {e : Expr} (derived : Postorder ts e) :
    e.tokens .bare = ts.flatMap Token.rewritten := by
  induction e using Expr.operand_induction generalizing ts with
  | step e ih =>
    cases derived with
    | leaf term => simp [Token.rewritten, Token.leaf?, leaf?_iff.mpr term]
    | @node op parts _ operation derived =>
      have each : List.Forall₂ (fun us f => us = Expr.tokens .bare f)
          (parts.map (List.flatMap Token.rewritten)) e.operands :=
        forall₂_map_of_mem derived fun f mem us one => (ih f mem one).symm
      rw [← List.forall₂_map_right_iff, List.forall₂_eq_eq_eq] at each
      have flat : (parts.map (List.flatMap Token.rewritten)).flatten =
          parts.flatten.flatMap Token.rewritten := by
        rw [List.flatMap_def, List.map_flatten, List.flatten_flatten, List.map_map]
        rfl
      rw [tokens_node operation, ← each, List.flatMap_append, List.flatMap_singleton,
        Token.rewritten, Token.leaf?, leaf?_token]
      exact congrArg (· ++ [.run op.token]) flat

namespace Bare

/-- The reading ends with an operation that finds another number of operands than it takes. -/
def FindsTooFew (outcome : Except Fault Expr) : Prop :=
  ∃ token expected found index, outcome = .error ⟨.arityMismatch token expected found, index⟩

/-- After the tokens there are at most so many formulas more on the stack, unless an operation finds
too few. The stack does not get empty. -/
def Adds (ts : List Token) (most : Nat) : Prop :=
  ∀ stack index rest,
    (∃ next, next.length ≤ stack.length + most ∧ (0 < stack.length + most → 0 < next.length) ∧
      reader.readFrom stack index (ts ++ rest) =
        reader.readFrom next (index + ts.length) rest) ∨
    FindsTooFew (reader.readFrom stack index (ts ++ rest))

theorem Adds.nil : Adds [] 0 := by
  intro stack index rest
  exact .inl ⟨stack, Nat.le_refl _, id, rfl⟩

theorem Adds.append {ts us : List Token} {a b : Nat} (first : Adds ts a) (second : Adds us b) :
    Adds (ts ++ us) (a + b) := by
  intro stack index rest
  rw [List.append_assoc]
  rcases first stack index (us ++ rest) with ⟨mid, most, some, reads⟩ | few
  · rw [reads]
    rcases second mid (index + ts.length) rest with ⟨next, most', some', more⟩ | few
    · left
      refine ⟨next, by omega, by omega, ?_⟩
      rw [more, List.length_append, Nat.add_assoc]
    · exact .inr few
  · exact .inr few

theorem adds_leaf {text : String} {e : Expr} (term : Term text e) : Adds [.run text] 1 := by
  intro stack index rest
  have ok : step stack index (.run text) = .ok (⟨e, text, index⟩ :: stack) := by
    simp only [step, Token.operation?, term.ofToken?, Token.leaf?, leaf?_iff.mpr term]
    rfl
  left
  refine ⟨_, ?_, ?_, Reader.readFrom_cons ok rest⟩
  · rw [List.length_cons]
  · exact fun _ => Nat.succ_pos _

theorem reduce_cases (op : Operation) (stack : List Value) (index : Nat) :
    (∃ next, reduce op stack index = .ok next ∧
      next.length = stack.length - wanted op stack.length + 1) ∨
    ∃ found, reduce op stack index =
      .error ⟨.arityMismatch op.token op.arity.least found, index⟩ := by
  cases applied : Reader.applied op
      ((stack.take (wanted op stack.length)).reverse.map (·.expr)) index with
  | ok e =>
    left
    simp only [reduce, applied]
    refine ⟨_, rfl, ?_⟩
    rw [List.length_cons, List.length_drop]
  | error fault =>
    right
    simp only [reduce, applied]
    cases (applied_error applied).2
    exact ⟨_, rfl⟩

theorem adds_operation {op : Operation} {count : Nat} (accepted : op.accepts count = true)
    {ts : List Token} (operands : Adds ts count) : Adds (ts ++ [.run op.token]) 1 := by
  intro stack index rest
  rw [List.append_assoc]
  rcases operands stack index ([.run op.token] ++ rest) with ⟨mid, most, -, reads⟩ | few
  · rw [reads]
    have taken : step mid (index + ts.length) (.run op.token) =
        reduce op mid (index + ts.length) := by
      simp only [step, Token.operation?, Operation.ofToken?_token]
    rcases reduce_cases op mid (index + ts.length) with ⟨next, ok, length⟩ | ⟨found, failed⟩
    · left
      refine ⟨next, ?_, ?_, ?_⟩
      -- the operands left at most `count` formulas, and the operation takes as many, or all
      · unfold Operation.accepts at accepted
        unfold wanted at length
        cases arity : op.arity with
        | exactly wants =>
          rw [arity] at accepted length
          have same : wants = count := eq_of_beq accepted
          simp only at length
          omega
        | any =>
          rw [arity] at length
          simp only at length
          omega
      · omega
      · rw [List.length_append, ← Nat.add_assoc]
        exact Reader.readFrom_cons (taken.trans ok) rest
    · right
      exact ⟨_, _, _, _, Reader.readFrom_stopped (taken.trans failed) rest⟩
  · exact .inr few

theorem adds_operands {parts : List (List Token)} {es : List Expr}
    (derived : List.Forall₂ Postorder parts es)
    (one : ∀ e ∈ es, ∀ ts, Postorder ts e → Adds ts 1) : Adds parts.flatten es.length := by
  induction derived with
  | nil => exact .nil
  | @cons ts e parts es first rest ih =>
    have head := one e List.mem_cons_self ts first
    have tail := ih fun f mem => one f (List.mem_cons_of_mem e mem)
    rw [List.length_cons, Nat.add_comm]
    exact head.append tail

theorem adds_postorder {ts : List Token} {e : Expr} (derived : Postorder ts e) : Adds ts 1 := by
  induction e using Expr.operand_induction generalizing ts with
  | step e ih =>
    cases derived with
    | leaf term => exact adds_leaf term
    | node operation derived =>
      have accepted := accepts_of_build? (Expr.build?_operands operation)
      exact adds_operation accepted (adds_operands derived fun f mem us one => ih f mem one)

theorem read_postorder {ts : List Token} {e : Expr} (derived : Postorder ts e) :
    (∃ f, reader.read ts = .ok f) ∨ FindsTooFew (reader.read ts) := by
  rcases adds_postorder derived [] 0 [] with ⟨next, most, some, reads⟩ | few
  · left
    -- at most one formula is left, and the stack is not empty
    obtain ⟨whole, rfl⟩ : ∃ whole, next = [whole] := by
      rw [← List.length_eq_one_iff]
      have := some (Nat.succ_pos _)
      simp only [List.length_nil] at most
      omega
    rw [List.append_nil] at reads
    exact ⟨whole.expr, reads⟩
  · right
    rw [List.append_nil] at few
    exact few

end Bare

theorem parse_bare_postorder (limit : Option Nat) {text : String} {e : Expr}
    (derived : Postorder (tokensOf text) e) :
    (e.Leading → parse .bare limit text = .ok e) ∧
    (¬ e.Leading →
      (∃ f, parse .bare limit text = .ok f ∧ f ≠ e ∧ f.render .bare = e.render .bare) ∨
      ∃ token expected found place,
        parse .bare limit text = .error ⟨.arityMismatch token expected found, place⟩) := by
  constructor
  · intro leading
    exact parse_eq_ok_iff.mpr (Bare.read_iff.mpr ⟨derived, leading⟩)
  · intro misplaced
    rcases Bare.read_postorder derived with ⟨f, ok⟩ | ⟨token, expected, found, index, failed⟩
    · left
      obtain ⟨other, leading⟩ := Bare.read_iff.mp ok
      refine ⟨f, parse_eq_ok_iff.mpr ok, ?_, ?_⟩
      · rintro rfl
        exact misplaced leading
      · rw [Expr.render, Expr.render, tokens_of_postorder other, tokens_of_postorder derived]
    · right
      exact ⟨token, expected, found, _, parse_eq_error_iff.mpr ⟨_, failed, rfl⟩⟩

theorem parse_leading {n : Notation} {e : Expr} (leading : n = .bare → e.Leading) :
    parse n none (e.render n) = .ok e := by
  have bracketed (p : Place) : parse p.notation none (e.render p.notation) = .ok e :=
    parse_eq_ok_iff.mpr (readTokens_render p e)
  cases n with
  | bare =>
    have postorder : Postorder (tokensOf (e.render .bare)) e := by
      rw [tokensOf_render]
      exact postorder_tokens e
    exact (parse_bare_postorder none postorder).1 (leading rfl)
  | operatorFirst => exact bracketed .first
  | operatorLast => exact bracketed .last

/-- A formula is read from its runs, written out or left over from brackets, exactly if those of its
operations that take any number of operands are reached through first operands only. Otherwise the
runs are those of another formula, or an operation finds too few operands. -/
theorem parse_bare_cases {e : Expr} {text : String}
    (runs : text = e.render .bare ∨
      ∃ limit source, parse .operatorLast limit source = .ok e ∧ text = unbracketed source)
    (limit : Option Nat) :
    (e.Leading → parse .bare limit text = .ok e) ∧
    (¬ e.Leading →
      (∃ f, parse .bare limit text = .ok f ∧ f ≠ e ∧ f.render .bare = e.render .bare) ∨
      ∃ token expected found place,
        parse .bare limit text = .error ⟨.arityMismatch token expected found, place⟩) := by
  apply parse_bare_postorder
  rcases runs with rfl | ⟨most, source, ok, rfl⟩
  · rw [tokensOf_render]
    exact postorder_tokens e
  · rw [tokensOf_unbracketed]
    exact postorder_of_derives (OperatorLast.derives_of_read (parse_eq_ok_iff.mp ok))

/-- The inner mean takes the operand that waits for the outer one. -/
theorem parse_bare_cases_swallowed :
    parse .operatorLast none "(x (y mean) mean)" = .ok (.mean [.var .x, .mean [.var .y]]) ∧
    ¬ (Expr.mean [.var .x, .mean [.var .y]]).Leading ∧
    ((∃ f, parse .bare none " x  y mean  mean " = .ok f ∧ f ≠ .mean [.var .x, .mean [.var .y]] ∧
        f.render .bare = (Expr.mean [.var .x, .mean [.var .y]]).render .bare) ∨
      ∃ token expected found place, parse .bare none " x  y mean  mean " =
        .error ⟨.arityMismatch token expected found, place⟩) := by
  have ok : parse .operatorLast none "(x (y mean) mean)" =
    .ok (.mean [.var .x, .mean [.var .y]]) := rfl
  have misplaced : ¬ (Expr.mean [.var .x, .mean [.var .y]]).Leading := by
    intro leading
    cases leading [1] (.mean [.var .y]) rfl rfl 1 List.mem_cons_self
  have blanked : " x  y mean  mean " = unbracketed "(x (y mean) mean)" := rfl
  obtain ⟨-, cases⟩ := parse_bare_cases (.inr ⟨none, _, ok, blanked⟩) none
  exact ⟨ok, misplaced, cases misplaced⟩

end Formula
