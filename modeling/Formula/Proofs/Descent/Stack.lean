import Formula.Proofs.Descent.Steps

namespace Formula.Parsing

variable {text : String} {index depth : Nat} {d : Descent}

def Entry.ofValue (text : String) (value : Bare.Value) : Entry :=
  ⟨value.expr, value.text, Context.ofIndex text (Token.scan text) value.index⟩

/-- The stack of the reader the other way round, as the loop has it. -/
def entries (text : String) (stack : List Bare.Value) : List Entry :=
  stack.reverse.map (Entry.ofValue text)

theorem length_entries (stack : List Bare.Value) : (entries text stack).length = stack.length := by
  rw [entries, List.length_map, List.length_reverse]

theorem entries_push (stack : List Bare.Value) (value : Bare.Value) :
    entries text stack ++ [Entry.ofValue text value] = entries text (value :: stack) := by
  rw [entries, entries, List.reverse_cons, List.map_append, List.map_singleton]

theorem splitAt_entries (stack : List Bare.Value) (count : Nat) (le : count ≤ stack.length) :
    (entries text stack).splitAt (stack.length - count) =
      (entries text (stack.drop count), (stack.take count).reverse.map (Entry.ofValue text)) := by
  have rest : stack.length - (stack.length - count) = count := by omega
  rw [List.splitAt_eq, entries, ← List.map_take, ← List.map_drop, List.take_reverse,
    List.drop_reverse, rest, entries]

theorem exec_splitOff {α : Type} {stack : List α} {place : Nat} (le : place ≤ stack.length)
    (d : Descent) : (splitOff stack place).exec d = some (.ok (stack.splitAt place), d) :=
  exec_require (if_pos le) d

theorem exec_minus {a b : Nat} (le : b ≤ a) (d : Descent) :
    (minus a b).exec d = some (.ok (a - b), d) :=
  exec_require (if_pos le) d

def taken (op : Operation) (stack : List Bare.Value) : List Bare.Value :=
  (stack.take (Bare.wanted op stack.length)).reverse

theorem exprs_taken (op : Operation) (stack : List Bare.Value) :
    ((taken op stack).map (Entry.ofValue text)).map Entry.expr = (taken op stack).map (·.expr) := by
  rw [List.map_map]
  rfl

theorem arity_of_short {op : Operation} {count : Nat} (short : count < Bare.wanted op count) :
    op.arity = .exactly (Bare.wanted op count) := by
  unfold Bare.wanted at short ⊢
  cases arity : op.arity with
  | exactly wanted => rfl
  | any =>
    rw [arity] at short
    exact absurd short (Nat.lt_irrefl count)

theorem applied_short {op : Operation} {stack : List Bare.Value}
    (short : stack.length < Bare.wanted op stack.length) :
    Reader.applied op ((taken op stack).map (·.expr)) index =
      .error ⟨.arityMismatch op.token (Bare.wanted op stack.length) stack.length, index⟩ := by
  have arity := arity_of_short short
  have all : ((taken op stack).map (·.expr)).length = stack.length := by
    rw [List.length_map, taken, List.length_reverse, List.take_of_length_le (Nat.le_of_lt short)]
  have none : Expr.build? op ((taken op stack).map (·.expr)) = none := by
    cases built : Expr.build? op ((taken op stack).map (·.expr)) with
    | none => rfl
    | some e =>
      have accepted := accepts_of_build? built
      rw [all, Operation.accepts, arity] at accepted
      exact absurd (eq_of_beq accepted) (Nat.ne_of_gt short)
  rw [Reader.applied, none, all, arity]
  rfl

theorem applied_enough {op : Operation} {stack : List Bare.Value}
    (enough : Bare.wanted op stack.length ≤ stack.length) :
    ∃ e, Expr.build? op ((taken op stack).map (·.expr)) = some e := by
  rw [← Option.isSome_iff_exists, Expr.build?_isSome, List.length_map, taken, List.length_reverse,
    List.length_take_of_le enough, Operation.accepts, Bare.wanted]
  cases op.arity with
  | exactly count => exact beq_self_eq_true count
  | any => rfl

/-- An operation takes its operands off the stack, or is refused where there are too few. The split is
not above the top, and the subtraction before it not below zero. -/
theorem reduce_cases (stands : Stands text index depth d) (op : Operation)
    (stack : List Bare.Value) :
    (∃ next, Bare.reduce op stack index = .ok next ∧
      (reduce op (entries text stack)).exec d = some (.ok (entries text next), d)) ∨
    ∃ fault, Bare.reduce op stack index = .error fault ∧
      (reduce op (entries text stack)).exec d =
        some (.error (.refused (fault.located text)), d) := by
  rcases Nat.lt_or_ge stack.length (Bare.wanted op stack.length) with short | enough
  · right
    refine ⟨⟨.arityMismatch op.token (Bare.wanted op stack.length) stack.length, index⟩, ?_, ?_⟩
    · change (Reader.applied op ((taken op stack).map (·.expr)) index >>= _) = _
      rw [applied_short short]
      rfl
    · simp only [reduce, length_entries, if_pos short]
      exact exec_fail stands _
  · left
    obtain ⟨e, is⟩ := applied_enough enough
    have split : (splitOff (entries text stack) (stack.length - Bare.wanted op stack.length)).exec d =
        some (.ok (entries text (stack.drop (Bare.wanted op stack.length)),
          (taken op stack).map (Entry.ofValue text)), d) := by
      rw [exec_splitOff (by rw [length_entries]; exact Nat.sub_le _ _), splitAt_entries _ _ enough]
      rfl
    have applied : Reader.applied op ((taken op stack).map (·.expr)) index = .ok e :=
      applied_eq_ok_iff.mpr is
    simp only [reduce, length_entries, if_neg (Nat.not_lt.mpr enough)]
    rw [exec_bind_ok (exec_minus enough d), exec_bind_ok split]
    have build : (built op (((taken op stack).map (Entry.ofValue text)).map Entry.expr)).exec d =
        some (.ok e, d) := by
      rw [exprs_taken]
      exact exec_require is d
    simp only [exec_bind_ok build]
    rw [taken] at applied
    -- the new entry begins where the first operand does, or at the operation if there is none
    cases operands : taken op stack with
    | nil =>
      rw [taken] at operands
      rw [operands] at applied
      have reduced : Bare.reduce op stack index =
          .ok (⟨e, op.token, index⟩ :: stack.drop (Bare.wanted op stack.length)) := by
        simp only [Bare.reduce, operands, applied]
        rfl
      refine ⟨_, reduced, ?_⟩
      rw [← entries_push]
      exact exec_bind_ok (exec_context stands)
    | cons first rest =>
      rw [taken] at operands
      rw [operands] at applied
      have reduced : Bare.reduce op stack index =
          .ok ({ first with expr := e } :: stack.drop (Bare.wanted op stack.length)) := by
        simp only [Bare.reduce, operands, applied]
        rfl
      refine ⟨_, reduced, ?_⟩
      rw [← entries_push]
      rfl

theorem stack_cases (stands : Stands text index depth d) (values : List Bare.Value) (t : Token) :
    (∃ next, Bare.step values index t = .ok next ∧
      (stack (entries text values) t).exec d = some (.ok (entries text next), d)) ∨
    ∃ fault, Bare.step values index t = .error fault ∧
      (stack (entries text values) t).exec d =
        some (.error (.refused (fault.located text)), d) := by
  unfold Bare.step stack
  cases t.operation? with
  | some op => exact reduce_cases stands op values
  | none =>
    cases t.leaf? with
    | some e =>
      left
      refine ⟨_, rfl, ?_⟩
      rw [← entries_push]
      exact exec_bind_ok (exec_context stands)
    | none =>
      right
      exact ⟨_, rfl, exec_fail stands _⟩

def stackOn (text : String) (values : List Bare.Value) (index : Nat) : Except Fault Expr :=
  Bare.reader.readOn text values index

/-- The loop has come to the end of the text with the stack of the reader. -/
def Stacked (text : String) (here : Except Fault Expr) (all : List Entry) (d : Descent) : Prop :=
  ∃ values last depth, Stands text last depth d ∧ Noted text 0 d ∧ all = entries text values ∧
    here = Bare.finish values last

def LoopFrom (text : String) (index : Nat) : Prop :=
  ∀ values d, d.scanner.Ahead text index → index ≤ (tokensOf text).length → Noted text 0 d →
    Ends text (stackOn text values index) (Stacked text (stackOn text values index))
      ((Entries.stackAll (entries text values)).exec d)

theorem loopFrom_step (later : ∀ j > index, LoopFrom text j) : LoopFrom text index := by
  intro values d ahead bound noted
  obtain ⟨scanner, advanced, stands⟩ := exec_advance ahead bound
  have kept := noted.scanned scanner
  rw [Entries.stackAll, exec_bind_ok advanced]
  generalize ({ d with scanner } : Descent) = d at stands kept
  cases token : (tokensOf text)[index]? with
  | none => exact .arrived ⟨values, index, _, stands, kept, rfl, Reader.readOn_end token⟩
  | some t =>
    obtain ⟨inner, -⟩ := List.getElem?_eq_some_iff.mp token
    simp only
    rcases stack_cases stands values t with ⟨next, step, ran⟩ | ⟨fault, refused, ran⟩
    · have same : stackOn text values index = stackOn text next (index + 1) :=
        Reader.readOn_step token step
      rw [exec_bind_ok ran, same]
      exact later (index + 1) (Nat.lt_succ_self index) next d stands.on.toAhead inner kept
    · rw [exec_bind_error ran]
      exact .refused (Reader.readOn_stop token refused) (kept.mono (Nat.zero_le _))

theorem loopFrom (text : String) (index : Nat) : LoopFrom text index := by
  refine forall_of_later (tokensOf text).length ?_ ?_ index
  · intro i beyond values d ahead bound
    exact absurd bound (Nat.not_le.mpr beyond)
  · exact fun i later => loopFrom_step later

theorem unbracketed_ends :
    Ends text (stackOn text [] 0)
      (fun e d => stackOn text [] 0 = .ok e ∧ Noted text ((tokensOf text).length + 1) d)
      (unbracketed.exec { scanner := { source := text } }) := by
  rw [unbracketed]
  refine (loopFrom text 0 [] _ (Scanner.ahead_ofText text) (Nat.zero_le _) (noted_nothing text)).bind ?_
  rintro all next ⟨values, last, depth, there, kept, rfl, same⟩
  have bounded : Noted text ((tokensOf text).length + 1) next := kept.mono (Nat.zero_le _)
  rw [same, Bare.finish, entries]
  cases values.reverse with
  | nil => exact .fail there kept (Nat.zero_le _) rfl
  | cons whole more =>
    cases more with
    | nil => exact .arrived ⟨rfl, bounded⟩
    | cons extra more =>
      exact Ends.refused (f := ⟨.extraToken extra.text, extra.index⟩) rfl bounded

end Formula.Parsing
