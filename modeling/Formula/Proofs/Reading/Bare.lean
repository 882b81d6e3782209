import Mathlib.Data.List.Forall2
import Formula.Proofs.Expr.Variadic
import Formula.Proofs.Reading.Run

/-!
The notation without brackets. Its reader accepts the formulas operands first, if the operations
over any number of operands are in leading position: such an operation takes the whole stack.
-/

namespace Formula

/-- The runs of a formula, operands before their operation. -/
inductive Postorder : List Token → Expr → Prop
  | leaf {text : String} {e : Expr} (term : Term text e) : Postorder [.run text] e
  | node {op : Operation} {parts : List (List Token)} {e : Expr}
      (operation : e.operation? = some op) (derived : List.Forall₂ Postorder parts e.operands) :
      Postorder (parts.flatten ++ [.run op.token]) e

namespace Bare

def exprs (stack : List Value) : List Expr :=
  stack.reverse.map (·.expr)

theorem exprs_cons (value : Value) (stack : List Value) :
    exprs (value :: stack) = exprs stack ++ [value.expr] := by
  rw [exprs, List.reverse_cons, List.map_append]
  rfl

theorem exprs_split (stack : List Value) (count : Nat) :
    exprs stack = exprs (stack.drop count) ++ (stack.take count).reverse.map (·.expr) := by
  rw [exprs, exprs, ← List.map_append, ← List.reverse_append, List.take_append_drop]

theorem length_exprs (stack : List Value) : (exprs stack).length = stack.length := by
  rw [exprs, List.length_map, List.length_reverse]

theorem reduce_ok {op : Operation} {stack next : List Value} {index : Nat}
    (ok : reduce op stack index = .ok next) :
    ∃ below es e, exprs stack = below ++ es ∧ Expr.build? op es = some e ∧
      exprs next = below ++ [e] ∧ (op.arity = .any → below = []) := by
  obtain ⟨e, applied, ok⟩ := ok_bind ok
  cases ok
  refine ⟨_, _, e, exprs_split stack (wanted op stack.length), applied_eq_ok_iff.mp applied, ?_, ?_⟩
  · rw [exprs_cons]
    split <;> rfl
  · intro any
    have whole : wanted op stack.length = stack.length := by rw [wanted, any]
    rw [whole, List.drop_length]
    rfl

theorem reduce_operands {op : Operation} {stack : List Value} {below es : List Expr} {e : Expr}
    (split : exprs stack = below ++ es) (built : Expr.build? op es = some e)
    (whole : op.arity = .any → below = []) (index : Nat) :
    ∃ next, reduce op stack index = .ok next ∧ exprs next = below ++ [e] := by
  have lengths := congrArg List.length split
  rw [length_exprs, List.length_append] at lengths
  have accepted := accepts_of_build? built
  have count : wanted op stack.length = es.length := by
    rw [Operation.accepts] at accepted
    rw [wanted]
    cases arity : op.arity with
    | exactly count =>
      rw [arity] at accepted
      exact eq_of_beq accepted
    | any =>
      rw [whole arity, List.length_nil, Nat.zero_add] at lengths
      exact lengths
  have parts := exprs_split stack es.length
  rw [split] at parts
  have taken : (stack.take es.length).length = es.length := List.length_take_of_le (by omega)
  obtain ⟨rest, top⟩ := List.append_inj' parts (by rw [List.length_map, List.length_reverse, taken])
  have applied : Reader.applied op ((stack.take es.length).reverse.map (·.expr)) index = .ok e := by
    rw [← top]
    exact applied_eq_ok_iff.mpr built
  simp only [reduce, count, applied]
  refine ⟨_, rfl, ?_⟩
  rw [exprs_cons, rest]
  split <;> rfl

def Taken (stack : List Value) (taken : List Token) : Prop :=
  Expr.Settled (exprs stack) ∧
    ∃ parts, List.Forall₂ Postorder parts (exprs stack) ∧ parts.flatten = taken

theorem settled_snoc {below : List Expr} {e : Expr} (settled : Expr.Settled below)
    (leading : e.Leading) (later : below = [] ∨ e.hasVariadic = false) :
    Expr.Settled (below ++ [e]) := by
  cases below with
  | nil => exact ⟨leading, by simp⟩
  | cons first rest =>
    have none : e.hasVariadic = false := later.resolve_left (by simp)
    refine ⟨settled.1, ?_⟩
    intro f mem
    rcases List.mem_append.mp mem with inner | last
    · exact settled.2 f inner
    · rw [List.mem_singleton.mp last]
      exact none

theorem settled_left {below es : List Expr} (settled : Expr.Settled (below ++ es)) :
    Expr.Settled below := by
  cases below with
  | nil => trivial
  | cons first rest =>
    refine ⟨settled.1, ?_⟩
    intro f mem
    exact settled.2 f (List.mem_append_left es mem)

theorem not_hasVariadic_of_settled {below es : List Expr} (settled : Expr.Settled (below ++ es))
    (some : below ≠ []) : ∀ f ∈ es, f.hasVariadic = false := by
  cases below with
  | nil => exact absurd rfl some
  | cons first rest =>
    intro f mem
    exact settled.2 f (List.mem_append_right rest mem)

theorem taken_leaf {stack : List Value} {taken : List Token} {value : Value} {text : String}
    (inv : Taken stack taken) (term : Term text value.expr) :
    Taken (value :: stack) (taken ++ [.run text]) := by
  obtain ⟨settled, parts, derived, rfl⟩ := inv
  have none := Expr.hasVariadic_leaf term.operation?
  have leading := Expr.leading_of_not_hasVariadic none
  rw [Taken, exprs_cons]
  refine ⟨settled_snoc settled leading (.inr none), parts ++ [[.run text]], ?_, ?_⟩
  · exact List.rel_append derived (.cons (.leaf term) .nil)
  · rw [List.flatten_append, List.flatten_singleton]

/-- A node is in leading position at the bottom, and above it only if it takes a fixed number of
operands and all of these do so. -/
theorem taken_node {stack next : List Value} {taken : List Token} {op : Operation} {index : Nat}
    (inv : Taken stack taken) (ok : reduce op stack index = .ok next) :
    Taken next (taken ++ [.run op.token]) := by
  obtain ⟨settled, parts, derived, rfl⟩ := inv
  obtain ⟨below, es, e, split, built, result, whole⟩ := reduce_ok ok
  obtain ⟨operation, rfl⟩ := Expr.operation?_build? built
  rw [split] at settled derived
  rw [Taken, result]
  constructor
  · -- Only at the bottom can the operation be one that takes the whole stack.
    by_cases bottom : below = []
    · subst bottom
      exact settled_snoc trivial (Expr.leading_iff.mpr settled) (.inl rfl)
    · have fixed : op.arity ≠ .any := fun any => bottom (whole any)
      have others := not_hasVariadic_of_settled settled bottom
      have none : e.hasVariadic = false := by
        rw [Expr.hasVariadic_node operation, Bool.or_eq_false_iff, List.any_eq_false]
        refine ⟨beq_false_of_ne fixed, ?_⟩
        intro f mem
        rw [others f mem]
        exact Bool.false_ne_true
      exact settled_snoc (settled_left settled) (Expr.leading_of_not_hasVariadic none) (.inr none)
  · have front := List.forall₂_take_append parts below e.operands derived
    have back := List.forall₂_drop_append parts below e.operands derived
    have node := Postorder.node operation back
    refine ⟨parts.take below.length ++ [(parts.drop below.length).flatten ++ [.run op.token]],
      List.rel_append front (.cons node .nil), ?_⟩
    rw [List.flatten_append, List.flatten_singleton, ← List.append_assoc, ← List.flatten_append,
      List.take_append_drop]

theorem taken_step (stack : List Value) (taken : List Token) (index : Nat) (t : Token)
    (next : List Value) (inv : Taken stack taken) (ok : step stack index t = .ok next) :
    Taken next (taken ++ [t]) := by
  simp only [step] at ok
  split at ok
  · next op found =>
    cases t with
    | opening => cases found
    | closing => cases found
    | run text =>
      rw [← Operation.token_of_ofToken? found]
      exact taken_node inv ok
  · split at ok
    · next e leaf =>
      cases ok
      cases t with
      | opening => cases leaf
      | closing => cases leaf
      | run text => exact taken_leaf inv (leaf?_iff.mp leaf)
    · cases ok

theorem postorder_of_read {ts : List Token} {e : Expr} (ok : reader.read ts = .ok e) :
    Postorder ts e ∧ e.Leading := by
  have start : Taken [] [] := ⟨trivial, [], .nil, rfl⟩
  obtain ⟨last, ⟨settled, parts, derived, tokens⟩, finished⟩ :=
    Reader.readFrom_ok taken_step start ok
  rw [List.nil_append] at tokens
  change finish last _ = .ok e at finished
  rw [finish] at finished
  split at finished
  · cases finished
  · next whole alone =>
    cases finished
    have one : exprs last = [whole.expr] := by rw [exprs, alone]; rfl
    rw [one] at settled derived
    obtain ⟨us, rfl, postorder⟩ : ∃ us, parts = [us] ∧ Postorder us whole.expr := by
      cases derived with
      | cons first rest =>
        cases rest
        exact ⟨_, rfl, first⟩
    rw [List.flatten_singleton] at tokens
    subst tokens
    exact ⟨postorder, settled.1⟩
  · cases finished

/-- The tokens turn the formulas on the stack into others, wherever they stand. -/
def Turns (before : List Expr) (ts : List Token) (after : List Expr) : Prop :=
  ∀ stack, exprs stack = before → ∀ index rest, ∃ next, exprs next = after ∧
    reader.readFrom stack index (ts ++ rest) = reader.readFrom next (index + ts.length) rest

theorem Turns.nil (before : List Expr) : Turns before [] before := by
  intro stack shape index rest
  exact ⟨stack, shape, rfl⟩

theorem Turns.one {before after : List Expr} {t : Token}
    (step : ∀ stack, exprs stack = before → ∀ index, ∃ next, step stack index t = .ok next ∧
      exprs next = after) : Turns before [t] after := by
  intro stack shape index rest
  obtain ⟨next, ok, result⟩ := step stack shape index
  exact ⟨next, result, Reader.readFrom_cons ok rest⟩

theorem Turns.append {before mid after : List Expr} {ts us : List Token}
    (first : Turns before ts mid) (second : Turns mid us after) :
    Turns before (ts ++ us) after := by
  intro stack shape index rest
  obtain ⟨halfway, shape, reads⟩ := first stack shape index (us ++ rest)
  obtain ⟨next, result, more⟩ := second halfway shape (index + ts.length) rest
  refine ⟨next, result, ?_⟩
  rw [List.append_assoc, reads, more, List.length_append, Nat.add_assoc]

theorem turns_leaf {text : String} {e : Expr} (term : Term text e) (before : List Expr) :
    Turns before [.run text] (before ++ [e]) := by
  apply Turns.one
  intro stack shape index
  refine ⟨⟨e, text, index⟩ :: stack, ?_, ?_⟩
  · simp only [step, Token.operation?, term.ofToken?, Token.leaf?, leaf?_iff.mpr term]
    rfl
  · rw [exprs_cons, shape]

theorem turns_node {op : Operation} {below es : List Expr} {e : Expr}
    (built : Expr.build? op es = some e) (whole : op.arity = .any → below = []) :
    Turns (below ++ es) [.run op.token] (below ++ [e]) := by
  apply Turns.one
  intro stack shape index
  obtain ⟨next, ok, result⟩ := reduce_operands shape built whole index
  refine ⟨next, ?_, result⟩
  simp only [step, Token.operation?, Operation.ofToken?_token]
  exact ok

theorem turns_operands {parts : List (List Token)} {es : List Expr}
    (derived : List.Forall₂ Postorder parts es)
    (one : ∀ e ∈ es, ∀ ts, Postorder ts e → ∀ before, Turns before ts (before ++ [e]))
    (before : List Expr) : Turns before parts.flatten (before ++ es) := by
  induction derived generalizing before with
  | nil =>
    rw [List.append_nil]
    exact .nil before
  | @cons ts e parts es first rest ih =>
    have head := one e (List.mem_cons_self ..) ts first before
    have tail := ih (fun f mem => one f (List.mem_cons_of_mem e mem)) (before ++ [e])
    rw [List.append_assoc, List.singleton_append] at tail
    exact head.append tail

theorem operands_not_hasVariadic {e : Expr} {op : Operation} (operation : e.operation? = some op)
    (none : e.hasVariadic = false) : op.arity ≠ .any ∧ ∀ f ∈ e.operands, f.hasVariadic = false := by
  rw [Expr.hasVariadic_node operation, Bool.or_eq_false_iff, List.any_eq_false] at none
  constructor
  · exact ne_of_beq_false none.1
  · intro f mem
    exact (Bool.not_eq_true _).mp (none.2 f mem)

/-- A formula is read on top of any stack if it has no operation over any number of operands, and on
the empty stack if these are in leading position. -/
theorem turns_postorder {e : Expr} {ts : List Token} (derived : Postorder ts e) (before : List Expr)
    (fits : e.hasVariadic = false ∨ before = [] ∧ e.Leading) : Turns before ts (before ++ [e]) := by
  induction e using Expr.operand_induction generalizing ts before with
  | step e ih =>
    have anywhere : ∀ f ∈ e.operands, f.hasVariadic = false → ∀ us, Postorder us f →
        ∀ below, Turns below us (below ++ [f]) :=
      fun f mem none us one below => ih f mem one below (.inl none)
    cases derived with
    | leaf term => exact turns_leaf term before
    | @node op parts _ operation derived =>
      have built := Expr.build?_operands operation
      rcases fits with none | ⟨rfl, leading⟩
      · obtain ⟨fixed, others⟩ := operands_not_hasVariadic operation none
        have operands := turns_operands derived (fun f mem => anywhere f mem (others f mem)) before
        exact operands.append (turns_node built fun any => absurd any fixed)
      · -- The first operand meets the empty stack, the others stand above it.
        have settled := Expr.leading_iff.mp leading
        have operands : Turns [] parts.flatten ([] ++ e.operands) := by
          cases shape : e.operands with
          | nil =>
            rw [shape] at derived
            cases derived
            exact .nil []
          | cons first rest =>
            rw [shape] at derived settled anywhere
            have firstMem : first ∈ e.operands := by rw [shape]; exact List.mem_cons_self
            cases derived with
            | cons one more =>
              have head := ih first firstMem one [] (.inr ⟨rfl, settled.1⟩)
              have tail := turns_operands more (fun f mem =>
                anywhere f (List.mem_cons_of_mem first mem) (settled.2 f mem)) [first]
              exact head.append tail
        exact operands.append (turns_node built fun _ => rfl)

theorem read_iff {ts : List Token} {e : Expr} :
    reader.read ts = .ok e ↔ Postorder ts e ∧ e.Leading := by
  constructor
  · exact postorder_of_read
  · rintro ⟨postorder, leading⟩
    obtain ⟨next, result, reads⟩ := turns_postorder postorder [] (.inr ⟨rfl, leading⟩) [] rfl 0 []
    obtain ⟨value, shape, rfl⟩ := List.map_eq_singleton_iff.mp result
    rw [List.append_nil] at reads
    rw [Reader.read]
    refine reads.trans ?_
    change finish next _ = _
    rw [finish, shape]

end Bare

theorem forall_parts {parts : List (List Token)} {es : List Expr} {Q : List Token → Prop}
    (derived : List.Forall₂ Postorder parts es) (one : ∀ f ∈ es, ∀ ts, Postorder ts f → Q ts) :
    ∀ ts ∈ parts, Q ts := by
  induction derived with
  | nil =>
    intro ts mem
    cases mem
  | @cons us e parts es first rest ih =>
    intro ts mem
    rcases List.mem_cons.mp mem with rfl | later
    · exact one e List.mem_cons_self ts first
    · exact ih (fun f mem => one f (List.mem_cons_of_mem e mem)) ts later

theorem run_of_postorder {ts : List Token} {e : Expr} (postorder : Postorder ts e) :
    ∀ t ∈ ts, ∃ text, t = .run text := by
  induction e using Expr.operand_induction generalizing ts with
  | step e ih =>
    intro t mem
    cases postorder with
    | leaf term => exact ⟨_, List.mem_singleton.mp mem⟩
    | node operation derived =>
      rcases List.mem_append.mp mem with inner | last
      · obtain ⟨us, part, inner⟩ := List.mem_flatten.mp inner
        exact forall_parts derived (fun f operand us one => ih f operand one) us part t inner
      · exact ⟨_, List.mem_singleton.mp last⟩

theorem no_bracket_of_postorder {text : String} {e : Expr}
    (postorder : Postorder (tokensOf text) e) : '(' ∉ text.toList ∧ ')' ∉ text.toList := by
  have runs := run_of_postorder postorder
  constructor
  · intro mem
    obtain ⟨run, impossible⟩ := runs .opening (Token.mem_found Token.found_opening mem false)
    cases impossible
  · intro mem
    obtain ⟨run, impossible⟩ := runs .closing (Token.mem_found Token.found_closing mem false)
    cases impossible

/-- A text is read as a formula exactly if it has no brackets, its runs are those of the formula with
operands first, every operation has as many operands as it takes, and those over any number of
operands are reached through first operands only. The limit has no meaning. -/
theorem parse_bare_iff (limit : Option Nat) (text : String) (e : Expr) :
    parse .bare limit text = .ok e ↔
      ('(' ∉ text.toList ∧ ')' ∉ text.toList) ∧ Postorder (tokensOf text) e ∧
      (∀ f ∈ e.subterms, ∀ op ∈ f.operation?, op.accepts f.operands.length = true) ∧ e.Leading := by
  rw [parse_eq_ok_iff]
  change Bare.reader.read (tokensOf text) = .ok e ↔ _
  rw [Bare.read_iff]
  constructor
  · rintro ⟨postorder, leading⟩
    refine ⟨no_bracket_of_postorder postorder, postorder, ?_, leading⟩
    intro f _ op operation
    exact accepts_of_build? (Expr.build?_operands operation)
  · rintro ⟨_, postorder, _, leading⟩
    exact ⟨postorder, leading⟩

end Formula
