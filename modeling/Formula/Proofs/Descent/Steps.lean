import Formula.Proofs.Descent.Parser
import Formula.Proofs.Reading.Reached

/-!
What each part of the checked reading does at a token. A run either arrives somewhere or is refused
where the reader of `readTokens` stops, with the same fault; it does not crash.
-/

namespace Formula

namespace Reader

variable {σ : Type} {r : Reader σ} {text : String} {s next : σ} {index : Nat} {t : Token}

/-- The outcome of reading the tokens of a text from one of them on. -/
def readOn (r : Reader σ) (text : String) (s : σ) (index : Nat) : Except Fault Expr :=
  r.readFrom s index ((tokensOf text).drop index)

theorem drop_token {ts : List Token} (token : ts[index]? = some t) :
    ts.drop index = t :: ts.drop (index + 1) := by
  obtain ⟨inner, rfl⟩ := List.getElem?_eq_some_iff.mp token
  exact List.drop_eq_getElem_cons inner

theorem readOn_step (token : (tokensOf text)[index]? = some t)
    (step : r.step s index t = .ok next) : r.readOn text s index = r.readOn text next (index + 1) := by
  rw [readOn, drop_token token, readFrom_cons step]
  rfl

theorem readOn_stop {fault : Fault} (token : (tokensOf text)[index]? = some t)
    (step : r.step s index t = .error fault) : r.readOn text s index = .error fault := by
  rw [readOn, drop_token token, readFrom_stopped step]

theorem readOn_end (none : (tokensOf text)[index]? = none) :
    r.readOn text s index = r.finish s index := by
  rw [readOn, List.drop_eq_nil_of_le (List.getElem?_eq_none_iff.mp none)]
  rfl

end Reader

theorem Token.run_of_leaf? {t : Option Token} {e : Expr} (found : t.bind Token.leaf? = some e) :
    ∃ text, t = some (.run text) ∧ Expr.leaf? text = some e := by
  obtain ⟨t, rfl, leaf⟩ := Option.bind_eq_some_iff.mp found
  cases t with
  | opening => cases leaf
  | closing => cases leaf
  | run text => exact ⟨text, rfl, leaf⟩

theorem forall_of_later {P : Nat → Prop} (bound : Nat) (beyond : ∀ i > bound, P i)
    (step : ∀ i, (∀ later > i, P later) → P i) (i : Nat) : P i := by
  have close (count : Nat) : ∀ i, bound < i + count → P i := by
    induction count with
    | zero => exact beyond
    | succ count ih =>
      intro i bounded
      exact step i fun later further => ih later (by omega)
  exact close (bound + 1) i (by omega)

def Fault.located (fault : Fault) (text : String) : ParseError :=
  ⟨fault.cause, Context.ofIndex text (Token.scan text) fault.index⟩

namespace Parsing

open Limit

variable {α β : Type}

theorem exec_bind_ok {x : Parsing α} {f : α → Parsing β} {d next : Descent} {a : α}
    (first : x.exec d = some (.ok a, next)) : (x >>= f).exec d = (f a).exec next := by
  change Option.bind (x.exec d) _ = _
  rw [first]
  rfl

theorem exec_bind_error {x : Parsing α} {f : α → Parsing β} {d next : Descent} {stop : Stop}
    (first : x.exec d = some (.error stop, next)) : (x >>= f).exec d = some (.error stop, next) := by
  change Option.bind (x.exec d) _ = _
  rw [first]
  rfl

theorem exec_require {reason : Crash} {value : Option α} {a : α} (some : value = some a)
    (d : Descent) : (require reason value).exec d = .some (.ok a, d) := by
  subst some
  rfl

/-- The calls so far began at tokens before this one, each at a later token than the one before. -/
structure Noted (text : String) (bound : Nat) (d : Descent) : Prop where
  calls : ∃ indices : List Nat, d.calls = indices.map (startOf text) ∧ indices.Pairwise (· > ·) ∧
    ∀ i ∈ indices, i < bound
  moves : ∀ move ∈ d.moves, move.1 < move.2

structure Stands (text : String) (index depth : Nat) (d : Descent) : Prop where
  on : d.scanner.On text index
  bound : index ≤ (tokensOf text).length
  depth : d.depth = depth

variable {text : String} {index depth : Nat} {d : Descent}

theorem exec_current (stands : Stands text index depth d) :
    current.exec d = some (.ok (tokensOf text)[index]?, d) := by
  rw [← stands.on.current]
  rfl

theorem exec_advance (ahead : d.scanner.Ahead text index) (bound : index ≤ (tokensOf text).length) :
    ∃ scanner, advance.exec d = some (.ok (tokensOf text)[index]?, { d with scanner }) ∧
      Stands text index d.depth { d with scanner } := by
  obtain ⟨next, scanned, on⟩ := Scanner.next?_on ahead
  refine ⟨next, ?_, on, bound, rfl⟩
  rw [← on.current]
  have first : (require .slice d.scanner.next?).exec d = some (.ok next, d) :=
    exec_require scanned d
  exact exec_bind_ok first

theorem exec_next (stands : Stands text index depth d) (inner : index < (tokensOf text).length) :
    ∃ scanner, advance.exec d = some (.ok (tokensOf text)[index + 1]?, { d with scanner }) ∧
      Stands text (index + 1) depth { d with scanner } := by
  obtain rfl := stands.depth
  exact exec_advance stands.on.toAhead inner

theorem exec_peek (stands : Stands text index depth d) :
    peek.exec d = some (.ok (tokensOf text)[index + 1]?, d) := by
  obtain ⟨next, scanned, on⟩ := Scanner.next?_on stands.on.toAhead
  rw [← on.current]
  have first : (require .slice d.scanner.next?).exec d = some (.ok next, d) :=
    exec_require scanned d
  exact exec_bind_ok first

theorem exec_context (stands : Stands text index depth d) :
    context.exec d = some (.ok (Context.ofIndex text (Token.scan text) index), d) :=
  exec_require (Scanner.context?_on stands.on stands.bound) d

theorem exec_fail (stands : Stands text index depth d) (cause : Cause) :
    (fail cause : Parsing α).exec d =
      some (.error (.refused (Fault.located ⟨cause, index⟩ text)), d) :=
  exec_bind_ok (exec_context stands)

theorem Noted.mono {bound later : Nat} (noted : Noted text bound d) (le : bound ≤ later) :
    Noted text later d := by
  obtain ⟨⟨indices, calls, sorted, before⟩, moves⟩ := noted
  exact ⟨⟨indices, calls, sorted, fun i mem => Nat.lt_of_lt_of_le (before i mem) le⟩, moves⟩

theorem Noted.scanned {bound : Nat} (noted : Noted text bound d) (scanner : Scanner) :
    Noted text bound { d with scanner } :=
  ⟨noted.calls, noted.moves⟩

theorem Noted.counted {bound : Nat} (noted : Noted text bound d) (depth : Nat) :
    Noted text bound { d with depth } :=
  ⟨noted.calls, noted.moves⟩

theorem noted_nothing (text : String) : Noted text 0 { scanner := { source := text } } :=
  ⟨⟨[], rfl, .nil, nofun⟩, nofun⟩

theorem exec_noteCall (stands : Stands text index depth d) :
    noteCall.exec d =
      some (.ok (startOf text index), { d with calls := startOf text index :: d.calls }) := by
  rw [← stands.on.start]
  rfl

theorem Noted.call (noted : Noted text index d) :
    Noted text (index + 1) { d with calls := startOf text index :: d.calls } := by
  obtain ⟨⟨indices, calls, sorted, before⟩, moves⟩ := noted
  refine ⟨⟨index :: indices, ?_, List.pairwise_cons.mpr ⟨before, sorted⟩, ?_⟩, moves⟩
  · rw [List.map_cons, ← calls]
  · rintro i mem
    rcases List.mem_cons.mp mem with rfl | earlier
    · exact Nat.lt_succ_self i
    · exact Nat.lt_succ_of_lt (before i earlier)

theorem exec_noteMove (stands : Stands text index depth d) (entry : Nat) :
    (noteMove entry).exec d =
      some (.ok (), { d with moves := (entry, startOf text index) :: d.moves }) := by
  rw [← stands.on.start]
  rfl

theorem Noted.move {bound entry place : Nat} (noted : Noted text bound d) (further : entry < place) :
    Noted text bound { d with moves := (entry, place) :: d.moves } :=
  ⟨noted.calls, List.forall_mem_cons.mpr ⟨further, noted.moves⟩⟩

theorem exec_enter (stands : Stands text index depth d) (limit : Option Nat) :
    (Reader.checkDepth limit (depth + 1) index = .ok () ∧
      (enter limit).exec d = some (.ok (), { d with depth := depth + 1 })) ∨
    ∃ fault, Reader.checkDepth limit (depth + 1) index = .error fault ∧
      (enter limit).exec d =
        some (.error (.refused (fault.located text)), { d with depth := depth + 1 }) := by
  obtain rfl := stands.depth
  have deeper : Stands text index (d.depth + 1) { d with depth := d.depth + 1 } :=
    ⟨stands.on, stands.bound, rfl⟩
  cases limit with
  | none => exact .inl ⟨rfl, rfl⟩
  | some most =>
    have counted : (enter (some most)).exec d =
      (if most < d.depth + 1 then fail (.tooDeep most) else pure ()).exec
        { d with depth := d.depth + 1 } := rfl
    rw [counted, Reader.checkDepth]
    split
    · exact .inr ⟨_, rfl, exec_fail deeper _⟩
    · exact .inl ⟨rfl, rfl⟩

theorem exec_leave (stands : Stands text index (depth + 1) d) :
    leave.exec d = some (.ok (), { d with depth }) := by
  have counted : (minus d.depth 1).exec d = some (.ok depth, d) := by
    rw [stands.depth]
    rfl
  exact exec_bind_ok counted

theorem arity_cases (stands : Stands text index depth d) (op : Operation) (operands : List Expr) :
    (∃ e, Reader.applied op operands index = .ok e ∧ Expr.build? op operands = some e ∧
      (checkArity op operands.length).exec d = some (.ok (), d)) ∨
    ∃ fault, Reader.applied op operands index = .error fault ∧
      (checkArity op operands.length).exec d =
        some (.error (.refused (fault.located text)), d) := by
  have accepts := Expr.build?_isSome op operands
  cases built : Expr.build? op operands with
  | some e =>
    left
    refine ⟨e, applied_eq_ok_iff.mpr built, rfl, ?_⟩
    rw [built, Operation.accepts] at accepts
    unfold checkArity
    cases arity : op.arity with
    | any => rfl
    | exactly expected =>
      rw [arity] at accepts
      have same : expected = operands.length := eq_of_beq accepts.symm
      simp only [same, ne_eq, not_true_eq_false, if_false]
      rfl
  | none =>
    right
    refine ⟨_, by rw [Reader.applied, built], ?_⟩
    rw [built, Operation.accepts] at accepts
    unfold checkArity
    cases arity : op.arity with
    | any =>
      rw [arity] at accepts
      cases accepts
    | exactly expected =>
      rw [arity] at accepts
      have other : expected ≠ operands.length := by
        rintro rfl
        simp [Arity.accepts] at accepts
      simp only [ne_eq, other, not_false_eq_true, if_true]
      exact exec_fail stands _

theorem exec_expectClose (stands : Stands text index depth d)
    (closing : (tokensOf text)[index]? = some .closing) (n : Notation) :
    ∃ scanner, (expectClose n).exec d = some (.ok (), { d with scanner }) ∧
      Stands text (index + 1) depth { d with scanner } := by
  obtain ⟨inner, -⟩ := List.getElem?_eq_some_iff.mp closing
  obtain ⟨scanner, advanced, further⟩ := exec_next stands inner
  refine ⟨scanner, ?_, further⟩
  have here := exec_current stands
  rw [closing] at here
  rw [expectClose, exec_bind_ok here, if_pos rfl, exec_bind_ok advanced]
  rfl

theorem exec_expectClose_error (stands : Stands text index depth d)
    (other : (tokensOf text)[index]? ≠ some .closing) (n : Notation) :
    (expectClose n).exec d = some (.error (.refused (Fault.located
      ⟨.expectedClose (Token.describe (tokensOf text)[index]?) n, index⟩ text)), d) := by
  rw [expectClose, exec_bind_ok (exec_current stands), if_neg other]
  exact exec_fail stands _

/-- A run of the checked reading, where reading on has a certain outcome: it arrives somewhere, or it
is refused with the fault that is the outcome. -/
inductive Ends (text : String) (here : Except Fault Expr) (arrives : α → Descent → Prop) :
    Option (Except Stop α × Descent) → Prop
  | arrived {a : α} {d : Descent} (there : arrives a d) : Ends text here arrives (some (.ok a, d))
  | refused {f : Fault} {d : Descent} (stopped : here = .error f)
      (noted : Noted text ((tokensOf text).length + 1) d) :
      Ends text here arrives (some (.error (.refused (f.located text)), d))

variable {here : Except Fault Expr}

theorem Ends.bind {mid : α → Descent → Prop} {arrives : β → Descent → Prop} {x : Parsing α}
    {f : α → Parsing β} (first : Ends text here mid (x.exec d))
    (second : ∀ a next, mid a next → Ends text here arrives ((f a).exec next)) :
    Ends text here arrives ((x >>= f).exec d) := by
  generalize ran : x.exec d = outcome at first
  cases first with
  | arrived there =>
    rw [exec_bind_ok ran]
    exact second _ _ there
  | refused stopped noted =>
    rw [exec_bind_error ran]
    exact .refused stopped noted

theorem Ends.mono {mid arrives : α → Descent → Prop} {outcome : Option (Except Stop α × Descent)}
    (ends : Ends text here mid outcome) (weaker : ∀ a next, mid a next → arrives a next) :
    Ends text here arrives outcome := by
  cases ends with
  | arrived there => exact .arrived (weaker _ _ there)
  | refused stopped noted => exact .refused stopped noted

theorem Ends.fail {arrives : α → Descent → Prop} {bound : Nat} {cause : Cause}
    (stands : Stands text index depth d) (noted : Noted text bound d)
    (le : bound ≤ (tokensOf text).length + 1) (stopped : here = .error ⟨cause, index⟩) :
    Ends text here arrives ((Parsing.fail cause).exec d) := by
  rw [exec_fail stands]
  exact .refused stopped (noted.mono le)

/-- A formula has been read from the tokens between two places, and reading on from the second place
with the formula has the same outcome as from the first. -/
def Arrives (text : String) (index depth : Nat) (here : Except Fault Expr)
    (after : Expr → Nat → Except Fault Expr) (e : Expr) (d : Descent) : Prop :=
  ∃ later, index < later ∧ Stands text later depth d ∧ Noted text later d ∧ here = after e later

variable {after : Expr → Nat → Except Fault Expr}

theorem term_ends (stands : Stands text index depth d) (noted : Noted text (index + 1) d)
    (leaf : ∀ e, (tokensOf text)[index]?.bind Token.leaf? = some e → here = after e (index + 1))
    (other : (tokensOf text)[index]?.bind Token.leaf? = none →
      here = .error ⟨.invalidTerm (Token.describe (tokensOf text)[index]?), index⟩) :
    Ends text here (Arrives text index depth here after) (term.exec d) := by
  rw [term, exec_bind_ok (exec_current stands)]
  cases found : (tokensOf text)[index]?.bind Token.leaf? with
  | none => exact .fail stands noted (Nat.succ_le_succ stands.bound) (other found)
  | some e =>
    obtain ⟨t, token, -⟩ := Option.bind_eq_some_iff.mp found
    obtain ⟨inner, -⟩ := List.getElem?_eq_some_iff.mp token
    obtain ⟨scanner, advanced, further⟩ := exec_next stands inner
    simp only [exec_bind_ok advanced]
    exact .arrived ⟨index + 1, Nat.lt_succ_self index, further, noted.scanned scanner, leaf e found⟩

/-- What a call meets at a token, where reading on has the outcome `here`, and with a formula that ends
before another token the outcome `after`. -/
structure Meets (p : Place) (limit : Option Nat) (text : String) (index depth : Nat)
    (here : Except Fault Expr) (after : Expr → Nat → Except Fault Expr) : Prop where
  deep : ∀ fault, (tokensOf text)[index]? = some .opening →
    Reader.checkDepth limit (depth + 1) index = .error fault → here = .error fault
  bracket : (tokensOf text)[index]? = some .opening →
    Reader.checkDepth limit (depth + 1) index = .ok () →
    ∀ d, Stands text index (depth + 1) d → Noted text (index + 1) d →
      Ends text here (Arrives text index (depth + 1) here after) ((body p limit).exec d)
  leaf : ∀ e, (tokensOf text)[index]?.bind Token.leaf? = some e → here = after e (index + 1)
  other : (tokensOf text)[index]? ≠ some .opening →
    (tokensOf text)[index]?.bind Token.leaf? = none →
    here = .error ⟨.invalidTerm (Token.describe (tokensOf text)[index]?), index⟩

variable {p : Place} {limit : Option Nat}

theorem unnoted_ends (meets : Meets p limit text index depth here after)
    (stands : Stands text index depth d) (noted : Noted text (index + 1) d) :
    Ends text here (Arrives text index depth here after) ((unnoted p limit).exec d) := by
  rw [unnoted, exec_bind_ok (exec_current stands)]
  by_cases opening : (tokensOf text)[index]? = some .opening
  · rw [if_pos opening]
    have inside : Stands text index (depth + 1) { d with depth := depth + 1 } :=
      ⟨stands.on, stands.bound, rfl⟩
    have kept := noted.counted (depth + 1)
    rcases exec_enter stands limit with ⟨allowed, counted⟩ | ⟨fault, refused, counted⟩
    · rw [exec_bind_ok counted]
      refine (meets.bracket opening allowed _ inside kept).bind ?_
      rintro e next ⟨later, further, there, kept, same⟩
      rw [exec_bind_ok (exec_leave there)]
      exact .arrived ⟨later, further, ⟨there.on, there.bound, rfl⟩, kept.counted depth, same⟩
    · rw [exec_bind_error counted]
      exact .refused (meets.deep fault opening refused) (kept.mono (Nat.succ_le_succ stands.bound))
  · rw [if_neg opening]
    exact term_ends stands noted meets.leaf (meets.other opening)

/-- A call is noted on its way in, before all that it does, and on its way out, when the scanner has
moved. -/
theorem expression_ends (meets : Meets p limit text index depth here after)
    (stands : Stands text index depth d) (noted : Noted text index d) :
    Ends text here (Arrives text index depth here after) ((expression p limit).exec d) := by
  rw [expression, exec_bind_ok (exec_noteCall stands)]
  have entered : Stands text index depth { d with calls := startOf text index :: d.calls } :=
    ⟨stands.on, stands.bound, stands.depth⟩
  refine (unnoted_ends meets entered noted.call).bind ?_
  rintro e next ⟨later, further, there, kept, same⟩
  rw [exec_bind_ok (exec_noteMove there _)]
  have moved := startOf_lt further there.bound
  exact .arrived ⟨later, further, ⟨there.on, there.bound, there.depth⟩, kept.move moved, same⟩

theorem bracketed_ends
    (call : ∀ d, Stands text 0 0 d → Noted text 0 d →
      Ends text here (Arrives text 0 0 here after) ((expression p limit).exec d))
    (done : ∀ e i, (tokensOf text)[i]? = none → after e i = .ok e)
    (extra : ∀ e i t, (tokensOf text)[i]? = some t → after e i = .error ⟨.extraToken t.text, i⟩) :
    Ends text here (fun e d => here = .ok e ∧ Noted text ((tokensOf text).length + 1) d)
      ((bracketed p limit).exec { scanner := { source := text } }) := by
  obtain ⟨scanner, advanced, stands⟩ :=
    exec_advance (d := { scanner := { source := text } }) (Scanner.ahead_ofText text) (Nat.zero_le _)
  rw [bracketed, exec_bind_ok advanced]
  refine (call _ stands ((noted_nothing text).scanned scanner)).bind ?_
  rintro e next ⟨later, -, there, kept, same⟩
  have within : later ≤ (tokensOf text).length + 1 := Nat.le_succ_of_le there.bound
  rw [exec_bind_ok (exec_current there)]
  cases token : (tokensOf text)[later]? with
  | none => exact .arrived ⟨same.trans (done e later token), kept.mono within⟩
  | some t => exact .fail there kept within (same.trans (extra e later t token))

end Parsing

end Formula
