import Formula.Proofs.Expr.Subterms
import Formula.Proofs.Reading.Grammar

namespace Formula.OperatorLast

/-- The tokens of the open brackets so far, the outermost bracket first. -/
inductive Opened : List (List Expr) → List Token → Prop
  | none : Opened [] []
  | more {pending : List (List Expr)} {before body : List Token} {operands : List Expr}
      (outer : Opened pending before) (all : DerivesAll .last body operands.reverse) :
      Opened (operands :: pending) (before ++ .opening :: body)

/-- What the tokens taken so far have to do with the state. Out of doubt comes no formula. -/
def Taken : State → List Token → Prop
  | .operand pending, taken => Opened pending taken
  | .doubt _ _, _ => True
  | .closing pending inner, taken => ∃ before body op es, Opened pending before ∧
      DerivesAll .last body es ∧ Expr.build? op es = some inner ∧
      taken = before ++ .opening :: (body ++ [.run op.token])
  | .nothing whole, taken => Derives .last taken whole

theorem taken_deliver {pending : List (List Expr)} {before ts : List Token} {e : Expr}
    (opened : Opened pending before) (derived : Derives .last ts e) :
    Taken (deliver pending e) (before ++ ts) := by
  cases opened with
  | none => exact derived
  | @more pending before body operands outer all =>
    have snoc := all.snoc derived
    rw [← List.reverse_cons] at snoc
    rw [List.append_assoc, List.cons_append]
    exact .more outer snoc

theorem taken_run {pending : List (List Expr)} {taken : List Token} {index : Nat} {text : String}
    {limit : Option Nat} {next : State} (opened : Opened pending taken)
    (ok : step limit (.operand pending) index (.run text) = .ok next) :
    Taken next (taken ++ [.run text]) := by
  cases pending with
  | nil =>
    simp only [step, stepOutside] at ok
    split at ok
    · next e leaf =>
      cases ok
      exact taken_deliver opened (.term (leaf?_iff.mp leaf))
    · cases ok
  | cons operands pending =>
    simp only [step, stepInside] at ok
    split at ok
    · next op found =>
      obtain ⟨e, applied, ok⟩ := ok_bind ok
      cases ok
      cases opened with
      | @more _ before body _ outer all =>
        refine ⟨before, body, op, operands.reverse, outer, all, applied_eq_ok_iff.mp applied, ?_⟩
        rw [Operation.token_of_ofToken? found, List.append_assoc, List.cons_append]
    · split at ok
      · next e leaf =>
        cases ok
        exact taken_deliver opened (.term (leaf?_iff.mp leaf))
      · cases ok
        trivial

theorem taken_step {limit : Option Nat} (s : State) (taken : List Token) (index : Nat) (t : Token)
    (next : State) (inv : Taken s taken) (ok : step limit s index t = .ok next) :
    Taken next (taken ++ [t]) := by
  cases s with
  | operand pending =>
    cases t with
    | opening =>
      obtain ⟨-, -, ok⟩ := ok_bind ok
      cases ok
      exact .more inv (DerivesAll.nil .last)
    | closing => cases pending <;> cases ok
    | run text => exact taken_run inv ok
  | doubt text place =>
    simp only [step] at ok
    split at ok <;> cases ok
  | closing pending inner =>
    obtain ⟨before, body, op, es, outer, all, built, rfl⟩ := inv
    simp only [step] at ok
    split at ok
    · next close =>
      cases ok
      subst close
      have closed := taken_deliver outer (Derives.bracket built all)
      rw [List.append_assoc, List.cons_append, List.append_assoc]
      exact closed
    · cases ok
  | nothing whole => cases ok

theorem derives_of_read {limit : Option Nat} {ts : List Token} {e : Expr}
    (ok : (reader limit).read ts = .ok e) : Derives .last ts e := by
  have start : Taken (.operand []) [] := .none
  obtain ⟨last, inv, finished⟩ := Reader.readFrom_ok taken_step start ok
  rw [List.nil_append] at inv
  cases last with
  | operand pending => cases pending <;> cases finished
  | doubt text place => cases finished
  | closing pending inner => cases finished
  | nothing whole =>
    cases finished
    exact inv

theorem reads_term {text : String} {e : Expr} (term : Term text e) (pending : List (List Expr)) :
    (reader none).Reads (.operand pending) [.run text] (deliver pending e) := by
  apply Reader.Reads.one
  intro index
  cases pending with
  | nil => simp only [reader, step, stepOutside, leaf?_iff.mpr term, deliver]
  | cons operands pending =>
    simp only [reader, step, stepInside, term.ofToken?, leaf?_iff.mpr term]

theorem reads_derived {e : Expr} {ts : List Token} (derived : Derives .last ts e)
    (pending : List (List Expr)) :
    (reader none).Reads (.operand pending) ts (deliver pending e) := by
  induction e using Expr.operand_induction generalizing ts pending with
  | step e ih =>
    rcases derived.cases_bracket with ⟨text, term, rfl⟩ | ⟨op, parts, built, operands, rfl⟩
    · exact reads_term term pending
    · have opened : (reader none).Reads (.operand pending) [.opening]
          (.operand ([] :: pending)) := by
        apply Reader.Reads.one
        intro index
        cases pending <;> rfl
      have body := reads_operands (r := reader none) (fun before => .operand (before :: pending))
        operands (fun f mem us one before => ih f mem one (before :: pending)) []
      have named : (reader none).Reads (.operand (e.operands.reverse :: pending)) [.run op.token]
          (.closing pending e) := by
        apply Reader.Reads.one
        intro index
        have applied : Reader.applied op e.operands index = .ok e := applied_eq_ok_iff.mpr built
        simp only [reader, step, stepInside, Operation.ofToken?_token, List.reverse_reverse,
          applied]
        rfl
      have closed : (reader none).Reads (.closing pending e) [.closing] (deliver pending e) :=
        .one fun index => rfl
      rw [List.append_nil] at body
      exact opened.append (body.append (named.append closed))

theorem read_iff_derives {ts : List Token} {e : Expr} :
    (reader none).read ts = .ok e ↔ Derives .last ts e := by
  constructor
  · exact derives_of_read
  · intro derived
    exact (reads_derived derived []).read

end Formula.OperatorLast
