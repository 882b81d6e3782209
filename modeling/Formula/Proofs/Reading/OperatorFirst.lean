import Formula.Proofs.Expr.Subterms
import Formula.Proofs.Reading.Grammar

namespace Formula.OperatorFirst

/-- The tokens of the open brackets so far, the outermost bracket first. -/
inductive Opened : List Pending → List Token → Prop
  | none : Opened [] []
  | more {pending : List Pending} {before body : List Token} {p : Pending}
      (outer : Opened pending before) (all : DerivesAll .first body p.operands.reverse) :
      Opened (p :: pending) (before ++ .opening :: .run p.operation.token :: body)

def Taken : State → List Token → Prop
  | .operand pending, taken => Opened pending taken
  | .operation pending, taken => ∃ before, Opened pending before ∧ taken = before ++ [.opening]
  | .nothing whole, taken => Derives .first taken whole

theorem taken_deliver {pending : List Pending} {before ts : List Token} {e : Expr}
    (opened : Opened pending before) (derived : Derives .first ts e) :
    Taken (deliver pending e) (before ++ ts) := by
  cases opened with
  | none => exact derived
  | @more pending before body p outer all =>
    have operands : (e :: p.operands).reverse = p.operands.reverse ++ [e] := List.reverse_cons
    have snoc := all.snoc derived
    rw [← operands] at snoc
    rw [List.append_assoc, List.cons_append, List.cons_append]
    exact .more (p := { p with operands := e :: p.operands }) outer snoc

theorem taken_step {limit : Option Nat} (s : State) (taken : List Token) (index : Nat) (t : Token)
    (next : State) (inv : Taken s taken) (ok : step limit s index t = .ok next) :
    Taken next (taken ++ [t]) := by
  cases s with
  | operand pending =>
    cases t with
    | opening =>
      obtain ⟨-, -, ok⟩ := ok_bind ok
      cases ok
      exact ⟨taken, inv, rfl⟩
    | closing =>
      cases inv with
      | none => cases ok
      | @more pending before body p outer all =>
        obtain ⟨e, applied, ok⟩ := ok_bind ok
        cases ok
        have derived := Derives.bracket (applied_eq_ok_iff.mp applied) all
        -- the bracket that closes is a formula, and an operand of the bracket around it
        have closed := taken_deliver outer derived
        rw [List.append_assoc, List.cons_append, List.cons_append]
        exact closed
    | run text =>
      simp only [step] at ok
      split at ok
      · next e leaf =>
        cases ok
        exact taken_deliver inv (.term (leaf?_iff.mp leaf))
      · cases ok
  | operation pending =>
    obtain ⟨before, opened, rfl⟩ := inv
    simp only [step] at ok
    split at ok
    · next op found =>
      cases ok
      cases t with
      | opening => cases found
      | closing => cases found
      | run text =>
        have same := Operation.token_of_ofToken? found
        rw [← same, List.append_assoc]
        exact .more (p := ⟨op, []⟩) opened (DerivesAll.nil .first)
    · cases ok
  | nothing whole => cases ok

theorem derives_of_read {limit : Option Nat} {ts : List Token} {e : Expr}
    (ok : (reader limit).read ts = .ok e) : Derives .first ts e := by
  have start : Taken (.operand []) [] := .none
  obtain ⟨last, inv, finished⟩ := Reader.readFrom_ok taken_step start ok
  rw [List.nil_append] at inv
  cases last with
  | operand pending =>
    cases pending with
    | nil => cases finished
    | cons p pending =>
      obtain ⟨-, -, finished⟩ := ok_bind finished
      cases finished
  | operation pending => cases finished
  | nothing whole =>
    cases finished
    exact inv

theorem reads_derived {e : Expr} {ts : List Token} (derived : Derives .first ts e)
    (pending : List Pending) : (reader none).Reads (.operand pending) ts (deliver pending e) := by
  induction e using Expr.operand_induction generalizing ts pending with
  | step e ih =>
    rcases derived.cases_bracket with ⟨text, term, rfl⟩ | ⟨op, parts, built, operands, rfl⟩
    · apply Reader.Reads.one
      intro index
      simp only [reader, step, leaf?_iff.mpr term]
    · have opened : (reader none).Reads (.operand pending) [.opening] (.operation pending) :=
        .one fun index => rfl
      have named : (reader none).Reads (.operation pending) [.run op.token]
          (.operand (⟨op, []⟩ :: pending)) := by
        apply Reader.Reads.one
        intro index
        simp only [reader, step, Token.operation?, Operation.ofToken?_token]
      have body := reads_operands (r := reader none)
        (fun before => .operand (⟨op, before⟩ :: pending)) operands
        (fun f mem us one before => ih f mem one (⟨op, before⟩ :: pending)) []
      have closed : (reader none).Reads (.operand (⟨op, e.operands.reverse⟩ :: pending)) [.closing]
          (deliver pending e) := by
        apply Reader.Reads.one
        intro index
        have applied : Reader.applied op e.operands index = .ok e := applied_eq_ok_iff.mpr built
        simp only [reader, step, List.reverse_reverse, applied]
        rfl
      rw [List.append_nil] at body
      exact opened.append (named.append (body.append closed))

theorem read_iff_derives {ts : List Token} {e : Expr} :
    (reader none).read ts = .ok e ↔ Derives .first ts e := by
  constructor
  · exact derives_of_read
  · intro derived
    exact (reads_derived derived []).read

end Formula.OperatorFirst
