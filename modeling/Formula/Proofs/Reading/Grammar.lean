import Mathlib.Data.List.Forall2
import Formula.Proofs.Reading.Run

namespace Formula

inductive Place where
  | first
  | last

def Place.notation : Place → Notation
  | .first => .operatorFirst
  | .last => .operatorLast

def Place.bracket : Place → Token → List Token → List Token
  | .first, operation, operands => .opening :: operation :: (operands ++ [.closing])
  | .last, operation, operands => .opening :: (operands ++ [operation, .closing])

/-- The tokens derive the formula. -/
inductive Derives (p : Place) : List Token → Expr → Prop
  | term {text : String} {e : Expr} (term : Term text e) : Derives p [.run text] e
  | node {op : Operation} {parts : List (List Token)} {es : List Expr} {e : Expr}
      (accepted : op.accepts es.length = true) (derived : List.Forall₂ (Derives p) parts es)
      (operation : e.operation? = some op) (operands : e.operands = es) :
      Derives p (p.bracket (.run op.token) parts.flatten) e

def DerivesAll (p : Place) (ts : List Token) (es : List Expr) : Prop :=
  ∃ parts, List.Forall₂ (Derives p) parts es ∧ parts.flatten = ts

theorem DerivesAll.nil (p : Place) : DerivesAll p [] [] :=
  ⟨[], .nil, rfl⟩

theorem DerivesAll.snoc {p : Place} {ts us : List Token} {es : List Expr} {e : Expr}
    (all : DerivesAll p ts es) (one : Derives p us e) : DerivesAll p (ts ++ us) (es ++ [e]) := by
  obtain ⟨parts, derived, rfl⟩ := all
  refine ⟨parts ++ [us], List.rel_append derived (.cons one .nil), ?_⟩
  rw [List.flatten_append, List.flatten_singleton]

theorem Derives.bracket {p : Place} {op : Operation} {body : List Token} {es : List Expr} {e : Expr}
    (built : Expr.build? op es = some e) (all : DerivesAll p body es) :
    Derives p (p.bracket (.run op.token) body) e := by
  obtain ⟨parts, derived, rfl⟩ := all
  obtain ⟨operation, operands⟩ := Expr.operation?_build? built
  exact .node (accepts_of_build? built) derived operation operands

theorem Derives.cases_bracket {p : Place} {ts : List Token} {e : Expr}
    (derivation : Derives p ts e) :
    (∃ text, Term text e ∧ ts = [.run text]) ∨
      ∃ op parts, Expr.build? op e.operands = some e ∧ List.Forall₂ (Derives p) parts e.operands ∧
        ts = p.bracket (.run op.token) parts.flatten := by
  cases derivation with
  | term term => exact .inl ⟨_, term, rfl⟩
  | node accepted derived operation operands =>
    subst operands
    exact .inr ⟨_, _, Expr.build?_operands operation, derived, rfl⟩

/-- Reading operands one after the other. `waiting` is the state by the operands read so far, the
latest first. -/
theorem reads_operands {σ : Type} {r : Reader σ} {p : Place} (waiting : List Expr → σ)
    {parts : List (List Token)} {es : List Expr} (derived : List.Forall₂ (Derives p) parts es)
    (one : ∀ e ∈ es, ∀ ts, Derives p ts e → ∀ before,
      r.Reads (waiting before) ts (waiting (e :: before)))
    (before : List Expr) :
    r.Reads (waiting before) parts.flatten (waiting (es.reverse ++ before)) := by
  induction derived generalizing before with
  | nil => exact .nil _
  | @cons ts e parts es first rest ih =>
    have head := one e (List.mem_cons_self ..) ts first before
    have tail := ih (fun f mem => one f (List.mem_cons_of_mem e mem)) (e :: before)
    rw [List.flatten_cons, List.reverse_cons, List.append_assoc, List.singleton_append]
    exact head.append tail

end Formula
