import Mathlib.Data.Set.Subsingleton
import Formula.Proofs.Expr.Same
import Formula.Proofs.Number.RoundTrip
import Formula.Proofs.Reading.OperatorFirst
import Formula.Proofs.Reading.OperatorLast

namespace Formula

theorem readTokens_iff_derives {p : Place} {ts : List Token} {e : Expr} :
    readTokens p.notation none ts = .ok e ↔ Derives p ts e := by
  cases p with
  | first => exact OperatorFirst.read_iff_derives
  | last => exact OperatorLast.read_iff_derives

theorem Derives.unique {p : Place} {ts : List Token} {e f : Expr} (he : Derives p ts e)
    (hf : Derives p ts f) : e = f := by
  have read := readTokens_iff_derives.mpr he
  rw [readTokens_iff_derives.mpr hf] at read
  cases read
  rfl

/-- A text is read as a formula exactly if its tokens derive the formula, and they derive at most
one. -/
theorem parse_iff_derives (p : Place) (text : String) :
    (∀ e, parse p.notation none text = .ok e ↔ Derives p (tokensOf text) e) ∧
      Set.Subsingleton {e | Derives p (tokensOf text) e} := by
  constructor
  · intro e
    rw [parse_eq_ok_iff, readTokens_iff_derives]
  · intro e he f hf
    exact he.unique hf

theorem tokens_leaf {n : Notation} {e : Expr} (leaf : e.operation? = none) :
    ∃ text, Term text e ∧ e.tokens n = [.run text] := by
  cases e with
  | const value => exact ⟨_, .number (Number.read?_write value), rfl⟩
  | var v => exact ⟨_, .var v, rfl⟩
  | _ => cases leaf

theorem tokens_node {n : Notation} {e : Expr} {op : Operation}
    (operation : e.operation? = some op) :
    e.tokens n = n.arrange op (e.operands.map (Expr.tokens n)).flatten :=
  Expr.fold_build? _ _ _ (Expr.build?_operands operation)

theorem arrange_eq_bracket (p : Place) (op : Operation) (ts : List Token) :
    p.notation.arrange op ts = p.bracket (.run op.token) ts := by
  cases p <;> rfl

theorem derives_tokens (p : Place) (e : Expr) : Derives p (e.tokens p.notation) e := by
  induction e using Expr.node_induction with
  | leaf e none =>
    obtain ⟨text, term, tokens⟩ := tokens_leaf (n := p.notation) none
    rw [tokens]
    exact .term term
  | node e op operation ih =>
    have all : List.Forall₂ (Derives p) (e.operands.map (Expr.tokens p.notation)) e.operands :=
      List.forall₂_map_left_iff.mpr (List.forall₂_same.mpr ih)
    rw [tokens_node operation, arrange_eq_bracket]
    exact .bracket (Expr.build?_operands operation) ⟨_, all, rfl⟩

theorem words_bracket {p : Place} {op : Operation} {ts : List Token} (words : Token.Words ts) :
    Token.Words (p.bracket (.run op.token) ts) := by
  intro text mem
  have one : text = op.token ∨ .run text ∈ ts := by
    cases p with
    | first => simpa [Place.bracket] using mem
    | last => simpa [Place.bracket, or_comm] using mem
  rcases one with rfl | inner
  · exact op.word
  · exact words text inner

theorem words_tokens (p : Place) (e : Expr) : Token.Words (e.tokens p.notation) := by
  induction e using Expr.node_induction with
  | leaf e none =>
    obtain ⟨text, term, tokens⟩ := tokens_leaf (n := p.notation) none
    intro other mem
    rw [tokens, List.mem_singleton] at mem
    cases mem
    exact term.word
  | node e op operation ih =>
    rw [tokens_node operation, arrange_eq_bracket]
    apply words_bracket
    intro text mem
    obtain ⟨ts, tokens, inner⟩ := List.mem_flatten.mp mem
    obtain ⟨f, operand, rfl⟩ := List.mem_map.mp tokens
    exact ih f operand text inner

theorem readTokens_render (p : Place) (e : Expr) :
    readTokens p.notation none (tokensOf (e.render p.notation)) = .ok e := by
  rw [readTokens_iff_derives, tokensOf, Expr.render, Token.scan_spell (words_tokens p e)]
  exact derives_tokens p e

/-- A formula that is written in brackets is read back, with all its constants. It is the same as
before unless one of them is no number. -/
theorem parse_render (p : Place) (e : Expr) :
    ∃ f, parse p.notation none (e.render p.notation) = .ok f ∧ f = e ∧
      f.render p.notation = e.render p.notation ∧
      ((f == e) = true ↔ ∀ value ∈ e.constants, value.isNaN = false) :=
  ⟨e, parse_eq_ok_iff.mpr (readTokens_render p e), rfl, rfl, Expr.same_self_iff⟩

end Formula
