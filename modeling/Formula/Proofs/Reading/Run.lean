import Formula.Parse
import Formula.Proofs.Reading.Spelling

namespace Formula

theorem ok_bind {α β ε : Type} {x : Except ε α} {f : α → Except ε β} {b : β}
    (ok : (x >>= f) = .ok b) : ∃ a, x = .ok a ∧ f a = .ok b := by
  cases x with
  | ok a => exact ⟨a, rfl, ok⟩
  | error fault => cases ok

namespace Reader

variable {σ : Type} {r : Reader σ}

/-- What every step keeps about the state and the tokens taken so far holds when the reading ends. -/
theorem readFrom_ok {Inv : σ → List Token → Prop}
    (keeps : ∀ s taken index t next, Inv s taken → r.step s index t = .ok next →
      Inv next (taken ++ [t]))
    {s : σ} {index : Nat} {taken ts : List Token} {e : Expr} (inv : Inv s taken)
    (ok : r.readFrom s index ts = .ok e) :
    ∃ last, Inv last (taken ++ ts) ∧ r.finish last (index + ts.length) = .ok e := by
  induction ts generalizing s index taken with
  | nil =>
    refine ⟨s, ?_, ok⟩
    rw [List.append_nil]
    exact inv
  | cons t ts ih =>
    rw [readFrom] at ok
    split at ok
    · next next step =>
      obtain ⟨last, kept, finished⟩ := ih (keeps s taken index t next inv step) ok
      refine ⟨last, ?_, ?_⟩
      · rw [List.append_assoc, List.singleton_append] at kept
        exact kept
      · rw [List.length_cons, Nat.add_comm ts.length, ← Nat.add_assoc]
        exact finished
    · cases ok

theorem readFrom_cons {s next : σ} {index : Nat} {t : Token} (step : r.step s index t = .ok next)
    (ts : List Token) : r.readFrom s index (t :: ts) = r.readFrom next (index + 1) ts := by
  rw [readFrom, step]

/-- The tokens take the reader from one state to another, wherever they stand. -/
def Reads (r : Reader σ) (s : σ) (ts : List Token) (next : σ) : Prop :=
  ∀ index rest, r.readFrom s index (ts ++ rest) = r.readFrom next (index + ts.length) rest

theorem Reads.nil (s : σ) : r.Reads s [] s := by
  intro index rest
  rfl

theorem Reads.one {s next : σ} {t : Token} (step : ∀ index, r.step s index t = .ok next) :
    r.Reads s [t] next := by
  intro index rest
  exact readFrom_cons (step index) rest

theorem Reads.append {s mid next : σ} {ts us : List Token} (first : r.Reads s ts mid)
    (second : r.Reads mid us next) : r.Reads s (ts ++ us) next := by
  intro index rest
  rw [List.append_assoc, first, second, List.length_append, Nat.add_assoc]

theorem Reads.read {ts : List Token} {last : σ} (reads : r.Reads r.start ts last) :
    r.read ts = r.finish last ts.length := by
  have whole := reads 0 []
  rw [List.append_nil, Nat.zero_add] at whole
  exact whole

end Reader

def tokensOf (text : String) : List Token :=
  (Token.scan text).map (·.token)

theorem parse_eq_ok_iff {n : Notation} {limit : Option Nat} {text : String} {e : Expr} :
    parse n limit text = .ok e ↔ readTokens n limit (tokensOf text) = .ok e := by
  simp only [parse, tokensOf]
  cases readTokens n limit ((Token.scan text).map (·.token)) with
  | ok found => simp
  | error fault => simp

theorem accepts_of_build? {op : Operation} {es : List Expr} {e : Expr}
    (built : Expr.build? op es = some e) : op.accepts es.length = true := by
  rw [← Expr.build?_isSome, built]
  rfl

theorem applied_eq_ok_iff {op : Operation} {es : List Expr} {index : Nat} {e : Expr} :
    Reader.applied op es index = .ok e ↔ Expr.build? op es = some e := by
  unfold Reader.applied
  cases Expr.build? op es with
  | none => simp
  | some built => simp

end Formula
