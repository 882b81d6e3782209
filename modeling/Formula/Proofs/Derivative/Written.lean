import Formula.Proofs.Derivative.Rules
import Formula.Proofs.Reading.Unbracketed

/-!
Derivatives of written formulas. What is written is read back, so a derivative can be taken of the
text of a derivative, as often as one likes, and the texts are those of the successive derivatives.
Without brackets this needs formulas free of operations over any number of operands; their
derivatives are free of them too.
-/

namespace Formula

namespace Expr

theorem hasVariadic_const (value : Float) : (const value).hasVariadic = false := rfl

theorem hasVariadic_binary (op : BinaryOp) (a b : Expr) :
    (binary op a b).hasVariadic = (a.hasVariadic || b.hasVariadic) := by
  rw [hasVariadic_node rfl]
  simp [operands, Operation.arity]

theorem hasVariadic_add (a b : Expr) : (a + b).hasVariadic = (a.hasVariadic || b.hasVariadic) :=
  hasVariadic_binary .add a b

theorem hasVariadic_sub (a b : Expr) : (a - b).hasVariadic = (a.hasVariadic || b.hasVariadic) :=
  hasVariadic_binary .sub a b

theorem hasVariadic_mul (a b : Expr) : (a * b).hasVariadic = (a.hasVariadic || b.hasVariadic) :=
  hasVariadic_binary .mul a b

theorem hasVariadic_div (a b : Expr) : (a / b).hasVariadic = (a.hasVariadic || b.hasVariadic) :=
  hasVariadic_binary .div a b

theorem hasVariadic_neg (a : Expr) : (-a).hasVariadic = a.hasVariadic := by
  rw [hasVariadic_node rfl]
  exact Bool.or_false _

theorem hasVariadic_gauss (a c w p : Expr) : (gauss a c w p).hasVariadic =
    (a.hasVariadic || c.hasVariadic || w.hasVariadic || p.hasVariadic) := by
  rw [hasVariadic_node rfl]
  simp [operands, Operation.arity, Bool.or_assoc]

theorem hasVariadic_derivative {e : Expr} (none : e.hasVariadic = false) (name : String) :
    (e.derivative name).hasVariadic = false := by
  -- a mean or a variance is excluded, and no other rule brings one in
  induction e using rule_induction with
  | const value => rfl
  | var v => rfl
  | add a b iha ihb =>
    rw [hasVariadic_add, Bool.or_eq_false_iff] at none
    rw [derivative_add, hasVariadic_add, iha none.1, ihb none.2]
    rfl
  | sub a b iha ihb =>
    rw [hasVariadic_sub, Bool.or_eq_false_iff] at none
    rw [derivative_sub, hasVariadic_sub, iha none.1, ihb none.2]
    rfl
  | mul a b iha ihb =>
    rw [hasVariadic_mul, Bool.or_eq_false_iff] at none
    obtain ⟨ha, hb⟩ := none
    simp only [derivative_mul, hasVariadic_add, hasVariadic_mul, ha, hb, iha ha, ihb hb,
      Bool.or_false]
  | div a b iha ihb =>
    rw [hasVariadic_div, Bool.or_eq_false_iff] at none
    obtain ⟨ha, hb⟩ := none
    simp only [derivative_div, hasVariadic_div, hasVariadic_sub, hasVariadic_mul, ha, hb, iha ha,
      ihb hb, Bool.or_false]
  | neg a ih =>
    rw [hasVariadic_neg] at none
    rw [derivative_neg, hasVariadic_neg, ih none]
  | mean es ih => cases none
  | variance es ih => cases none
  | gauss a c w p iha ihc ihw ihp =>
    simp only [hasVariadic_gauss, Bool.or_eq_false_iff] at none
    obtain ⟨⟨⟨ha, hc⟩, hw⟩, hp⟩ := none
    simp only [derivative_gauss, exponent, derivative_neg, derivative_div, derivative_mul,
      derivative_sub, derivative_const, hasVariadic_add, hasVariadic_sub, hasVariadic_mul,
      hasVariadic_div, hasVariadic_neg, hasVariadic_gauss, hasVariadic_const, ha, hc, hw, hp,
      iha ha, ihc hc, ihw hw, ihp hp, Bool.or_false]

theorem hasVariadic_derivativeBy {e : Expr} (none : e.hasVariadic = false) (names : List String) :
    (e.derivativeBy names).hasVariadic = false := by
  induction names generalizing e with
  | nil => exact none
  | cons name names ih => exact ih (hasVariadic_derivative none name)

theorem getLast?_successive (e : Expr) (name : String) (names : List String) :
    (e.successive (name :: names)).getLast? = some (e.derivativeBy (name :: names)) := by
  induction names generalizing e name with
  | nil => rfl
  | cons next names ih =>
    rw [successive, List.getLast?_cons, ih (e.derivative name) next]
    rfl

/-- Enough for the written form to be read as the formula, and kept by derivatives. -/
def Readable (n : Notation) (e : Expr) : Prop :=
  n = .bare → e.hasVariadic = false

theorem Readable.derivative {n : Notation} {e : Expr} (readable : e.Readable n) (name : String) :
    (e.derivative name).Readable n :=
  fun bare => hasVariadic_derivative (readable bare) name

end Expr

theorem parse_written {n : Notation} {e : Expr} (readable : e.Readable n) :
    parse n none (e.render n) = .ok e :=
  parse_leading fun bare => Expr.leading_of_not_hasVariadic (readable bare)

/-- The texts of the derivatives by names in turn, each of the text before it. -/
def differentiateInTurn (n : Notation) (text : String) :
    List String → Except ParseError (List String)
  | [] => .ok []
  | name :: names => do
    let next ← differentiateText n name text
    return next :: (← differentiateInTurn n next names)

theorem differentiateText_ok {n : Notation} {text : String} {e : Expr}
    (ok : parse n none text = .ok e) (name : String) :
    differentiateText n name text = .ok ((e.derivative name).render n) := by
  rw [differentiateText, ok]
  rfl

theorem differentiateText_error {n : Notation} {text : String} {err : ParseError}
    (failed : parse n none text = .error err) (name : String) :
    differentiateText n name text = .error err := by
  rw [differentiateText, failed]
  rfl

theorem differentiateInTurn_ok {n : Notation} {text : String} {e : Expr} (readable : e.Readable n)
    (ok : parse n none text = .ok e) (names : List String) :
    differentiateInTurn n text names = .ok ((e.successive names).map (·.render n)) := by
  induction names generalizing text e with
  | nil => rfl
  | cons name names ih =>
    have next := readable.derivative name
    rw [differentiateInTurn, differentiateText_ok ok]
    change (do return _ :: (← differentiateInTurn n _ names)) = _
    rw [ih next (parse_written next)]
    rfl

theorem gradientText_eq (n : Notation) (text : String) :
    gradientText n text = Variable.all.mapM fun v => differentiateText n v.name text := by
  cases read : parse n none text with
  | ok e =>
    simp only [differentiateText_ok read, gradientText, read]
    rfl
  | error err =>
    simp only [differentiateText_error read, gradientText, read]
    rfl

/-- The derivatives of a text by names in turn are those of its formula, written out, down to the last
one. A text that is no formula is refused with its error at the first step. The gradient is taken
component by component. -/
theorem differentiateText_successive (n : Notation) (text : String) :
    (∀ e, parse n none text = .ok e → (n = .bare → e.hasVariadic = false) →
      (∀ names, differentiateInTurn n text names = .ok ((e.successive names).map (·.render n))) ∧
      (∀ name names, (e.successive (name :: names)).getLast? =
        some (e.derivativeBy (name :: names))) ∧
      (n = .bare → ∀ names, (e.derivativeBy names).hasVariadic = false)) ∧
    (∀ err, parse n none text = .error err →
      (∀ name, differentiateText n name text = .error err) ∧ gradientText n text = .error err) ∧
    gradientText n text = Variable.all.mapM fun v => differentiateText n v.name text := by
  refine ⟨?_, ?_, gradientText_eq n text⟩
  · intro e ok readable
    exact ⟨differentiateInTurn_ok readable ok, e.getLast?_successive,
      fun bare => Expr.hasVariadic_derivativeBy (readable bare)⟩
  · intro err failed
    refine ⟨differentiateText_error failed, ?_⟩
    rw [gradientText, failed]
    rfl

theorem differentiateText_successive_bare :
    parse .bare none "x y * negate" = .ok (.negate (.mul (.var .x) (.var .y))) ∧
    differentiateInTurn .bare "x y * negate" ["x", "y"] =
      .ok ["1 y * x 0 * + negate", "0 y * 1 1 * + 0 0 * x 0 * + + negate"] ∧
    parse .bare none "x y" = .error ⟨.extraToken "y", ⟨"x ", ⟨2, 3⟩⟩⟩ ∧
    gradientText .bare "x y" = .error ⟨.extraToken "y", ⟨"x ", ⟨2, 3⟩⟩⟩ := by
  have ok : parse .bare none "x y * negate" = .ok (.negate (.mul (.var .x) (.var .y))) := rfl
  have failed : parse .bare none "x y" = .error ⟨.extraToken "y", ⟨"x ", ⟨2, 3⟩⟩⟩ := rfl
  obtain ⟨texts, -⟩ := (differentiateText_successive .bare "x y * negate").1 _ ok fun _ => rfl
  obtain ⟨-, gradient⟩ := (differentiateText_successive .bare "x y").2.1 _ failed
  refine ⟨ok, (texts ["x", "y"]).trans (congrArg _ ?_), failed, gradient⟩
  decide +kernel

end Formula
