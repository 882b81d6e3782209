import Formula.Proofs.Derivative.Matching
import Formula.Proofs.Expr.Undefined

namespace Formula

/-- The points have the same double for the variable, or neither has a number for it. -/
def Point.Agree (p q : Point) (v : Variable) : Prop :=
  (∃ value, p[v.index]? = some value ∧ q[v.index]? = some value) ∨ p.Lacks v ∧ q.Lacks v

theorem Point.coordinate_eq_of_agree {p q : Point} {v : Variable} (agree : p.Agree q v) :
    p.coordinate v = q.coordinate v := by
  rcases agree with ⟨value, left, right⟩ | ⟨left, right⟩
  · rw [coordinate, coordinate, left, right]
  · rw [coordinate_of_lacks left, coordinate_of_lacks right]

namespace Expr

/-- Formulas that match themselves by the variables of `e` have no others. -/
abbrev Within (e f : Expr) : Prop :=
  Matches Eq (fun v w => v = w ∧ e.contains v = true) f f

theorem within_self (e : Expr) : e.Within e :=
  Matches.refl fun _ occurs => ⟨rfl, occurs⟩

theorem Within.contains {e f : Expr} (within : e.Within f) {v : Variable}
    (occurs : f.contains v = true) : e.contains v = true := by
  obtain ⟨_, -, found⟩ := within.exists_of_contains occurs
  exact found

theorem Within.derivative {e f : Expr} (within : e.Within f) (name : String) :
    e.Within (f.derivative name) :=
  Matches.derivative rfl rfl rfl (fun _ _ related => by rw [related.1]) within

theorem Within.derivativeBy {e f : Expr} (within : e.Within f) (names : List String) :
    e.Within (f.derivativeBy names) := by
  induction names generalizing f with
  | nil => exact within
  | cons name names ih => exact ih (within.derivative name)

theorem derivative_eq_of_absent {e : Expr} {m n : String}
    (absent : ∀ v, e.contains v = true → v.name ≠ m ∧ v.name ≠ n) :
    e.derivative m = e.derivative n := by
  apply Matches.eq
  have names : ∀ v w, v = w ∧ e.contains v = true → (v.name = m ↔ w.name = n) := by
    rintro v w ⟨rfl, occurs⟩
    exact iff_of_false (absent v occurs).1 (absent v occurs).2
  exact (Matches.derivative rfl rfl rfl names e.within_self).mono (fun _ _ => id) fun _ _ => And.left

/-- Derivatives by any names in turn have only variables of the formula. Points that agree at these
give them the same value, and names that are none of theirs the same derivative. -/
theorem derivativeBy_dependence (e : Expr) (names : List String) :
    (∀ v, (e.derivativeBy names).contains v = true → e.contains v = true) ∧
      (∀ p q : Point, (∀ v, e.contains v = true → p.Agree q v) →
        (e.derivativeBy names).evaluate p = (e.derivativeBy names).evaluate q) ∧
      (∀ m n, (∀ v, e.contains v = true → v.name ≠ m ∧ v.name ≠ n) →
        e.derivative m = e.derivative n) := by
  have within := e.within_self.derivativeBy names
  refine ⟨fun v => within.contains, ?_, fun m n => derivative_eq_of_absent⟩
  intro p q agree
  apply valueIn_congr
  intro v occurs
  exact Point.coordinate_eq_of_agree (agree v (within.contains occurs))

theorem derivativeBy_dependence_short :
    (∀ v, (mean [var .x * var .z, var .z]).contains v = true →
      Point.Agree [2.5, 1] [2.5, 7, Number.undefined] v) ∧
      ((mean [var .x * var .z, var .z]).derivativeBy ["x", "q"]).evaluate [2.5, 1] =
        ((mean [var .x * var .z, var .z]).derivativeBy ["x", "q"]).evaluate
          [2.5, 7, Number.undefined] ∧
      (∀ v, (mean [var .x * var .z, var .z]).contains v = true → v.name ≠ "y" ∧ v.name ≠ "q") ∧
      (mean [var .x * var .z, var .z]).derivative "y" =
        (mean [var .x * var .z, var .z]).derivative "q" := by
  have agree : ∀ v, (mean [var .x * var .z, var .z]).contains v = true →
      Point.Agree [2.5, 1] [2.5, 7, Number.undefined] v := by
    intro v occurs
    cases v with
    | x => exact .inl ⟨2.5, rfl, rfl⟩
    | y => cases occurs
    | z =>
      refine .inr ⟨?_, ?_⟩
      · intro value found
        cases found
      · intro value found
        cases found
        decide
  have absent : ∀ v, (mean [var .x * var .z, var .z]).contains v = true →
      v.name ≠ "y" ∧ v.name ≠ "q" := by
    intro v occurs
    cases v with
    | x => decide
    | y => cases occurs
    | z => decide
  have laws := derivativeBy_dependence (mean [var .x * var .z, var .z]) ["x", "q"]
  exact ⟨agree, laws.2.1 _ _ agree, absent, laws.2.2 _ _ absent⟩

end Expr

end Formula
