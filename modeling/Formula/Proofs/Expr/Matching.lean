import Mathlib.Data.List.Forall2
import Formula.Expr.Query
import Formula.Proofs.Expr.Dependence
import Formula.Proofs.Expr.Variadic

/-!
Formulas of one shape. Their operations are the same, place by place; their constants and their
variables are related in a way that is left open.
-/

namespace Formula.Expr

section Matching

variable {C D E : Float → Float → Prop} {V W X : Variable → Variable → Prop}

theorem forall₂_trans {α : Type} {R S T : α → α → Prop} (step : ∀ a b c, R a b → S b c → T a c)
    {as bs cs : List α} (first : List.Forall₂ R as bs) (second : List.Forall₂ S bs cs) :
    List.Forall₂ T as cs := by
  induction first generalizing cs with
  | nil =>
    cases second
    exact .nil
  | cons head _ ih =>
    cases second with
    | cons head' tail' => exact .cons (step _ _ _ head head') (ih tail')

/-- The formulas differ in their leaves at most: constants at the same place are related by `C`,
variables by `V`. -/
inductive Matches (C : Float → Float → Prop) (V : Variable → Variable → Prop) : Expr → Expr → Prop
  | const {a b : Float} (related : C a b) : Matches C V (.const a) (.const b)
  | var {v w : Variable} (related : V v w) : Matches C V (.var v) (.var w)
  | binary (op : BinaryOp) {l l' r r' : Expr} (left : Matches C V l l') (right : Matches C V r r') :
      Matches C V (.binary op l r) (.binary op l' r')
  | negate {e e' : Expr} (operand : Matches C V e e') : Matches C V (.negate e) (.negate e')
  | statistic (s : Statistic) {es es' : List Expr} (operands : List.Forall₂ (Matches C V) es es') :
      Matches C V (.statistic s es) (.statistic s es')
  | gauss {a a' c c' w w' p p' : Expr} (amplitude : Matches C V a a') (center : Matches C V c c')
      (width : Matches C V w w') (point : Matches C V p p') :
      Matches C V (.gauss a c w p) (.gauss a' c' w' p')

namespace Matches

@[induction_eliminator]
theorem induction {motive : ∀ a b, Matches C V a b → Prop}
    (const : ∀ {a b} (related : C a b), motive _ _ (.const related))
    (var : ∀ {v w} (related : V v w), motive _ _ (.var related))
    (binary : ∀ op {l l' r r'} (left : Matches C V l l') (right : Matches C V r r'),
      motive _ _ left → motive _ _ right → motive _ _ (.binary op left right))
    (negate : ∀ {e e'} (operand : Matches C V e e'), motive _ _ operand →
      motive _ _ (.negate operand))
    (statistic : ∀ s {es es'} (operands : List.Forall₂ (Matches C V) es es'),
      List.Forall₂ (fun e e' => ∃ h, motive e e' h) es es' → motive _ _ (.statistic s operands))
    (gauss : ∀ {a a' c c' w w' p p'} (amplitude : Matches C V a a') (center : Matches C V c c')
      (width : Matches C V w w') (point : Matches C V p p'), motive _ _ amplitude →
      motive _ _ center → motive _ _ width → motive _ _ point →
      motive _ _ (.gauss amplitude center width point))
    {a b : Expr} (h : Matches C V a b) : motive a b h :=
  @Matches.rec C V motive (fun es es' _ => List.Forall₂ (fun e e' => ∃ h, motive e e' h) es es')
    const var binary negate statistic gauss .nil (fun _ _ head tail => .cons ⟨_, head⟩ tail) a b h

theorem mono (consts : ∀ u w, C u w → D u w) (vars : ∀ v w, V v w → W v w) {a b : Expr}
    (h : Matches C V a b) : Matches D W a b := by
  induction h with
  | const related => exact .const (consts _ _ related)
  | var related => exact .var (vars _ _ related)
  | binary op _ _ left right => exact .binary op left right
  | negate _ operand => exact .negate operand
  | statistic s _ operands => exact .statistic s (operands.imp fun _ _ => Exists.snd)
  | gauss _ _ _ _ amplitude center width point => exact .gauss amplitude center width point

theorem symm (consts : ∀ u w, C u w → D w u) (vars : ∀ v w, V v w → W w v) {a b : Expr}
    (h : Matches C V a b) : Matches D W b a := by
  induction h with
  | const related => exact .const (consts _ _ related)
  | var related => exact .var (vars _ _ related)
  | binary op _ _ left right => exact .binary op left right
  | negate _ operand => exact .negate operand
  | statistic s _ operands =>
    have turned := operands.imp fun _ _ => Exists.snd
    exact .statistic s turned.flip
  | gauss _ _ _ _ amplitude center width point => exact .gauss amplitude center width point

theorem trans {a b c : Expr} (h : Matches C V a b) (g : Matches D W b c)
    (consts : ∀ t u w, C t u → D u w → E t w) (vars : ∀ u v w, V u v → W v w → X u w) :
    Matches E X a c := by
  induction h generalizing c with
  | const related =>
    cases g with
    | const next => exact .const (consts _ _ _ related next)
  | var related =>
    cases g with
    | var next => exact .var (vars _ _ _ related next)
  | binary op _ _ left right =>
    cases g with
    | binary _ left' right' => exact .binary op (left left') (right right')
  | negate _ operand =>
    cases g with
    | negate operand' => exact .negate (operand operand')
  | statistic s _ operands =>
    cases g with
    | statistic _ operands' =>
      exact .statistic s (forall₂_trans (fun _ _ _ both next => both.snd next) operands operands')
  | gauss _ _ _ _ amplitude center width point =>
    cases g with
    | gauss amplitude' center' width' point' =>
      exact .gauss (amplitude amplitude') (center center') (width width') (point point')

theorem refl {e : Expr} (vars : ∀ v, e.contains v = true → V v v) : Matches Eq V e e := by
  have below {e f : Expr} (vars : ∀ v, e.contains v = true → V v v) (operand : f ∈ e.operands) :
      ∀ v, f.contains v = true → V v v := fun v occurs =>
    vars v (contains_of_operand operand occurs)
  induction e with
  | const value => exact .const rfl
  | var v => exact .var (vars v ((contains_iff_mem_subterms _ v).mpr (self_mem_subterms _)))
  | binary op left right ihl ihr =>
    exact .binary op (ihl (below vars (by simp [operands]))) (ihr (below vars (by simp [operands])))
  | negate operand ih => exact .negate (ih (below vars (by simp [operands])))
  | statistic s es ih =>
    exact .statistic s (List.forall₂_same.mpr fun e occurs => ih e occurs (below vars occurs))
  | gauss a c w p iha ihc ihw ihp =>
    exact .gauss (iha (below vars (by simp [operands]))) (ihc (below vars (by simp [operands])))
      (ihw (below vars (by simp [operands]))) (ihp (below vars (by simp [operands])))

theorem eq {a b : Expr} (h : Matches Eq Eq a b) : a = b := by
  induction h with
  | const related => rw [related]
  | var related => rw [related]
  | binary op _ _ left right => rw [left, right]
  | negate _ operand => rw [operand]
  | statistic s _ operands =>
    have same := operands.imp fun _ _ => Exists.snd
    rw [List.forall₂_eq_eq_eq] at same
    rw [same]
  | gauss _ _ _ _ amplitude center width point => rw [amplitude, center, width, point]

/-- Replacing the leaves of both and then every operation keeps what holds of the replaced leaves and
what the operations keep. -/
theorem fold_rel {α β : Type} {R : α → β → Prop} {const : Float → α} {const' : Float → β}
    {var : Variable → α} {var' : Variable → β} {node : Operation → List α → α}
    {node' : Operation → List β → β} (consts : ∀ u w, C u w → R (const u) (const' w))
    (vars : ∀ v w, V v w → R (var v) (var' w))
    (nodes : ∀ op as bs, List.Forall₂ R as bs → R (node op as) (node' op bs)) {a b : Expr}
    (h : Matches C V a b) : R (a.fold const var node) (b.fold const' var' node') := by
  induction h with
  | const related => exact consts _ _ related
  | var related => exact vars _ _ related
  | binary op _ _ left right => exact nodes _ _ _ (.cons left (.cons right .nil))
  | negate _ operand => exact nodes _ _ _ (.cons operand .nil)
  | statistic s _ operands =>
    rw [fold, fold, foldAll_eq_map, foldAll_eq_map]
    apply nodes
    rw [List.forall₂_map_left_iff, List.forall₂_map_right_iff]
    exact operands.imp fun _ _ => Exists.snd
  | gauss _ _ _ _ amplitude center width point =>
    exact nodes _ _ _ (.cons amplitude (.cons center (.cons width (.cons point .nil))))

theorem fold_eq {α : Type} {const : Float → α} {var : Variable → α} {node : Operation → List α → α}
    (consts : ∀ u w, C u w → const u = const w) (vars : ∀ v w, V v w → var v = var w) {a b : Expr}
    (h : Matches C V a b) : a.fold const var node = b.fold const var node := by
  refine h.fold_rel consts vars ?_
  intro op as bs same
  rw [List.forall₂_eq_eq_eq] at same
  rw [same]

theorem exists_of_contains {a b : Expr} (h : Matches C V a b) {v : Variable}
    (occurs : a.contains v = true) : ∃ w, V v w := by
  refine @fold_rel C V Bool Unit (fun found _ => found = true → ∃ w, V v w) _ (fun _ => ()) _
    (fun _ => ()) _ (fun _ _ => ()) ?_ ?_ ?_ a b h occurs
  · intro u w _ impossible
    cases impossible
  · intro u w related found
    exact ⟨w, eq_of_beq found ▸ related⟩
  · intro op found others inner
    induction inner with
    | nil =>
      intro impossible
      cases impossible
    | cons head _ ih =>
      intro any
      rw [List.any_cons, Bool.or_eq_true] at any
      exact any.elim head ih

theorem of_places {a b : Expr} (h : Matches C V a b)
    (places : ∀ path u w, a.at? path = some (.const u) → b.at? path = some (.const w) →
      C u w → D u w) : Matches D V a b := by
  induction h with
  | const related => exact .const (places [] _ _ rfl rfl related)
  | var related => exact .var related
  | binary op _ _ left right =>
    exact .binary op (left fun path => places (0 :: path)) (right fun path => places (1 :: path))
  | negate _ operand => exact .negate (operand fun path => places (0 :: path))
  | statistic s _ operands =>
    rw [List.forall₂_iff_get] at operands
    refine .statistic s (List.forall₂_iff_get.mpr ⟨operands.1, ?_⟩)
    intro i inside inside'
    obtain ⟨_, inner⟩ := operands.2 i inside inside'
    refine inner fun path u w found found' => places (i :: path) u w ?_ ?_
    · exact (at?_cons (List.getElem?_eq_getElem inside) path).trans found
    · exact (at?_cons (List.getElem?_eq_getElem inside') path).trans found'
  | gauss _ _ _ _ amplitude center width point =>
    exact .gauss (amplitude fun path => places (0 :: path)) (center fun path => places (1 :: path))
      (width fun path => places (2 :: path)) (point fun path => places (3 :: path))

end Matches
end Matching

end Formula.Expr
