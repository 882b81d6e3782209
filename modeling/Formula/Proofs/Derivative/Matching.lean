import Formula.Proofs.Derivative.Rules
import Formula.Proofs.Expr.Matching

namespace Formula.Expr.Matches

section Rules

variable {C : Float → Float → Prop} {V : Variable → Variable → Prop}
  {a a' b b' c c' d d' u u' v v' w w' x x' : Expr}

theorem add (left : Matches C V a b) (right : Matches C V c d) : Matches C V (a + c) (b + d) :=
  .binary .add left right

theorem sub (left : Matches C V a b) (right : Matches C V c d) : Matches C V (a - c) (b - d) :=
  .binary .sub left right

theorem mul (left : Matches C V a b) (right : Matches C V c d) : Matches C V (a * c) (b * d) :=
  .binary .mul left right

theorem div (left : Matches C V a b) (right : Matches C V c d) : Matches C V (a / c) (b / d) :=
  .binary .div left right

theorem neg (operand : Matches C V a b) : Matches C V (-a) (-b) :=
  .negate operand

theorem productRule (ha : Matches C V a b) (ha' : Matches C V a' b') (hc : Matches C V c d)
    (hc' : Matches C V c' d') :
    Matches C V (Expr.productRule a a' c c') (Expr.productRule b b' d d') :=
  (ha'.mul hc).add (ha.mul hc')

theorem quotientRule (ha : Matches C V a b) (ha' : Matches C V a' b') (hc : Matches C V c d)
    (hc' : Matches C V c' d') :
    Matches C V (Expr.quotientRule a a' c c') (Expr.quotientRule b b' d d') :=
  ((ha'.mul hc).sub (ha.mul hc')).div (hc.mul hc)

theorem binaryRule (op : BinaryOp) (ha : Matches C V a b) (ha' : Matches C V a' b')
    (hc : Matches C V c d) (hc' : Matches C V c' d') :
    Matches C V (Expr.binaryRule op a a' c c') (Expr.binaryRule op b b' d d') := by
  cases op with
  | add => exact ha'.add hc'
  | sub => exact ha'.sub hc'
  | mul => exact ha.productRule ha' hc hc'
  | div => exact ha.quotientRule ha' hc hc'

theorem gaussRule (zero : C 0 0) (one : C 1 1) (two : C 2 2) (ha : Matches C V a b)
    (ha' : Matches C V a' b') (hc : Matches C V c d) (hc' : Matches C V c' d')
    (hw : Matches C V u w) (hw' : Matches C V u' w') (hx : Matches C V v x)
    (hx' : Matches C V v' x') :
    Matches C V (Expr.gaussRule a a' c c' u u' v v') (Expr.gaussRule b b' d d' w w' x x') := by
  have distance := hx.sub hc
  have distance' := hx'.sub hc'
  have squared' := distance.productRule distance' distance distance'
  have width := hw.mul hw
  have width' := hw.productRule hw' hw hw'
  have scale := (Matches.const (V := V) two).mul width
  have scale' := (Matches.const two).productRule (.const zero) width width'
  have exponent' := ((distance.mul distance).quotientRule squared' scale scale').neg
  exact (ha'.mul (.gauss (.const one) hc hw hx)).add ((ha.gauss hc hw hx).mul exponent')

end Rules

theorem derivative {C : Float → Float → Prop} {V : Variable → Variable → Prop} (zero : C 0 0)
    (one : C 1 1) (two : C 2 2) {m n : String}
    (names : ∀ v w, V v w → (v.name = m ↔ w.name = n)) {a b : Expr} (h : Matches C V a b) :
    Matches C V (a.derivative m) (b.derivative n) := by
  induction h with
  | const _ => exact .const zero
  | @var v w related =>
    have selected := names v w related
    by_cases named : v.name = m
    · rw [Expr.derivative, Expr.derivative, if_pos named, if_pos (selected.mp named)]
      exact .const one
    · rw [Expr.derivative, Expr.derivative, if_neg named, if_neg (mt selected.mpr named)]
      exact .const zero
  | binary op left right left' right' => exact left.binaryRule op left' right right'
  | negate _ operand' => exact operand'.neg
  | @statistic s es fs operands operands' =>
    have derivatives :
        List.Forall₂ (Matches C V) (es.map (Expr.derivative m)) (fs.map (Expr.derivative n)) := by
      rw [List.forall₂_map_left_iff, List.forall₂_map_right_iff]
      exact operands'.imp fun _ _ => Exists.snd
    have center' := Matches.statistic .mean derivatives
    cases s with
    | mean =>
      rw [derivative_mean, derivative_mean]
      exact center'
    | variance =>
      have center := Matches.statistic .mean operands
      rw [derivative_variance, derivative_variance]
      refine (Matches.const two).mul (.statistic .mean ?_)
      rw [List.forall₂_map_left_iff, List.forall₂_map_right_iff]
      exact operands'.imp fun _ _ both => (both.fst.sub center).mul (both.snd.sub center')
  | gauss amplitude center width point amplitude' center' width' point' =>
    exact amplitude.gaussRule zero one two amplitude' center center' width width' point point'

end Formula.Expr.Matches
