import Formula.Proofs.Number.Packing

namespace Formula.Number

open Float.Model (UnpackedFloat)
open Float.Model.UnpackedFloat (Sign)

def zeroSign? (value : Float) : Option Sign :=
  match value.toModel.unpack with
  | .zero sign => some sign
  | _ => none

theorem eq_of_unpack {u w : Float} (same : u.toModel.unpack = w.toModel.unpack) : u = w := by
  have packed : u.toModel = w.toModel := by rw [← pack_unpack u.toModel, same, pack_unpack]
  exact congrArg Float.ofModel packed

theorem zeroSign?_eq_some {value : Float} {s : Sign} :
    zeroSign? value = some s ↔ value.toModel.unpack = .zero s := by
  unfold zeroSign?
  split
  · next sign zero => rw [zero, Option.some.injEq, UnpackedFloat.zero.injEq]
  · next other =>
    constructor
    · intro impossible
      cases impossible
    · intro zero
      exact absurd zero (other s)

theorem compare_eq_iff {x y : UnpackedFloat} :
    x.compare y = some .eq ↔
      x = y ∧ x ≠ .notANumber ∨ ∃ s t, x = .zero s ∧ y = .zero t := by
  have lexical {d e : Int} {m n : Nat} :
      (compare d e).then (compare m n) = .eq ↔ d = e ∧ m = n := by
    rw [Ordering.then_eq_eq, compare_eq_iff_eq, compare_eq_iff_eq]
  cases x with
  | notANumber => simp [UnpackedFloat.compare]
  | infinity s =>
    cases y with
    | infinity t => cases s <;> cases t <;> simp [UnpackedFloat.compare] <;> rfl
    | _ => cases s <;> simp [UnpackedFloat.compare]
  | zero s =>
    cases y with
    | infinity t => cases t <;> simp [UnpackedFloat.compare]
    | finite t n e positive => cases t <;> simp [UnpackedFloat.compare]
    | _ => simp [UnpackedFloat.compare]
  | finite s m d positive =>
    cases y with
    | notANumber => simp [UnpackedFloat.compare]
    | infinity t => cases s <;> cases t <;> simp [UnpackedFloat.compare]
    | zero t => cases s <;> simp [UnpackedFloat.compare]
    | finite t n e positive' =>
      cases s <;> cases t <;> simp [UnpackedFloat.compare, lexical, and_comm]

theorem beq_iff {u w : Float} :
    (u == w) = true ↔
      u = w ∧ u.isNaN = false ∨ ∃ s t, zeroSign? u = some s ∧ zeroSign? w = some t := by
  have number : u.isNaN = false ↔ u.toModel.unpack ≠ .notANumber := by
    change u.toModel.unpack.isNaN = false ↔ _
    cases u.toModel.unpack <;> simp [UnpackedFloat.isNaN]
  have compared : (u == w) = true ↔ u.toModel.unpack.compare w.toModel.unpack = some .eq := by
    change (u.toModel.unpack.compare w.toModel.unpack == some .eq) = true ↔ _
    exact beq_iff_eq
  simp only [compared, compare_eq_iff, number, zeroSign?_eq_some]
  refine or_congr_left (and_congr_left fun _ => ⟨eq_of_unpack, ?_⟩)
  rintro rfl
  rfl

theorem beq_symm {u w : Float} (equal : (u == w) = true) : (w == u) = true := by
  rw [beq_iff] at equal ⊢
  rcases equal with ⟨rfl, number⟩ | ⟨s, t, zero, zero'⟩
  · exact .inl ⟨rfl, number⟩
  · exact .inr ⟨t, s, zero', zero⟩

theorem beq_trans {t u w : Float} (first : (t == u) = true) (second : (u == w) = true) :
    (t == w) = true := by
  rw [beq_iff] at first second ⊢
  rcases first with ⟨rfl, -⟩ | ⟨r, s, zero, zero'⟩
  · exact second
  · rcases second with ⟨rfl, -⟩ | ⟨s', t, -, zero''⟩
    · exact .inr ⟨r, s, zero, zero'⟩
    · exact .inr ⟨r, t, zero, zero''⟩

/-- Of doubles that compare equal only zeros of different signs are not the same. -/
theorem eq_of_beq_of_signs {u w : Float} (equal : (u == w) = true)
    (signs : ∀ s t, zeroSign? u = some s → zeroSign? w = some t → s = t) : u = w := by
  rcases beq_iff.mp equal with ⟨same, -⟩ | ⟨s, t, zero, zero'⟩
  · exact same
  · have sign := signs s t zero zero'
    rw [zeroSign?_eq_some] at zero zero'
    exact eq_of_unpack (by rw [zero, zero', sign])

end Formula.Number
