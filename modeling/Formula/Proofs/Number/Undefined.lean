import Formula.Arithmetic
import Formula.Proofs.Number.Equality

namespace Formula

namespace Number

open Float.Model (UnpackedFloat Format)

theorem isNaN_iff {value : Float} : value.isNaN = true ↔ value = undefined := by
  change value.toModel.unpack.isNaN = true ↔ _
  constructor
  · intro nan
    apply eq_of_unpack
    cases shape : value.toModel.unpack with
    | notANumber => rfl
    | _ =>
      rw [shape] at nan
      cases nan
  · rintro rfl
    rfl

theorem undefined_binary (op : BinaryOp) (value : Float) :
    Arithmetic.double.binary op undefined value = undefined := by
  cases op <;> rfl

theorem binary_undefined (op : BinaryOp) (value : Float) :
    Arithmetic.double.binary op value undefined = undefined := by
  have right (x : UnpackedFloat) :
      x.add Format.binary64 .notANumber = .notANumber ∧
        x.sub Format.binary64 .notANumber = .notANumber ∧
        x.mul Format.binary64 .notANumber = .notANumber ∧
        x.div Format.binary64 .notANumber = .notANumber := by
    cases x <;> exact ⟨rfl, rfl, rfl, rfl⟩
  obtain ⟨add, sub, mul, div⟩ := right value.toModel.unpack
  cases op with
  | add => exact congrArg (fun x => Float.ofModel (.pack x)) add
  | sub => exact congrArg (fun x => Float.ofModel (.pack x)) sub
  | mul => exact congrArg (fun x => Float.ofModel (.pack x)) mul
  | div => exact congrArg (fun x => Float.ofModel (.pack x)) div

theorem neg_undefined : Arithmetic.double.neg undefined = undefined := rfl

end Number

end Formula
