import Formula.Proofs.Number.Rounding

namespace Formula.Number

open Float.Model
open Float.Model.UnpackedFloat

/-- A mantissa and an exponent that are those of a finite double. -/
structure Double (mantissa : Nat) (exponent : Int) : Prop extends Canonical mantissa exponent where
  bounded : exponent ≤ 971

theorem log2_eq_fiftytwo {m : Nat} (low : 2 ^ 52 ≤ m) (high : m < 2 ^ 53) : m.log2 = 52 := by
  have nonzero : m ≠ 0 := by omega
  exact (Nat.log2_eq_iff nonzero).mpr ⟨low, high⟩

theorem canonical_normal {m : Nat} {e : Int} (low : 2 ^ 52 ≤ m) (high : m < 2 ^ 53)
    (least : -1074 ≤ e) : Canonical m e := by
  constructor
  · omega
  · rw [target_eq, log2_eq_fiftytwo low high]
    omega

theorem canonical_subnormal {m : Nat} (positive : 0 < m) (small : m < 2 ^ 52) :
    Canonical m (-1074) := by
  have bound := (Nat.log2_lt (Nat.ne_of_gt positive)).mpr small
  constructor
  · exact positive
  · rw [target_eq]
    omega

theorem Canonical.cases {m : Nat} {e : Int} (h : Canonical m e) :
    2 ^ 52 ≤ m ∧ m < 2 ^ 53 ∧ -1074 ≤ e ∨ m < 2 ^ 52 ∧ e = -1074 := by
  have nonzero : m ≠ 0 := Nat.ne_of_gt h.positive
  have fits := h.fits
  rw [target_eq] at fits
  rcases Nat.lt_or_ge m (2 ^ 52) with small | large
  · right
    have bound := (Nat.log2_lt nonzero).mpr small
    constructor <;> omega
  · left
    have bound := (Nat.le_log2 nonzero).mpr large
    have high : m < 2 ^ 53 := (Nat.log2_lt nonzero).mp (by omega)
    refine ⟨large, high, ?_⟩
    omega

theorem toNat_implicit (k : BitVec 52) : (1#1 ++ k).toNat = 2 ^ 52 + k.toNat := by
  rw [BitVec.toNat_append, ← Nat.shiftLeft_add_eq_or_of_lt k.isLt]
  rfl

abbrev word (s : Sign) (x : BitVec 11) (k : BitVec 52) : BitVec 64 :=
  packComponents Format.binary64 s x k

theorem unpack_word_normal (s : Sign) (x : BitVec 11) (k : BitVec 52) (some : x ≠ 0#11)
    (notAll : x ≠ -1#11) :
    unpack Format.binary64 (word s x k) =
      .finite s (2 ^ 52 + k.toNat) (x.toNat - 1075) (by omega) := by
  rw [UnpackedFloat.unpack, if_neg (by simpa using notAll), if_neg (by simpa using some)]
  simp only [unpackSign_packComponents, Sign.ofBitVec_toBitVec, unpackExponent_packComponents,
    unpackMantissa_packComponents, toNat_implicit]
  rfl

theorem unpack_word_subnormal (s : Sign) (k : BitVec 52) (some : 0 < k.toNat) :
    unpack Format.binary64 (word s 0#11 k) = .finite s k.toNat (-1074) some := by
  have nonzero : k ≠ 0#52 := by
    rintro rfl
    exact Nat.lt_irrefl 0 some
  rw [UnpackedFloat.unpack, if_neg (by simp), if_pos (by simp), dif_neg (by simpa using nonzero)]
  simp only [unpackSign_packComponents, Sign.ofBitVec_toBitVec, unpackExponent_packComponents,
    unpackMantissa_packComponents]
  rfl

theorem pack_normal (s : Sign) {m : Nat} {e : Int} (low : 2 ^ 52 ≤ m) (high : m < 2 ^ 53)
    (most : e ≤ 971) (positive : 0 < m) :
    UnpackedFloat.pack Format.binary64 (.finite s m e positive) =
      word s (BitVec.ofNat 11 (e + 1075).toNat) (BitVec.ofNat 52 m) := by
  have biased : (e + Format.binary64.exponentBias + (52 : Nat)).toNat = (e + 1075).toNat := by
    have bias : (Format.binary64.exponentBias : Int) = 1023 := rfl
    omega
  have inside : ¬ 2 ^ 11 ≤ (e + 1075).toNat + 1 := by omega
  simp only [UnpackedFloat.pack]
  rw [biased, if_neg inside, log2_eq_fiftytwo low high]
  rfl

theorem pack_subnormal (s : Sign) {m : Nat} (positive : 0 < m) (small : m < 2 ^ 52) :
    UnpackedFloat.pack Format.binary64 (.finite s m (-1074) positive) =
      word s 0#11 (BitVec.ofNat 52 m) := by
  have bound := (Nat.log2_lt (Nat.ne_of_gt positive)).mpr small
  have short : ¬ m.log2 + 1 = Format.binary64.mantissaBits := by
    have bits : Format.binary64.mantissaBits = 53 := rfl
    omega
  simp only [UnpackedFloat.pack]
  rw [if_neg (by decide), if_neg short]

theorem unpack_pack (s : Sign) {m : Nat} {e : Int} (h : Double m e) :
    (Float.Model.pack (.finite s m e h.positive)).unpack = .finite s m e h.positive := by
  have most := h.bounded
  change unpack Format.binary64 (UnpackedFloat.pack Format.binary64 _) = _
  rcases h.toCanonical.cases with ⟨low, high, least⟩ | ⟨small, rfl⟩
  · have exponent : (BitVec.ofNat 11 (e + 1075).toNat).toNat = (e + 1075).toNat := by
      rw [BitVec.toNat_ofNat]
      omega
    rw [pack_normal s low high most, unpack_word_normal]
    · congr 1
      · rw [BitVec.toNat_ofNat]
        omega
      · omega
    · intro zero
      rw [zero] at exponent
      simp at exponent
      omega
    · intro all
      rw [all] at exponent
      simp at exponent
      omega
  · have mantissa : (BitVec.ofNat 52 m).toNat = m := by
      rw [BitVec.toNat_ofNat]
      omega
    rw [pack_subnormal s h.positive small,
      unpack_word_subnormal _ _ (by rw [mantissa]; exact h.positive)]
    congr 1

theorem double_normal (x : BitVec 11) (k : BitVec 52) (some : x ≠ 0#11) (notAll : x ≠ -1#11) :
    Double (2 ^ 52 + k.toNat) (x.toNat - 1075) := by
  have mantissa := k.isLt
  have exponent := x.isLt
  have notLast : x.toNat ≠ 2047 := fun h => notAll (BitVec.eq_of_toNat_eq h)
  have notFirst : x.toNat ≠ 0 := fun h => some (BitVec.eq_of_toNat_eq h)
  exact ⟨canonical_normal (by omega) (by omega) (by omega), by omega⟩

theorem double_of_unpack {f : Float.Model} {s : Sign} {m : Nat} {e : Int} {positive : 0 < m}
    (finite : f.unpack = .finite s m e positive) : Double m e := by
  change UnpackedFloat.unpack Format.binary64 f.toBits.toBitVec = _ at finite
  rw [UnpackedFloat.unpack] at finite
  split at finite
  · split at finite <;> cases finite
  · next notAll =>
    split at finite
    · next zero =>
      split at finite
      · cases finite
      · cases finite
        rw [zero]
        exact ⟨canonical_subnormal positive (BitVec.isLt _), by decide⟩
    · next some =>
      cases finite
      have double := double_normal _ (@unpackMantissa Format.binary64 f.toBits.toBitVec) some notAll
      rw [← toNat_implicit] at double
      exact double

theorem pack_unpack (f : Float.Model) : Float.Model.pack f.unpack = f := by
  obtain ⟨bits, valid⟩ := f
  have packed := pack_unpack_of_valid valid
  simp only [Float.Model.pack, Float.Model.unpack, packed]

end Formula.Number
