import Formula.Proofs.Number.Packing

namespace Formula.Number

open Float.Model
open Float.Model.UnpackedFloat

/-- How many bits of a mantissa a whole number leaves free. -/
def spare (n : Nat) : Nat :=
  52 - n.log2

theorem fill_pos {n : Nat} (positive : 0 < n) : 0 < n * 2 ^ spare n := by
  positivity

theorem log2_fill {n : Nat} (positive : 0 < n) (small : n < 2 ^ 53) :
    (n * 2 ^ spare n).log2 = 52 := by
  have bound : n.log2 < 53 := (Nat.log2_lt (Nat.ne_of_gt positive)).mpr small
  rw [log2_mul_two_pow positive, spare]
  omega

theorem le_fill {n : Nat} (positive : 0 < n) (small : n < 2 ^ 53) : 2 ^ 52 ≤ n * 2 ^ spare n := by
  have filled : n * 2 ^ spare n ≠ 0 := Nat.ne_of_gt (fill_pos positive)
  exact (Nat.le_log2 filled).mp (Nat.le_of_eq (log2_fill positive small).symm)

theorem double_fill {n : Nat} {e : Int} (positive : 0 < n) (small : n < 2 ^ 53) (least : 0 ≤ e)
    (most : e ≤ 971) : Double (n * 2 ^ spare n) (e - spare n) := by
  have filled : n * 2 ^ spare n ≠ 0 := Nat.ne_of_gt (fill_pos positive)
  have size := log2_fill positive small
  have high : n * 2 ^ spare n < 2 ^ 53 := (Nat.log2_lt filled).mp (by omega)
  have few : spare n ≤ 52 := Nat.sub_le _ _
  exact ⟨canonical_normal (le_fill positive small) high (by omega), by omega⟩

theorem fill_value (n : Nat) (e : Int) :
    ((n * 2 ^ spare n : Nat) : ℚ) * 2 ^ (e - spare n) = n * 2 ^ e := by
  rw [zpow_sub₀ (by norm_num : (2 : ℚ) ≠ 0), zpow_natCast]
  push_cast
  field_simp

theorem ofNat_eq {n : Nat} (positive : 0 < n) (small : n < 2 ^ 53) :
    ofNat Format.binary64 n =
      .finite .positive (n * 2 ^ spare n) (0 - spare n) (fill_pos positive) := by
  have double : Double (n * 2 ^ spare n) (0 - spare n) :=
    double_fill positive small (by omega) (by omega)
  have bound : n.log2 < 53 := (Nat.log2_lt (Nat.ne_of_gt positive)).mpr small
  have fits : Format.binary64.targetExponent (totalExponent n 0) = -spare n := by
    have written := target_eq n 0
    rw [target] at written
    rw [written, spare]
    omega
  have amount : (0 - -(spare n : Int)).toNat = spare n := by omega
  have ordered : compare (n : Int) 0 = .gt := Int.compare_eq_gt.mpr (by omega)
  simp only [UnpackedFloat.ofNat, UnpackedFloat.ofInt, UnpackedFloat.normalize, ordered,
    UnpackedFloat.round, decreaseExponent, fits, amount, Int.toNat_natCast, Nat.shiftLeft_eq]
  exact round_canonical _ double.toCanonical

theorem unpack_toFloat {n : Nat} (positive : 0 < n) (small : n < 2 ^ 53) :
    n.toUInt64.toFloat.toModel.unpack =
      .finite .positive (n * 2 ^ spare n) (0 - spare n) (fill_pos positive) := by
  have word : n.toUInt64.toNat = n := by
    simp
    omega
  change (Float.Model.pack (ofNat Format.binary64 n.toUInt64.toNat)).unpack = _
  rw [word, ofNat_eq positive small]
  exact unpack_pack _ (double_fill positive small (by omega) (by omega))

def powerOfTen (k : Nat) (small : k < 23) : Float :=
  getElem Float.exactlyRepresentablePowersOfTen k small

theorem powerOfTen_eq : ∀ k : Fin 23, powerOfTen k k.isLt =
    .ofModel (.pack (.finite .positive (5 ^ k.val * 2 ^ spare (5 ^ k.val)) (k - spare (5 ^ k.val))
      (fill_pos (Nat.pow_pos (by decide))))) := by
  decide +kernel

theorem five_pow_lt {k : Nat} (small : k < 23) : 5 ^ k < 2 ^ 53 := by
  calc 5 ^ k ≤ 5 ^ 22 := Nat.pow_le_pow_right (by decide) (by omega)
    _ < 2 ^ 53 := by decide

theorem unpack_powerOfTen {k : Nat} (small : k < 23) :
    (powerOfTen k small).toModel.unpack =
      .finite .positive (5 ^ k * 2 ^ spare (5 ^ k)) (k - spare (5 ^ k))
        (fill_pos (Nat.pow_pos (by decide))) := by
  have entry := powerOfTen_eq ⟨k, small⟩
  change powerOfTen k small = _ at entry
  rw [entry]
  have power : 0 < 5 ^ k := Nat.pow_pos (by decide)
  exact unpack_pack _ (double_fill power (five_pow_lt small) (by omega) (by omega))

def whole (n : Nat) : Float :=
  if n = 0 then .ofModel (.pack (.zero .positive))
  else .ofModel (.pack (round .positive (n * 2 ^ 53) (-53)))

theorem le_target {m : Nat} (e : Int) (long : 2 ^ 52 ≤ m) : e ≤ target m e := by
  have bits := (Nat.le_log2 (by omega : m ≠ 0)).mpr long
  rw [target_eq]
  omega

theorem five_pow_mul_two_zpow (k : Nat) : (5 : ℚ) ^ k * 2 ^ (k : Int) = 10 ^ k := by
  rw [zpow_natCast, ← mul_pow]
  norm_num

theorem mul_powerOfTen {c k : Nat} (positive : 0 < c) (small : c < 2 ^ 53) (few : k < 23) :
    c.toUInt64.toFloat * powerOfTen k few = whole (c * 10 ^ k) := by
  have power : 0 < 5 ^ k := Nat.pow_pos (by decide)
  have nonzero : c * 10 ^ k ≠ 0 := by positivity
  have long : 2 ^ 52 ≤ c * 2 ^ spare c * (5 ^ k * 2 ^ spare (5 ^ k)) :=
    Nat.le_trans (le_fill positive small) (Nat.le_mul_of_pos_right _ (fill_pos power))
  have scaled : 2 ^ 52 ≤ c * 10 ^ k * 2 ^ 53 := by
    have one := Nat.pos_of_ne_zero nonzero
    omega
  have value : ((c * 2 ^ spare c * (5 ^ k * 2 ^ spare (5 ^ k)) : Nat) : ℚ) *
      2 ^ ((0 - (spare c : Int)) + (k - spare (5 ^ k))) =
        (c * 10 ^ k * 2 ^ 53 : Nat) * 2 ^ (-53 : Int) := by
    rw [zpow_add₀ (by norm_num : (2 : ℚ) ≠ 0), Nat.cast_mul, mul_mul_mul_comm, fill_value,
      fill_value]
    push_cast
    rw [← five_pow_mul_two_zpow k]
    norm_num
    ring
  have rounded := round_congr .positive (by omega) (by omega) (le_target _ long)
    (le_target _ scaled) value
  change Float.ofModel (.pack (UnpackedFloat.mul Format.binary64 _ _)) = _
  rw [unpack_toFloat positive small, unpack_powerOfTen few, mul_finite, whole, if_neg nonzero,
    ← rounded]
  rfl

theorem whole_zero_powerOfTen {k : Nat} (few : k < 23) :
    (0 : Nat).toUInt64.toFloat * powerOfTen k few = whole 0 := by
  have none : (0 : Nat).toUInt64.toFloat.toModel.unpack = .zero .positive := by rfl
  change Float.ofModel (.pack (UnpackedFloat.mul Format.binary64 _ _)) = _
  rw [none, unpack_powerOfTen few]
  rfl

theorem toFloat_whole (c : Nat) {k : Nat} (few : k ≤ 2048) :
    Decimal.toFloat ⟨c, k⟩ = whole (c * 10 ^ k) := by
  have sign : decide ((k : Int) < 0) = false := decide_eq_false (by omega)
  rw [Decimal.toFloat, sign, Int.natAbs_natCast, Float.ofScientific]
  by_cases fast : c < 2 ^ 53 ∧ k ≤ 22
  · rw [dif_pos fast]
    rcases Nat.eq_zero_or_pos c with rfl | positive
    · rw [Nat.zero_mul]
      exact whole_zero_powerOfTen (by omega)
    · exact mul_powerOfTen positive fast.1 (by omega)
  · rw [dif_neg fast]
    change Float.ofModel (.pack (UnpackedFloat.ofScientific Format.binary64 c k)) = _
    have near : ¬ (k : Int) > 2 ^ 11 := by omega
    have above : ¬ (k : Int) < -(2 ^ 11 + c.log2) := by omega
    by_cases zero : c = 0
    · rw [zero, Nat.zero_mul]
      rfl
    · have nonzero : c * 10 ^ k ≠ 0 := by positivity
      simp only [UnpackedFloat.ofScientific, dif_neg zero, if_neg near, if_neg above,
        if_pos (Int.natCast_nonneg k), mul_finite, whole, if_neg nonzero, Int.toNat_natCast,
        Nat.shiftLeft_eq, Int.add_zero]
      rw [Nat.mul_right_comm]
      rfl

theorem whole_double {m : Nat} {k : Nat} (h : Double m k) :
    whole (m * 2 ^ k) = .ofModel (.pack (.finite .positive m k h.positive)) := by
  have positive := h.positive
  have nonzero : m * 2 ^ k ≠ 0 := by positivity
  have value : ((m * 2 ^ k * 2 ^ 53 : Nat) : ℚ) * 2 ^ (-53 : Int) = m * 2 ^ (k : Int) := by
    push_cast
    norm_num
    ring
  have le : (-53 : Int) ≤ k := by omega
  rw [whole, if_neg nonzero,
    round_of_le _ h.positive (Int.le_of_eq h.fits.symm) value le, round_canonical _ h.toCanonical]

/-- The quotient of a whole number by a power of ten, where that is a double. -/
theorem ofScientific_exact {c j m : Nat} {e : Int} (positive : 0 < c) (some : 0 < j)
    (few : j ≤ 1074) (h : Double m e) (value : (c : ℚ) = 10 ^ j * (m * 2 ^ e)) :
    Float.ofScientific c true j = .ofModel (.pack (.finite .positive m e h.positive)) := by
  rw [Float.ofScientific]
  by_cases fast : c < 2 ^ 53 ∧ j ≤ 22
  · have small : j < 23 := by omega
    have quotient : ((c * 2 ^ spare c : Nat) : ℚ) * 2 ^ (0 - (spare c : Int)) =
        (5 ^ j * 2 ^ spare (5 ^ j) : Nat) * 2 ^ ((j : Int) - spare (5 ^ j)) * (m * 2 ^ e) := by
      rw [fill_value, fill_value, value, ← five_pow_mul_two_zpow j]
      push_cast
      ring
    rw [dif_pos fast]
    change Float.ofModel (.pack (UnpackedFloat.div Format.binary64 _
      (powerOfTen j small).toModel.unpack)) = _
    rw [unpack_toFloat positive fast.1, unpack_powerOfTen small,
      div_exact _ _ _ _ h.toCanonical quotient]
    rfl
  · have exponent : Int.negOfNat j = -j := Int.negOfNat_eq
    have near : ¬ -(j : Int) > 2 ^ 11 := by omega
    have above : ¬ -(j : Int) < -(2 ^ 11 + c.log2) := by omega
    have below : ¬ 0 ≤ -(j : Int) := by omega
    have quotient : (c : ℚ) * 2 ^ (0 : Int) = (10 ^ j : Nat) * 2 ^ (0 : Int) * (m * 2 ^ e) := by
      rw [value]
      push_cast
      ring
    rw [dif_neg fast]
    change Float.ofModel (.pack (UnpackedFloat.ofScientific Format.binary64 c (Int.negOfNat j))) = _
    simp only [UnpackedFloat.ofScientific, exponent, dif_neg (Nat.ne_of_gt positive), if_neg near,
      if_neg above, if_neg below, Int.neg_neg, Int.toNat_natCast]
    rw [div_exact _ _ _ _ h.toCanonical quotient]
    rfl

theorem toFloat_ofBinary {m : Nat} {e : Int} (h : Double m e) :
    (Decimal.ofBinary m e).toFloat = .ofModel (.pack (.finite .positive m e h.positive)) := by
  have positive := h.positive
  rcases lt_or_ge e 0 with negative | nonneg
  · have least : -1074 ≤ e := by
      have fits := h.fits
      rw [target_eq] at fits
      omega
    have places : e = -(e.natAbs : Int) := by omega
    have some : 0 < e.natAbs := by omega
    have few : e.natAbs ≤ 1074 := by omega
    have value : ((m * 5 ^ e.natAbs : Nat) : ℚ) = 10 ^ e.natAbs * (m * 2 ^ e) := by
      rw [places, Int.natAbs_neg, Int.natAbs_natCast, ← five_pow_mul_two_zpow, zpow_neg]
      push_cast
      field_simp
    rw [Decimal.ofBinary, if_neg (by omega), Decimal.toFloat, decide_eq_true negative]
    exact ofScientific_exact (Nat.mul_pos positive (Nat.pow_pos (by decide))) some few h value
  · obtain ⟨k, rfl⟩ := Int.eq_ofNat_of_zero_le nonneg
    have read := toFloat_whole (m * 2 ^ k) (Nat.zero_le 2048)
    rw [Decimal.ofBinary, if_pos nonneg, Int.toNat_natCast, Nat.shiftLeft_eq, ← whole_double h]
    rw [Nat.pow_zero, Nat.mul_one] at read
    exact read

end Formula.Number
