import Mathlib
import Formula.Number

/-! Rounding to doubles. It depends on the number only and not on how many zeros its mantissa ends
with; a number that is a double stays as it is, also as a quotient. -/

namespace Formula.Number

open Float.Model
open Float.Model.UnpackedFloat

def target (mantissa : Nat) (exponent : Int) : Int :=
  Format.binary64.targetExponent (totalExponent mantissa exponent)

/-- A mantissa and an exponent as doubles have them. -/
structure Canonical (mantissa : Nat) (exponent : Int) : Prop where
  positive : 0 < mantissa
  fits : target mantissa exponent = exponent

def round (sign : Sign) (mantissa : Nat) (exponent : Int) : UnpackedFloat :=
  roundWithAccuracy Format.binary64 sign mantissa exponent .exact

theorem target_eq (m : Nat) (e : Int) : target m e = max (m.log2 + e - 52) (-1074) := by
  have bits : (Format.binary64.mantissaBits : Int) = 53 := rfl
  have least : Format.binary64.minExponent = -1074 := rfl
  rw [target, Format.targetExponent, totalExponent, bits, least]
  omega

theorem log2_mul_two_pow {m : Nat} (positive : 0 < m) (k : Nat) :
    (m * 2 ^ k).log2 = m.log2 + k := by
  induction k with
  | zero => simp
  | succ k ih =>
    have nonzero : m * 2 ^ k ≠ 0 := by positivity
    rw [Nat.pow_succ, ← Nat.mul_assoc, Nat.mul_comm, Nat.log2_two_mul nonzero, ih]
    omega

theorem log2_mul_le {m n : Nat} (hm : 0 < m) (hn : 0 < n) : (m * n).log2 ≤ m.log2 + n.log2 + 1 := by
  have product : m * n < 2 ^ (m.log2 + 1) * 2 ^ (n.log2 + 1) :=
    Nat.mul_lt_mul'' Nat.lt_log2_self Nat.lt_log2_self
  rw [← Nat.pow_add] at product
  have bound := (Nat.log2_lt (by positivity : m * n ≠ 0)).mpr product
  omega

theorem target_mul_two_pow {m : Nat} (positive : 0 < m) (e : Int) (k : Nat) :
    target (m * 2 ^ k) (e - k) = target m e := by
  rw [target_eq, target_eq, log2_mul_two_pow positive]
  congr 1
  omega

theorem shiftRight_add (em : ExtendedMantissa) (j k : Nat) : em >>> (j + k) = (em >>> k) >>> j := by
  change (j + k).repeat ExtendedMantissa.shiftRightOne em =
    j.repeat ExtendedMantissa.shiftRightOne (k.repeat ExtendedMantissa.shiftRightOne em)
  induction j with
  | zero => rw [Nat.zero_add]; rfl
  | succ j ih => rw [Nat.succ_add, Nat.repeat, ih, Nat.repeat]

theorem shiftRight_zeros (m k : Nat) :
    (⟨m * 2 ^ k, false, false⟩ : ExtendedMantissa) >>> k = ⟨m, false, false⟩ := by
  induction k generalizing m with
  | zero => rw [Nat.pow_zero, Nat.mul_one]; rfl
  | succ k ih =>
    have step : (⟨m * 2, false, false⟩ : ExtendedMantissa) >>> 1 = ⟨m, false, false⟩ := by
      change (⟨m * 2 / 2, m * 2 % 2 != 0, false || false⟩ : ExtendedMantissa) = _
      simp
    rw [Nat.add_comm, shiftRight_add, Nat.add_comm, Nat.pow_succ, Nat.mul_comm (2 ^ k),
      ← Nat.mul_assoc, ih, step]

theorem shiftToTarget_mul_two_pow {m : Nat} {e : Int} (positive : 0 < m) (fine : e ≤ target m e)
    (k : Nat) :
    shiftToTargetExponent Format.binary64 (m * 2 ^ k) (e - k) .exact =
      shiftToTargetExponent Format.binary64 m e .exact := by
  have same := target_mul_two_pow positive e k
  unfold target at same fine
  have more : (target m e - (e - k)).toNat = (target m e - e).toNat + k := by
    unfold target
    omega
  unfold target at more
  simp only [shiftToTargetExponent, shiftToExponent, same, more,
    ExtendedMantissa.ofMantissaAndAccuracy, shiftRight_add, shiftRight_zeros]
  congr 1
  omega

theorem round_mul_two_pow (s : Sign) {m : Nat} {e : Int} (positive : 0 < m) (fine : e ≤ target m e)
    (k : Nat) : round s (m * 2 ^ k) (e - k) = round s m e := by
  simp only [round, roundWithAccuracy, shiftToTarget_mul_two_pow positive fine]

theorem round_canonical (s : Sign) {m : Nat} {e : Int} (h : Canonical m e) :
    round s m e = .finite s m e h.positive := by
  have fits := h.fits
  have nonzero : m ≠ 0 := Nat.ne_of_gt h.positive
  have shift : shiftToTargetExponent Format.binary64 m e .exact = (⟨m, false, false⟩, e) := by
    unfold target at fits
    simp only [shiftToTargetExponent, shiftToExponent, fits, ExtendedMantissa.ofMantissaAndAccuracy]
    simp
    rfl
  simp only [round, roundWithAccuracy, shift, ExtendedMantissa.roundedMantissa,
    ExtendedMantissa.accuracy, Accuracy.roundToNearestEven, dif_neg nonzero]

theorem two_zpow_of_le {e f : Int} (le : e ≤ f) : (2 : ℚ) ^ f = 2 ^ (f - e).toNat * 2 ^ e := by
  rw [← zpow_natCast, ← zpow_add₀ (by norm_num : (2 : ℚ) ≠ 0)]
  congr 1
  omega

/-- Of two ways to write a number, the one with the smaller exponent has zeros at its end. -/
theorem eq_mul_two_pow {m n : Nat} {e f : Int} (same : (m : ℚ) * 2 ^ e = n * 2 ^ f) (le : e ≤ f) :
    m = n * 2 ^ (f - e).toNat := by
  rw [two_zpow_of_le le, ← mul_assoc] at same
  have power : (2 : ℚ) ^ e ≠ 0 := zpow_ne_zero e two_ne_zero
  have cancelled := mul_right_cancel₀ power same
  exact_mod_cast cancelled

theorem log2_congr {m n : Nat} {e f : Int} (hm : 0 < m) (hn : 0 < n)
    (same : (m : ℚ) * 2 ^ e = n * 2 ^ f) : m.log2 + e = n.log2 + f := by
  rcases Int.le_total e f with le | le
  · rw [eq_mul_two_pow same le, log2_mul_two_pow hn]
    omega
  · rw [eq_mul_two_pow same.symm le, log2_mul_two_pow hm]
    omega

theorem round_of_le (s : Sign) {m n : Nat} {e f : Int} (hn : 0 < n) (fine : f ≤ target n f)
    (same : (m : ℚ) * 2 ^ e = n * 2 ^ f) (le : e ≤ f) : round s m e = round s n f := by
  have shifted : e = f - (f - e).toNat := by omega
  calc round s m e
      = round s (n * 2 ^ (f - e).toNat) (f - (f - e).toNat) := by
        rw [eq_mul_two_pow same le, ← shifted]
    _ = round s n f := round_mul_two_pow s hn fine _

theorem round_congr (s : Sign) {m n : Nat} {e f : Int} (hm : 0 < m) (hn : 0 < n)
    (em : e ≤ target m e) (fn : f ≤ target n f) (same : (m : ℚ) * 2 ^ e = n * 2 ^ f) :
    round s m e = round s n f := by
  rcases Int.le_total e f with le | le
  · exact round_of_le s hn fn same le
  · exact (round_of_le s hm em same.symm le).symm

theorem mul_finite (s t : Sign) {m n : Nat} (e f : Int) (hm : 0 < m) (hn : 0 < n) :
    mul Format.binary64 (.finite s m e hm) (.finite t n f hn) = round (s * t) (m * n) (e + f) := rfl

theorem div_exact (s t : Sign) {m n q : Nat} {e f g : Int} (hm : 0 < m) (hn : 0 < n)
    (hq : Canonical q g) (same : (m : ℚ) * 2 ^ e = n * 2 ^ f * (q * 2 ^ g)) :
    div Format.binary64 (.finite s m e hm) (.finite t n f hn) =
      .finite (s / t) q g hq.positive := by
  have product : (m : ℚ) * 2 ^ (e - f) = (n * q : Nat) * 2 ^ g := by
    rw [zpow_sub₀ (by norm_num : (2 : ℚ) ≠ 0), ← mul_div_assoc, same]
    push_cast
    field_simp
  have size := log2_congr hm (Nat.mul_pos hn hq.positive) product
  have bound := log2_mul_le hn hq.positive
  have fits := hq.fits
  rw [target_eq] at fits
  -- The quotient is taken with an exponent that is small enough to hold all of its bits.
  obtain ⟨low, taken⟩ : ∃ low, low =
      min (e - f) (Format.binary64.targetExponent (totalExponent m e - totalExponent n f)) :=
    ⟨_, rfl⟩
  have enough : low ≤ g := by
    have bits : (Format.binary64.mantissaBits : Int) = 53 := rfl
    have least : Format.binary64.minExponent = -1074 := rfl
    rw [Format.targetExponent, totalExponent, totalExponent, bits, least] at taken
    omega
  have shifted : m * 2 ^ (e - f - low).toNat = n * (q * 2 ^ (g - low).toNat) := by
    have rescaled :
        ((m * 2 ^ (e - f - low).toNat : Nat) : ℚ) * 2 ^ low = (n * q : Nat) * 2 ^ g := by
      have le : low ≤ e - f := by omega
      rw [← product, two_zpow_of_le le, ← mul_assoc]
      push_cast
      rfl
    rw [← Nat.mul_assoc]
    exact eq_mul_two_pow rescaled enough
  have core : divCore Format.binary64 m e n f = (q * 2 ^ (g - low).toNat, low, .exact) := by
    simp only [divCore, ← taken, Nat.shiftLeft_eq, shifted, Nat.mul_div_cancel_left _ hn,
      Nat.mul_mod_right, accuracyOfFraction, if_true]
  have back : low = g - (g - low).toNat := by omega
  calc div Format.binary64 (.finite s m e hm) (.finite t n f hn)
      = round (s / t) (q * 2 ^ (g - low).toNat) low := by
        simp only [UnpackedFloat.div, core]
        rfl
    _ = round (s / t) (q * 2 ^ (g - low).toNat) (g - (g - low).toNat) := by rw [← back]
    _ = round (s / t) q g := round_mul_two_pow _ hq.positive (Int.le_of_eq hq.fits.symm) _
    _ = .finite (s / t) q g hq.positive := round_canonical _ hq

end Formula.Number
