import CpuMonitor.Proofs.Binary64.Error
import Mathlib.Algebra.Order.Ring.Abs

/-!
# What 64 bits denote

The fields of 64 bits, and the number that IEEE 754 assigns to them, without codes and units.

* `signField`, `exponentField`, `fractionField` : the fields; the last exponent stands for what is not a number or not
  finite.
* `denoted bits` : the number, as a fraction; `abs_denoted`.
* `ofBits_of_finite` : bits with another exponent than the last are read as a sign and a code of that magnitude.
* `ofBits_of_last` : bits with the last exponent.
-/

set_option autoImplicit false

namespace CpuMonitor.Binary64

/-! ## Fields -/

def signField (bits : UInt64) : ℕ := bits.toNat / 2 ^ 63

def exponentField (bits : UInt64) : ℕ := bits.toNat / 2 ^ 52 % 2 ^ 11

def fractionField (bits : UInt64) : ℕ := bits.toNat % 2 ^ 52

/-- The exponent of infinities and NaNs. -/
def lastExponent : ℕ := 2047

/-- From the second exponent on a leading one stands before the fraction, and the first two exponents have one scale.
-/
def denotedMagnitude (exponent fraction : ℕ) : ℚ :=
  if exponent = 0 then fraction / 2 ^ 52 * 2 ^ (-1022 : ℤ)
  else (1 + fraction / 2 ^ 52) * 2 ^ ((exponent : ℤ) - 1023)

/-- The number that bits denote, if their exponent is not the last one. -/
def denoted (bits : UInt64) : ℚ :=
  (-1) ^ signField bits * denotedMagnitude (exponentField bits) (fractionField bits)

theorem denotedMagnitude_nonneg (exponent fraction : ℕ) : 0 ≤ denotedMagnitude exponent fraction := by
  have hscale (e : ℤ) : (0 : ℚ) ≤ 2 ^ e := zpow_nonneg zero_le_two e
  unfold denotedMagnitude
  split
  · exact mul_nonneg (by positivity) (hscale _)
  · exact mul_nonneg (by positivity) (hscale _)

theorem abs_denoted (bits : UInt64) :
    |denoted bits| = denotedMagnitude (exponentField bits) (fractionField bits) := by
  unfold denoted
  rw [abs_mul, abs_pow, abs_neg, abs_one, one_pow, one_mul, abs_of_nonneg (denotedMagnitude_nonneg _ _)]

/-! ## Codes -/

theorem unitsOfOne_eq_mul : (unitsOfOne : ℚ) = 2 ^ 52 * 2 ^ (1022 : ℤ) := by
  obtain ⟨e, he, hone⟩ := exists_unitsOfOne_eq
  have hsplit : (e : ℤ) = (52 : ℕ) + 1022 := by omega
  rw [hone, Nat.one_shiftLeft, Nat.cast_pow, Nat.cast_ofNat, ← zpow_natCast, hsplit, zpow_add₀ two_ne_zero, zpow_natCast]

theorem magnitude_eq (code : ℕ) : magnitude code = denotedMagnitude (code / 2 ^ 52) (code % 2 ^ 52) := by
  have hscale : (2 : ℚ) ^ (1022 : ℤ) ≠ 0 := zpow_ne_zero _ two_ne_zero
  unfold magnitude denotedMagnitude
  rw [unitsOfOne_eq_mul, zpow_neg]
  simp only [units, Nat.shiftRight_eq_div_pow, Nat.one_shiftLeft]
  generalize code / 2 ^ 52 = exponent, code % 2 ^ 52 = fraction
  by_cases h : exponent = 0
  · rw [if_pos h, if_pos h, div_mul_eq_div_div, div_eq_mul_inv]
  · obtain ⟨e, rfl⟩ := Nat.exists_eq_succ_of_ne_zero h
    have hexp : ((e.succ : ℕ) : ℤ) - 1023 = e - 1022 := by omega
    have hsum : ((2 ^ 52 + fraction : ℕ) : ℚ) = 2 ^ 52 + fraction := by rw [Nat.cast_add, Nat.cast_pow, Nat.cast_ofNat]
    rw [if_neg h, if_neg h, hexp, zpow_sub₀ two_ne_zero, zpow_natCast, Nat.shiftLeft_eq, Nat.succ_sub_one, Nat.cast_mul,
      Nat.cast_pow, Nat.cast_ofNat, hsum]
    generalize (2 : ℚ) ^ (1022 : ℤ) = scale at hscale ⊢
    field_simp

/-! ## Reading bits -/

theorem code_eq (bits : UInt64) : bits.toNat % 1 <<< 63 = exponentField bits * 2 ^ 52 + fractionField bits := by
  have h := bits.toNat_lt
  rw [Nat.one_shiftLeft]
  unfold exponentField fractionField
  omega

theorem fractionField_lt (bits : UInt64) : fractionField bits < 2 ^ 52 := Nat.mod_lt _ (by decide)

theorem exponentField_le (bits : UInt64) : exponentField bits ≤ lastExponent :=
  Nat.le_of_lt_succ (Nat.mod_lt _ (by decide))

theorem isNegative_eq (bits : UInt64) : decide (1 <<< 63 ≤ bits.toNat) = decide (signField bits = 1) := by
  have h := bits.toNat_lt
  rw [Nat.one_shiftLeft, decide_eq_decide]
  unfold signField
  omega

/-- Bits without the last exponent are read as the number that they denote. -/
theorem ofBits_of_finite {bits : UInt64} (h : exponentField bits ≠ lastExponent) :
    ∃ code : Fin finiteCodes, ofBits bits = .finite (decide (signField bits = 1)) code ∧
      magnitude code = |denoted bits| := by
  have hfraction := fractionField_lt bits
  have hlast := Nat.lt_of_le_of_ne (exponentField_le bits) h
  have hcode := code_eq bits
  have hlt : bits.toNat % 1 <<< 63 < finiteCodes := by
    rw [hcode, finiteCodes, Nat.shiftLeft_eq]
    unfold lastExponent at hlast
    omega
  refine ⟨⟨_, hlt⟩, ?_, ?_⟩
  · simp only [ofBits]
    rw [if_neg (Nat.not_lt.2 (Nat.le_of_lt hlt)), ofCode, dif_pos hlt, isNegative_eq]
  · rw [magnitude_eq, abs_denoted]
    show denotedMagnitude (bits.toNat % 1 <<< 63 / 2 ^ 52) (bits.toNat % 1 <<< 63 % 2 ^ 52) = _
    rw [hcode]
    congr 1 <;> omega

/-- With the last exponent, bits are an infinity, or with a fraction a NaN. -/
theorem ofBits_of_last {bits : UInt64} (h : exponentField bits = lastExponent) :
    ofBits bits = if fractionField bits = 0 then .infinite (decide (signField bits = 1)) else .nan := by
  have hcode : bits.toNat % 1 <<< 63 = finiteCodes + fractionField bits := by
    rw [code_eq, h]
    rfl
  simp only [ofBits, isNegative_eq, hcode]
  by_cases hzero : fractionField bits = 0
  · rw [hzero, Nat.add_zero, if_neg (Nat.lt_irrefl _), if_pos rfl, ofCode, dif_neg (Nat.lt_irrefl _)]
  · rw [if_pos (Nat.lt_add_of_pos_right (Nat.pos_of_ne_zero hzero)), if_neg hzero]

end CpuMonitor.Binary64
