import CpuMonitor.Proofs.Binary64.Error
import Mathlib.Algebra.Order.Floor.Semifield
import Mathlib.Data.Rat.Floor

/-!
# Rounded quotients beside the halves

Where a quotient of two whole numbers is rounded to a double first and to a whole number then, the first rounding could
take it across a half, and the second one would go to the wrong side. It does not: a quotient that is no number of halves
is farther from all of them than one rounding goes, and a number of halves is a double.

* `half_le_magnitude_iff` : a rounded quotient lies on the same side of each half as the exact one.
* `roundToNat_quotient` : the whole number that a rounded quotient is rounded to is that of the exact one.
* `div_eq_floor` : this number is the nearest one, and of two that are as near the greater.
-/

set_option autoImplicit false

namespace CpuMonitor.Binary64

theorem magnitude_halves {j : Nat} (h : j < 1 <<< 53) : magnitude (nearestCode (j * unitsOfOne) 2) = j / 2 := by
  obtain ⟨e, he, hone⟩ := exists_unitsOfOne_eq
  obtain ⟨d, rfl⟩ : ∃ d, e = d + 1 := ⟨1073, he⟩
  rw [Nat.one_shiftLeft, Nat.pow_succ] at hone
  have hscaled : j * unitsOfOne = j <<< d * 2 := by rw [hone, Nat.shiftLeft_eq, Nat.mul_assoc]
  have hexact : units (nearestCode (j <<< d * 2) 2) = j <<< d :=
    units_nearestCode Nat.two_pos (shiftLeft_eq_shift h (by omega))
  rw [magnitude, hscaled, hexact, hone, Nat.shiftLeft_eq]
  push_cast
  field_simp

section Quotient
variable {a b j : Nat}

theorem magnitude_of_half (hb : 0 < b) (hj : j < 1 <<< 53) (h : j * b = 2 * a) :
    magnitude (nearestCode (a * unitsOfOne) b) = j / 2 := by
  have hscaled : 2 * (a * unitsOfOne) = b * (j * unitsOfOne) := by
    rw [← Nat.mul_assoc, ← h, Nat.mul_comm j b, Nat.mul_assoc]
  rw [← nearestCode_mul_left Nat.two_pos, hscaled, Nat.mul_comm 2 b, nearestCode_mul_left hb, magnitude_halves hj]

section Apart
variable (ha : a < 1 <<< 52) (hb : 0 < b) (hb' : b ≤ 1 <<< 64)
include ha hb hb'

theorem magnitude_lt_half (h : 2 * a < j * b) : magnitude (nearestCode (a * unitsOfOne) b) < j / 2 := by
  have hb'' : (0 : ℚ) < b := Nat.cast_pos.2 hb
  have ha' : (a : ℚ) < 2 ^ 52 := by exact_mod_cast ha
  have hgap : (2 * a + 1 : ℚ) ≤ j * b := by exact_mod_cast h
  refine (within_mul_unitsOfOne a hb hb').upper.trans_lt ?_
  rw [pow_one, ← mul_div_assoc, div_lt_div_iff₀ hb'' two_pos, roundoff]
  linarith

theorem half_lt_magnitude (h : j * b < 2 * a) : (j / 2 : ℚ) < magnitude (nearestCode (a * unitsOfOne) b) := by
  have hb'' : (0 : ℚ) < b := Nat.cast_pos.2 hb
  have ha' : (a : ℚ) < 2 ^ 52 := by exact_mod_cast ha
  have hgap : (j * b + 1 : ℚ) ≤ 2 * a := by exact_mod_cast h
  refine lt_of_lt_of_le ?_ (within_mul_unitsOfOne a hb hb').lower
  rw [pow_one, ← mul_div_assoc, div_lt_div_iff₀ two_pos hb'', roundoff]
  linarith

/-- Rounding a quotient does not take it across a half. -/
theorem half_le_magnitude_iff : (j / 2 : ℚ) ≤ magnitude (nearestCode (a * unitsOfOne) b) ↔ j * b ≤ 2 * a := by
  rcases Nat.lt_trichotomy (j * b) (2 * a) with hlt | heq | hgt
  · exact iff_of_true (half_lt_magnitude ha hb hb' hlt).le hlt.le
  · have hj : j < 1 <<< 53 := by
      have hle : j ≤ j * b := Nat.le_mul_of_pos_right j hb
      omega
    exact iff_of_true (magnitude_of_half hb hj heq).ge heq.le
  · exact iff_of_false (magnitude_lt_half ha hb hb' hgt).not_ge hgt.not_ge

/-- A rounded quotient and the exact one are rounded to the same whole number. -/
theorem roundToNat_quotient (limit : Nat) :
    (ofRatio false (a * unitsOfOne) b).roundToNat limit = min limit ((2 * a + b) / (2 * b)) := by
  have hfin : nearestCode (a * unitsOfOne) b < finiteCodes := by
    obtain ⟨e, he, hone⟩ := exists_unitsOfOne_eq
    refine nearestCode_lt (k := 52 + e) (by omega) (Nat.lt_of_le_of_lt (Nat.div_le_self _ _) ?_)
    rw [hone, Nat.one_shiftLeft, Nat.pow_add]
    exact Nat.mul_lt_mul_of_pos_right ha (Nat.two_pow_pos e)
  unfold ofRatio
  rw [roundToNat_ofCode hfin]
  congr 1
  refine eq_of_forall_le_iff fun n => ?_
  cases n with
  | zero => exact iff_of_true (Nat.zero_le _) (Nat.zero_le _)
  | succ n =>
    -- a number is rounded to `n + 1` or more from `(2 * n + 1) / 2` on
    have hside := half_le_magnitude_iff ha hb hb' (j := 2 * n + 1)
    have hhalf : ((n + 1 : Nat) : ℚ) - 1 / 2 = (2 * n + 1 : Nat) / 2 := by
      push_cast
      ring
    have hsplit : (n + 1) * (2 * b) = (2 * n + 1) * b + b := by ring
    rw [le_div_iff_le_magnitude, ← sub_le_iff_le_add, hhalf, hside, Nat.le_div_iff_mul_le (by omega), hsplit]
    omega

end Apart

theorem div_eq_floor (a : Nat) (hb : 0 < b) : (2 * a + b) / (2 * b) = ⌊(a / b + 1 / 2 : ℚ)⌋₊ := by
  have hb' : (b : ℚ) ≠ 0 := Nat.cast_ne_zero.2 hb.ne'
  have hsum : (a / b + 1 / 2 : ℚ) = (2 * a + b : Nat) / (2 * b : Nat) := by
    push_cast
    field_simp
  rw [hsum, Nat.floor_div_eq_div]

end Quotient

end CpuMonitor.Binary64
