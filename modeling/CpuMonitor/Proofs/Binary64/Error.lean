import CpuMonitor.Proofs.Binary64.Whole
import Mathlib.Algebra.Order.Field.Rat
import Mathlib.Tactic.FieldSimp
import Mathlib.Tactic.GCongr
import Mathlib.Tactic.Linarith
import Mathlib.Tactic.NormNum
import Mathlib.Tactic.Positivity
import Mathlib.Tactic.Ring

/-!
# How far rounding is off

A rounded quotient differs from the exact one by one part in `2^53` at most, unless it is so small that it has fewer
bits. Magnitudes are compared as fractions here.

* `magnitude` : the number that a code stands for.
* `Within k exact approx` : `approx` is off from `exact` by no more than `k` roundings; sums keep this (`Within.add`), and
  one rounding more adds to it (`Within.trans`).
* `within_nearestCode` : a quotient is off by one rounding.
* `roundToNat_le`, `le_roundToNat` : a magnitude against the whole number that it is rounded to.
* `Duration.seconds_cases`, `Duration.within_secondsCode` : a duration in seconds is off by two roundings.
-/

set_option autoImplicit false

namespace CpuMonitor.Binary64

/-! ## One rounding -/

theorem units_nearestCode_mul {num den : Nat} (hden : 0 < den) (h : 1 <<< 52 ≤ num / den) :
    ∃ step, 0 < step ∧ 1 <<< 52 * step ≤ num ∧ units (nearestCode num den) * den = divEven num step * step := by
  have hne : num / den ≠ 0 := by omega
  have hlog : 52 ≤ Nat.log2 (num / den) := (Nat.le_log2 hne).2 h
  have hlow : 2 ^ Nat.log2 (num / den) ≤ num / den := Nat.log2_self_le hne
  have hhigh : num / den < 2 ^ (Nat.log2 (num / den) + 1) := Nat.lt_log2_self
  have hbits : Nat.log2 (num / den) = 52 + (Nat.log2 (num / den) - 52) := by omega
  simp only [nearestCode]
  generalize Nat.log2 (num / den) - 52 = s at hbits ⊢
  rw [hbits] at hlow hhigh
  have hstep : den <<< s = den * 2 ^ s := Nat.shiftLeft_eq den s
  have hpos : 0 < den <<< s := by
    rw [hstep]
    exact Nat.mul_pos hden (Nat.two_pow_pos s)
  have hquot : num / den <<< s = num / den / 2 ^ s := by rw [hstep, Nat.div_div_eq_div_mul]
  have hlead : 2 ^ 52 ≤ num / den <<< s := by
    rw [hquot, Nat.le_div_iff_mul_le (Nat.two_pow_pos s), ← Nat.pow_add]
    exact hlow
  have hlead' : num / den <<< s < 2 ^ 53 := by
    rw [hquot, Nat.div_lt_iff_lt_mul (Nat.two_pow_pos s), ← Nat.pow_add]
    exact Nat.lt_of_lt_of_eq hhigh (by congr 1; omega)
  have hround := div_le_divEven num (den <<< s)
  have hround' := divEven_le_succ_div num (den <<< s)
  refine ⟨den <<< s, hpos, (Nat.le_div_iff_mul_le hpos).1 hlead, ?_⟩
  rw [units_shift_add (by omega) (.inr (by omega)), hstep, Nat.shiftLeft_eq, Nat.mul_assoc, Nat.mul_comm (2 ^ s)]

/-- Rounding moves a quotient by one part in `2^53` at most. -/
theorem units_nearestCode_near {num den : Nat} (hden : 0 < den) (h : num = 0 ∨ 1 <<< 52 ≤ num / den) :
    1 <<< 53 * num ≤ 1 <<< 53 * (units (nearestCode num den) * den) + num ∧
      1 <<< 53 * (units (nearestCode num den) * den) ≤ 1 <<< 53 * num + num := by
  rcases h with rfl | h
  · have hzero : units (nearestCode (0 * den) den) = 0 := units_nearestCode (m := 0) hden (Nat.zero_shiftLeft _).symm
    rw [Nat.zero_mul] at hzero
    rw [hzero]
    omega
  · obtain ⟨step, hpos, hle, hunits⟩ := units_nearestCode_mul hden h
    have hlow := le_divEven num step hpos
    have hhigh := divEven_le num step hpos
    rw [hunits]
    generalize divEven num step * step = rounded at hlow hhigh ⊢
    omega

/-! ## Magnitudes -/

def magnitude (code : Nat) : ℚ := units code / unitsOfOne

/-- How far one rounding is off, in parts of the exact number. -/
def roundoff : ℚ := 1 / 2 ^ 53

/-- A number that differs from the exact one by no more than so many roundings. -/
structure Within (roundings : Nat) (exact approx : ℚ) : Prop where
  lower : (1 - roundoff) ^ roundings * exact ≤ approx
  upper : approx ≤ (1 + roundoff) ^ roundings * exact

namespace Within
variable {k : Nat} {a b x y : ℚ}

theorem add (h : Within k a x) (h' : Within k b y) : Within k (a + b) (x + y) where
  lower := by
    rw [mul_add]
    exact add_le_add h.lower h'.lower
  upper := by
    rw [mul_add]
    exact add_le_add h.upper h'.upper

theorem trans (h : Within k a x) (h' : Within 1 x y) : Within (k + 1) a y where
  lower := by
    have hpos : (0 : ℚ) ≤ 1 - roundoff := by norm_num [roundoff]
    calc (1 - roundoff) ^ (k + 1) * a = (1 - roundoff) * ((1 - roundoff) ^ k * a) := by ring
      _ ≤ (1 - roundoff) * x := mul_le_mul_of_nonneg_left h.lower hpos
      _ ≤ y := by simpa using h'.lower
  upper := by
    have hpos : (0 : ℚ) ≤ 1 + roundoff := by norm_num [roundoff]
    calc y ≤ (1 + roundoff) * x := by simpa using h'.upper
      _ ≤ (1 + roundoff) * ((1 + roundoff) ^ k * a) := mul_le_mul_of_nonneg_left h.upper hpos
      _ = (1 + roundoff) ^ (k + 1) * a := by ring

end Within

theorem unitsOfOne_cast_pos : (0 : ℚ) < unitsOfOne := Nat.cast_pos.2 unitsOfOne_pos

/-- A quotient that is zero or has 53 bits is moved by one rounding at most. -/
theorem within_nearestCode {num den : Nat} (hden : 0 < den) (h : num = 0 ∨ 1 <<< 52 ≤ num / den) :
    Within 1 (num / den / unitsOfOne) (magnitude (nearestCode num den)) := by
  obtain ⟨hlow, hhigh⟩ := units_nearestCode_near hden h
  unfold magnitude
  generalize units (nearestCode num den) = rounded at hlow hhigh ⊢
  have hone := unitsOfOne_cast_pos
  generalize (unitsOfOne : ℚ) = one at hone ⊢
  have hden' : (0 : ℚ) < den := Nat.cast_pos.2 hden
  have hlow' : (2 ^ 53 * num : ℚ) ≤ 2 ^ 53 * (rounded * den) + num := by exact_mod_cast hlow
  have hhigh' : (2 ^ 53 * (rounded * den) : ℚ) ≤ 2 ^ 53 * num + num := by exact_mod_cast hhigh
  constructor
  · rw [pow_one, ← mul_div_assoc, ← mul_div_assoc]
    gcongr
    rw [div_le_iff₀ hden', roundoff]
    linarith
  · rw [pow_one, ← mul_div_assoc, ← mul_div_assoc]
    gcongr
    rw [le_div_iff₀ hden', roundoff]
    linarith

/-- A rounded quotient is zero or a number of 53 bits again. -/
theorem units_nearestCode_normal {num den : Nat} (hden : 0 < den) (h : num = 0 ∨ 1 <<< 53 ≤ num / den) :
    units (nearestCode num den) = 0 ∨ 1 <<< 52 ≤ units (nearestCode num den) := by
  rcases h with rfl | h
  · left
    have hzero : units (nearestCode (0 * den) den) = 0 := units_nearestCode (m := 0) hden (Nat.zero_shiftLeft _).symm
    rwa [Nat.zero_mul] at hzero
  · exact .inr (le_units (le_nearestCode h))

theorem nearestCode_lt {num den k : Nat} (hk : k ≤ 2000) (h : num / den < 2 ^ k) :
    nearestCode num den < finiteCodes := by
  have hlog : Nat.log2 (num / den) ≤ 2000 := by
    by_cases hzero : num / den = 0
    · rw [hzero]
      exact Nat.zero_le _
    · exact Nat.le_trans (Nat.le_of_lt ((Nat.log2_lt hzero).2 h)) hk
  refine Nat.lt_of_le_of_lt (nearestCode_le num den) ?_
  generalize Nat.log2 (num / den) = bits at hlog ⊢
  rw [finiteCodes, Nat.shiftLeft_eq, Nat.shiftLeft_eq]
  omega

theorem units_lt {code : Nat} (h : code < finiteCodes) : ∃ k, k ≤ 2098 ∧ units code < 2 ^ k := by
  have hexp : code >>> 52 ≤ 2046 := by
    rw [Nat.shiftRight_eq_div_pow]
    rw [finiteCodes, Nat.shiftLeft_eq] at h
    omega
  have hfraction : code % 1 <<< 52 < 1 <<< 52 := Nat.mod_lt _ (by decide)
  have hbit : (1 : Nat) <<< 52 = 2 ^ 52 := rfl
  simp only [units]
  split
  · exact ⟨52, by omega, hfraction⟩
  · refine ⟨53 + (code >>> 52 - 1), by omega, ?_⟩
    rw [Nat.shiftLeft_eq (1 <<< 52 + _), Nat.pow_add]
    exact Nat.mul_lt_mul_of_pos_right (by omega) (Nat.two_pow_pos _)

theorem ofCode_add_ofCode {a b : Nat} (ha : a < finiteCodes) (hb : b < finiteCodes) :
    ofCode false a + ofCode false b = ofCode false (nearestCode (units a + units b) 1) := by
  have hsum : ofCode false a + ofCode false b = ofUnits false ((units a + units b : Nat) : Int) := by
    rw [ofCode, dif_pos ha, ofCode, dif_pos hb]
    rfl
  rw [hsum, ofUnits_natCast]
  rfl

/-! ## Rounding to whole numbers -/

theorem roundToNat_ofCode {code : Nat} (h : code < finiteCodes) (limit : Nat) :
    (ofCode false code).roundToNat limit = min limit ((2 * units code + unitsOfOne) / (2 * unitsOfOne)) := by
  rw [ofCode, dif_pos h]
  simp only [roundToNat, Bool.false_eq_true, if_false]

theorem le_div_iff_le_magnitude {n code : Nat} :
    n ≤ (2 * units code + unitsOfOne) / (2 * unitsOfOne) ↔ (n : ℚ) ≤ magnitude code + 1 / 2 := by
  have hone := unitsOfOne_pos
  unfold magnitude
  generalize unitsOfOne = one at hone ⊢
  have hone' : (0 : ℚ) < one := Nat.cast_pos.2 hone
  rw [Nat.le_div_iff_mul_le (by omega), ← Nat.cast_le (α := ℚ), ← sub_le_iff_le_add, le_div_iff₀ hone']
  push_cast
  constructor <;> intro h <;> linarith

theorem roundToNat_le {code limit : Nat} (h : code < finiteCodes) :
    ((ofCode false code).roundToNat limit : ℚ) ≤ magnitude code + 1 / 2 := by
  rw [← le_div_iff_le_magnitude, roundToNat_ofCode h]
  exact Nat.min_le_right _ _

theorem le_roundToNat {n code limit : Nat} (hlimit : n ≤ limit) (h : (n : ℚ) ≤ magnitude code + 1 / 2) :
    n ≤ (ofCode false code).roundToNat limit := by
  by_cases hfin : code < finiteCodes
  · rw [roundToNat_ofCode hfin]
    exact Nat.le_min.2 ⟨hlimit, le_div_iff_le_magnitude.2 h⟩
  · rw [ofCode, dif_neg hfin]
    exact hlimit

/-! ## Whole numbers -/

/-- The exponent of one is kept apart, as the power is too large a number to compute with. -/
theorem exists_unitsOfOne_eq : ∃ e, e = 1074 ∧ unitsOfOne = 1 <<< e := ⟨_, rfl, rfl⟩

theorem le_mul_unitsOfOne_div {n den : Nat} (hn : 0 < n) (hden : 0 < den) (h : den ≤ 1 <<< 64) :
    1 <<< 53 ≤ n * unitsOfOne / den := by
  rw [Nat.le_div_iff_mul_le hden]
  calc 1 <<< 53 * den ≤ 1 <<< 53 * 1 <<< 64 := Nat.mul_le_mul_left _ h
    _ ≤ unitsOfOne := by decide +kernel
    _ ≤ n * unitsOfOne := Nat.le_mul_of_pos_left _ hn

theorem normal_mul_unitsOfOne (n : Nat) {den : Nat} (hden : 0 < den) (h : den ≤ 1 <<< 64) :
    n * unitsOfOne = 0 ∨ 1 <<< 53 ≤ n * unitsOfOne / den := by
  rcases Nat.eq_zero_or_pos n with rfl | hn
  · exact .inl (Nat.zero_mul _)
  · exact .inr (le_mul_unitsOfOne_div hn hden h)

end CpuMonitor.Binary64

namespace CpuMonitor
open Binary64

theorem within_mul_unitsOfOne (n : Nat) {den : Nat} (hden : 0 < den) (h : den ≤ 1 <<< 64) :
    Within 1 (n / den) (magnitude (nearestCode (n * unitsOfOne) den)) := by
  have hnear := within_nearestCode hden ((normal_mul_unitsOfOne n hden h).imp_right (Nat.le_trans (by decide)))
  have hone := unitsOfOne_cast_pos
  have hcast : ((n * unitsOfOne : Nat) / den / unitsOfOne : ℚ) = n / den := by
    rw [Nat.cast_mul]
    generalize (unitsOfOne : ℚ) = one at hone ⊢
    field_simp
  rwa [hcast] at hnear

namespace Duration
variable (d : Duration)

/-- The code of the part of a duration behind the whole seconds. -/
def restCode : Nat := nearestCode (d.nanoseconds % 1000000000 * unitsOfOne) 1000000000

def secondsCode : Nat := nearestCode (units (wholeCode d.wholeSeconds) + units d.restCode) 1

theorem restCode_lt : d.restCode < finiteCodes := by
  obtain ⟨e, he, hone⟩ := exists_unitsOfOne_eq
  refine nearestCode_lt (k := 30 + e) (by omega) (Nat.lt_of_le_of_lt (Nat.div_le_self _ _) ?_)
  rw [hone, Nat.one_shiftLeft, Nat.pow_add]
  exact Nat.mul_lt_mul_of_pos_right (by omega) (Nat.two_pow_pos e)

theorem seconds_eq_add : d.seconds = ofNat d.wholeSeconds + ofCode false d.restCode := by
  have hrest : ofNat (d.nanoseconds % 1000000000) / ofNat 1000000000 = ofCode false d.restCode :=
    ofNat_div_ofNat (by omega) (by decide) (by decide)
  unfold seconds
  rw [hrest]

theorem seconds_eq_ofCode (h : wholeCode d.wholeSeconds < finiteCodes) : d.seconds = ofCode false d.secondsCode := by
  rw [d.seconds_eq_add]
  exact ofCode_add_ofCode h d.restCode_lt

theorem seconds_eq_infinite (h : ¬ wholeCode d.wholeSeconds < finiteCodes) : d.seconds = .infinite false := by
  rw [d.seconds_eq_add, ofCode, dif_pos d.restCode_lt]
  show ofCode false (wholeCode d.wholeSeconds) + _ = _
  rw [ofCode, dif_neg h]
  rfl

theorem seconds_cases : d.seconds = .infinite false ∨
    d.secondsCode < finiteCodes ∧ d.seconds = ofCode false d.secondsCode := by
  by_cases hwhole : wholeCode d.wholeSeconds < finiteCodes
  · rw [d.seconds_eq_ofCode hwhole]
    by_cases hfin : d.secondsCode < finiteCodes
    · exact .inr ⟨hfin, rfl⟩
    · exact .inl (by rw [ofCode, dif_neg hfin])
  · exact .inl (d.seconds_eq_infinite hwhole)

/-- A duration in seconds is rounded twice. -/
theorem within_secondsCode : Within 2 (d.nanoseconds / 1000000000) (magnitude d.secondsCode) := by
  have hwhole : Within 1 (d.wholeSeconds / (1 : Nat)) (magnitude (wholeCode d.wholeSeconds)) :=
    within_mul_unitsOfOne d.wholeSeconds Nat.one_pos (by decide)
  have hrest : Within 1 ((d.nanoseconds % 1000000000 : Nat) / (1000000000 : Nat)) (magnitude d.restCode) :=
    within_mul_unitsOfOne (d.nanoseconds % 1000000000) (by decide) (by decide)
  have hsplit : (d.wholeSeconds / (1 : Nat) + (d.nanoseconds % 1000000000 : Nat) / (1000000000 : Nat) : ℚ) =
      d.nanoseconds / 1000000000 := by
    have h : 1000000000 * d.wholeSeconds + d.nanoseconds % 1000000000 = d.nanoseconds := Nat.div_add_mod _ _
    have h' : (1000000000 * d.wholeSeconds + (d.nanoseconds % 1000000000 : Nat) : ℚ) = d.nanoseconds := by exact_mod_cast h
    rw [← h']
    push_cast
    ring
  have hnormal := units_nearestCode_normal Nat.one_pos
    (normal_mul_unitsOfOne d.wholeSeconds Nat.one_pos (by decide))
  have hnormal' := units_nearestCode_normal (show 0 < 1000000000 by decide)
    (normal_mul_unitsOfOne (d.nanoseconds % 1000000000) (by decide) (by decide))
  have hnormalSum : units (wholeCode d.wholeSeconds) + units d.restCode = 0 ∨
      1 <<< 52 ≤ (units (wholeCode d.wholeSeconds) + units d.restCode) / 1 := by
    unfold wholeCode restCode
    rw [Nat.div_one]
    omega
  have hsum := within_nearestCode Nat.one_pos hnormalSum
  have hcast : ((units (wholeCode d.wholeSeconds) + units d.restCode : Nat) / (1 : Nat) / unitsOfOne : ℚ) =
      magnitude (wholeCode d.wholeSeconds) + magnitude d.restCode := by
    unfold magnitude
    rw [Nat.cast_add, Nat.cast_one, div_one, add_div]
  rw [hcast] at hsum
  rw [← hsplit]
  exact (hwhole.add hrest).trans hsum

theorem seconds_of_lt (h : d.wholeSeconds < 1 <<< 53) :
    d.secondsCode < finiteCodes ∧ d.seconds = ofCode false d.secondsCode := by
  refine ⟨?_, d.seconds_eq_ofCode (wholeCode_lt h)⟩
  have hrest := (units_nearestCode_near (show 0 < 1000000000 by decide)
    ((normal_mul_unitsOfOne (d.nanoseconds % 1000000000) (by decide) (by decide)).imp_right (Nat.le_trans (by decide)))).2
  have hone := unitsOfOne_pos
  have hsum : units (wholeCode d.wholeSeconds) + units d.restCode < 2 ^ 54 * unitsOfOne := by
    have hwhole := Nat.mul_le_mul_right unitsOfOne (Nat.le_of_lt h)
    have hrest' := Nat.mul_le_mul_right unitsOfOne (Nat.le_of_lt (Nat.mod_lt d.nanoseconds (show 0 < 1000000000 by decide)))
    rw [units_wholeCode h]
    unfold restCode
    generalize units (nearestCode _ 1000000000) = rest at hrest ⊢
    generalize unitsOfOne = one at hone hwhole hrest hrest' ⊢
    omega
  obtain ⟨e, he, heq⟩ := exists_unitsOfOne_eq
  rw [Nat.one_shiftLeft] at heq
  refine nearestCode_lt (k := 54 + e) (by omega) ?_
  rw [Nat.div_one, Nat.pow_add, ← heq]
  exact hsum

end Duration

end CpuMonitor
