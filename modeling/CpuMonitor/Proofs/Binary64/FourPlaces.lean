import CpuMonitor.Proofs.Binary64.Whole
import CpuMonitor.Series.Rates

/-!
# Rounding to four places

The product and the sum are rounded as all arithmetic is, and the floor is not: that of a double is a double. So the
result is the double nearest to a whole number of ten-thousandths.

* `nearestCode_units` : a magnitude is its own rounding.
* `exists_units_eq_shift` : a magnitude has 53 bits, shifted.
* `unitsOfOne_dvd_units` : the magnitudes from `2^52` on are whole numbers.
* `exists_ofUnits_eq` : the greatest whole number below a double is a double.
* `round4_eq_ofRatio`, `round4_of_infinite`, `round4_of_nan` : what numbers are rounded to.
-/

set_option autoImplicit false

namespace CpuMonitor.Binary64

/-! ## Magnitudes -/

theorem nearestCode_units (code : Nat) : nearestCode (units code) 1 = code := by
  have hbit : (1 : Nat) <<< 52 = 2 ^ 52 := rfl
  have hcode : code / 2 ^ 52 * 2 ^ 52 + code % 2 ^ 52 = code := Nat.div_add_mod' _ _
  have hfraction : code % 2 ^ 52 < 2 ^ 52 := Nat.mod_lt _ (by decide)
  have hexact (m s : Nat) : divEven (m <<< s) (1 <<< s) = m := by
    rw [Nat.shiftLeft_eq, Nat.one_shiftLeft, divEven_mul _ _ (Nat.two_pow_pos s)]
  simp only [units, nearestCode, Nat.div_one, hbit]
  rw [Nat.shiftRight_eq_div_pow]
  generalize code / 2 ^ 52 = exponent at hcode ⊢
  generalize code % 2 ^ 52 = fraction at hcode hfraction ⊢
  subst hcode
  cases exponent with
  | zero =>
    have hlog : Nat.log2 fraction - 52 = 0 := by
      rcases Nat.eq_zero_or_pos fraction with rfl | hpos
      · rfl
      · have hlt := (Nat.log2_lt (by omega)).2 hfraction
        omega
    have hunshifted := hexact fraction 0
    rw [Nat.shiftLeft_zero] at hunshifted
    rw [if_pos rfl, hlog, hunshifted]
    omega
  | succ exponent =>
    have hlog : Nat.log2 (2 ^ 52 + fraction) = 52 := (Nat.log2_eq_iff (by omega)).2 ⟨by omega, by omega⟩
    rw [if_neg (Nat.succ_ne_zero _), Nat.add_sub_cancel, log2_shiftLeft (by omega), hlog, Nat.add_sub_cancel_left,
      hexact, Nat.shiftLeft_eq]
    omega

theorem exists_units_eq_shift (code : Nat) : ∃ m s, m < 1 <<< 53 ∧ units code = m <<< s := by
  have hfraction : code % 1 <<< 52 < 1 <<< 52 := Nat.mod_lt _ (by decide)
  simp only [units]
  split
  · exact ⟨_, 0, by omega, Nat.shiftLeft_zero.symm⟩
  · exact ⟨_, _, by omega, rfl⟩

theorem unitsOfOne_dvd_units {code : Nat} (h : 1 <<< 52 * unitsOfOne ≤ units code) : unitsOfOne ∣ units code := by
  obtain ⟨m, s, hm, hunits⟩ := exists_units_eq_shift code
  rw [hunits, mul_unitsOfOne, Nat.shiftLeft_eq _ 1074, Nat.shiftLeft_eq m] at h
  rw [hunits, unitsOfOne, Nat.one_shiftLeft, Nat.shiftLeft_eq]
  -- 53 bits stay below `2^52` ones until they are shifted by all the places of one
  have hs : 1074 ≤ s := by
    refine Nat.le_of_not_lt fun hlt => Nat.not_le.2 ?_ h
    calc m * 2 ^ s < 1 <<< 52 * 2 * 2 ^ s := Nat.mul_lt_mul_of_pos_right hm (Nat.two_pow_pos s)
      _ = 1 <<< 52 * 2 ^ (s + 1) := by rw [Nat.mul_assoc, ← Nat.pow_succ']
      _ ≤ 1 <<< 52 * 2 ^ 1074 := Nat.mul_le_mul_left _ (Nat.pow_le_pow_right (by decide) hlt)
  exact Nat.dvd_mul_left_of_dvd (Nat.pow_dvd_pow 2 hs) _

/-- A whole number less than one away from a magnitude is itself a magnitude. -/
theorem units_wholeCode_near {code k : Nat} (hcode : code < finiteCodes) (hbelow : units code < (k + 1) * unitsOfOne)
    (habove : k * unitsOfOne < units code + unitsOfOne) :
    wholeCode k < finiteCodes ∧ units (wholeCode k) = k * unitsOfOne := by
  rcases Nat.lt_or_ge (units code) (1 <<< 52 * unitsOfOne) with hsmall | hlarge
  · have hk : k * unitsOfOne < (1 <<< 52 + 1) * unitsOfOne := by
      rw [Nat.add_mul, Nat.one_mul]
      omega
    have hk' : k < 1 <<< 53 := Nat.lt_of_lt_of_le (Nat.lt_of_mul_lt_mul_right hk) (by decide)
    exact ⟨wholeCode_lt hk', units_wholeCode hk'⟩
  · obtain ⟨m, hm⟩ := unitsOfOne_dvd_units hlarge
    have hk : k * unitsOfOne = units code := by
      rw [hm, Nat.mul_comm unitsOfOne] at hbelow habove ⊢
      rw [← Nat.succ_mul] at habove
      have hm_le := Nat.lt_of_mul_lt_mul_right hbelow
      have hk_le := Nat.lt_of_mul_lt_mul_right habove
      rw [show k = m by omega]
    rw [wholeCode, hk, nearestCode_units]
    exact ⟨hcode, rfl⟩

/-! ## Floors -/

theorem exists_signed_floor {negative : Bool} {u d : Nat} {n : Int} (hd : 0 < d)
    (hle : n * d ≤ if negative = true then -(u : Int) else u)
    (hlt : (if negative = true then -(u : Int) else u) < (n + 1) * d) :
    ∃ k : Nat, n = (if negative = true then -(k : Int) else k) ∧ u < (k + 1) * d ∧ k * d < u + d := by
  have hd' : (0 : Int) ≤ d := Int.natCast_nonneg d
  cases negative with
  | false =>
    simp only [Bool.false_eq_true, if_false] at hle hlt ⊢
    have hn : 0 < n + 1 := Int.lt_of_mul_lt_mul_right (a := d) (by omega) hd'
    obtain ⟨k, rfl⟩ := Int.eq_ofNat_of_zero_le (Int.lt_add_one_iff.1 hn)
    have hbelow : u < (k + 1) * d := by exact_mod_cast hlt
    have habove : k * d ≤ u := by exact_mod_cast hle
    exact ⟨k, rfl, hbelow, by omega⟩
  | true =>
    simp only [if_true] at hle hlt ⊢
    have hn : n < 1 := Int.lt_of_mul_lt_mul_right (a := d) (by omega) hd'
    obtain ⟨k, rfl⟩ := Int.exists_eq_neg_ofNat (Int.lt_add_one_iff.1 hn)
    rw [Int.neg_mul] at hle
    rw [Int.add_mul, Int.neg_mul, Int.one_mul] at hlt
    have hbelow : u ≤ k * d := by exact_mod_cast Int.neg_le_neg_iff.1 hle
    have habove : (k * d : Int) < u + d := by omega
    refine ⟨k, rfl, ?_, by exact_mod_cast habove⟩
    rw [Nat.add_mul, Nat.one_mul]
    omega

section Floor
variable {negative : Bool} {code : Fin finiteCodes} {n : Int}
  (hle : n * unitsOfOne ≤ signedUnits (.finite negative code))
  (hlt : signedUnits (.finite negative code) < (n + 1) * unitsOfOne)
include hle hlt

theorem exists_ofUnits_eq : ∃ c : Fin finiteCodes,
    ofUnits negative (n * unitsOfOne) = .finite negative c ∧ units c = n.natAbs * unitsOfOne := by
  obtain ⟨k, hn, hbelow, habove⟩ := exists_signed_floor unitsOfOne_pos hle hlt
  obtain ⟨hfinite, hunits⟩ := units_wholeCode_near code.isLt hbelow habove
  have habs : n.natAbs = k := by cases negative <;> simp [hn]
  have hmul : n * unitsOfOne = if negative = true then -((k * unitsOfOne : Nat) : Int) else (k * unitsOfOne : Nat) := by
    cases negative <;> simp [hn, Int.neg_mul]
  refine ⟨⟨wholeCode k, hfinite⟩, ?_, ?_⟩
  · rw [hmul, ofUnits_signed]
    exact dif_pos hfinite
  · rw [habs]
    exact hunits

/-- The result is the double nearest to `n` ten-thousandths. -/
theorem round4_eq_ofRatio {x : Binary64} (hscaled : x * ofNat 10000 + half = .finite negative code) :
    round4 x = ofRatio negative (n.natAbs * unitsOfOne) 10000 := by
  obtain ⟨c, hfloor, hunits⟩ := exists_ofUnits_eq hle hlt
  rw [round4_eq_div hscaled hle hlt, hfloor, finite_div_ofNat hunits (by decide) (by decide)]

end Floor

example : round4 (ofRatio false unitsOfOne 15) = ofRatio false (667 * unitsOfOne) 10000 := by decide +kernel

/-- Beyond the finite doubles when scaled, a number is rounded to an infinity. -/
theorem round4_of_infinite {x : Binary64} {negative : Bool} (hscaled : x * ofNat 10000 + half = .infinite negative) :
    round4 x = .infinite negative := by
  rw [round4, hscaled, ofNat_eq (show 10000 < 1 <<< 53 by decide)]
  show Binary64.infinite (negative != false) = _
  rw [Bool.bne_false]

theorem round4_of_nan {x : Binary64} (hscaled : x * ofNat 10000 + half = .nan) : round4 x = .nan := by
  rw [round4, hscaled]
  rfl

end CpuMonitor.Binary64
