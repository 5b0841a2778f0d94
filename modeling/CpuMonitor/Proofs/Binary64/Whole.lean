import CpuMonitor.Proofs.Binary64.Sign

/-!
# Whole numbers in double precision

Whole numbers below `2^53` are doubles, so that computing with them is exact where the result is such a number too.

* `units_nearestCode` : a number of units that fits 53 bits is its own rounding.
* `nearestCode_mul_left` : rounding depends on the quotient only.
* `ofNat_eq`, `units_wholeCode` : a whole number below `2^53` is a finite double of exactly that value.
* `ofNat_div_ofNat`, `ofNat_div_of_dvd` : the quotient of two of them, rounded once; and where it is whole.
* `seconds_ofSeconds` : a duration of whole seconds, in seconds.
-/

set_option autoImplicit false

namespace CpuMonitor.Binary64

/-! ## What rounding keeps -/

/-- A carry out of 53 bits moves the code into the next exponent. -/
theorem units_shift_add {s m : Nat} (hm : m ≤ 1 <<< 53) (h : s = 0 ∨ 1 <<< 52 ≤ m) :
    units (s <<< 52 + m) = m <<< s := by
  have hbit : (1 : Nat) <<< 52 = 2 ^ 52 := rfl
  simp only [units]
  rw [Nat.shiftRight_eq_div_pow, Nat.shiftLeft_eq s, hbit] at *
  rcases Nat.lt_or_ge m (2 ^ 52) with hlow | hlow
  · obtain rfl : s = 0 := h.resolve_right (by omega)
    rw [if_pos (by omega), Nat.shiftLeft_zero]
    omega
  · rcases Nat.lt_or_eq_of_le hm with hlt | rfl
    · have hexp : (s * 2 ^ 52 + m) / 2 ^ 52 = s + 1 := by omega
      rw [hexp, if_neg (by omega), Nat.add_sub_cancel]
      congr 1
      omega
    · have hexp : (s * 2 ^ 52 + 1 <<< 53) / 2 ^ 52 = s + 2 := by omega
      have hfraction : (s * 2 ^ 52 + 1 <<< 53) % 2 ^ 52 = 0 := by omega
      have hpow : (2 : Nat) ^ (s + 2 - 1) = 2 * 2 ^ s := Nat.pow_succ'
      rw [hexp, hfraction, if_neg (Nat.succ_ne_zero _), Nat.shiftLeft_eq _ (s + 2 - 1), hpow, Nat.shiftLeft_eq _ s]
      omega

theorem leadingBits_bounds {q m : Nat} (hpos : 0 < q) (hq : q = m <<< (Nat.log2 q - 52)) :
    m < 1 <<< 53 ∧ (Nat.log2 q - 52 = 0 ∨ 1 <<< 52 ≤ m) := by
  have hne : q ≠ 0 := by omega
  have hlow := Nat.log2_self_le hne
  have hhigh := Nat.lt_log2_self (n := q)
  rw [show (1 : Nat) <<< 53 = 2 ^ 53 from rfl, show (1 : Nat) <<< 52 = 2 ^ 52 from rfl]
  generalize hs : Nat.log2 q - 52 = s at hq ⊢
  rw [Nat.shiftLeft_eq] at hq
  constructor
  · apply Nat.lt_of_mul_lt_mul_right (a := 2 ^ s)
    rw [← hq, ← Nat.pow_add]
    exact Nat.lt_of_lt_of_le hhigh (Nat.pow_le_pow_right (by decide) (by omega))
  · rcases Nat.eq_zero_or_pos s with h0 | hs0
    · exact .inl h0
    · right
      apply Nat.le_of_mul_le_mul_right _ (Nat.two_pow_pos s)
      rw [← hq, ← Nat.pow_add]
      exact Nat.le_trans (Nat.pow_le_pow_right (by decide) (by omega)) hlow

/-- A number of units that fits 53 bits is kept by rounding. -/
theorem units_nearestCode {q den m : Nat} (hden : 0 < den) (hq : q = m <<< (Nat.log2 q - 52)) :
    units (nearestCode (q * den) den) = q := by
  rcases Nat.eq_zero_or_pos q with rfl | hpos
  · rw [Nat.zero_mul]
    have hzero : nearestCode 0 den = 0 := by
      simp only [nearestCode, Nat.zero_div]
      show 0 + divEven 0 (den <<< 0) = 0
      simpa using divEven_mul 0 den hden
    rw [hzero]
    decide
  · obtain ⟨hm, hnorm⟩ := leadingBits_bounds hpos hq
    simp only [nearestCode]
    rw [Nat.mul_div_cancel q hden]
    generalize Nat.log2 q - 52 = s at hq hnorm ⊢
    have hdiv : divEven (q * den) (den <<< s) = m := by
      rw [hq, Nat.shiftLeft_eq, Nat.shiftLeft_eq, Nat.mul_assoc, Nat.mul_comm _ den]
      exact divEven_mul m _ (Nat.mul_pos hden (Nat.two_pow_pos s))
    rw [hdiv, units_shift_add (Nat.le_of_lt hm) hnorm]
    exact hq.symm

theorem divEven_mul_left {k : Nat} (hk : 0 < k) (num den : Nat) : divEven (k * num) (k * den) = divEven num den := by
  have hlt (a b : Nat) : 2 * (k * a) < k * b ↔ 2 * a < b := by
    rw [← Nat.mul_assoc, Nat.mul_comm 2 k, Nat.mul_assoc]
    exact Nat.mul_lt_mul_left hk
  have hgt (a b : Nat) : k * b < 2 * (k * a) ↔ b < 2 * a := by
    rw [← Nat.mul_assoc, Nat.mul_comm 2 k, Nat.mul_assoc]
    exact Nat.mul_lt_mul_left hk
  simp only [divEven, Nat.mul_div_mul_left _ _ hk, Nat.mul_mod_mul_left, hlt, hgt]

/-- Rounding depends on the quotient only. -/
theorem nearestCode_mul_left {k : Nat} (hk : 0 < k) (num den : Nat) :
    nearestCode (k * num) (k * den) = nearestCode num den := by
  simp only [nearestCode, Nat.mul_div_mul_left _ _ hk]
  generalize Nat.log2 (num / den) - 52 = s
  rw [Nat.shiftLeft_eq (k * den), Nat.mul_assoc, ← Nat.shiftLeft_eq, divEven_mul_left hk]

/-! ## Whole numbers -/

theorem log2_shiftLeft {n : Nat} (h : 0 < n) (k : Nat) : Nat.log2 (n <<< k) = Nat.log2 n + k := by
  have hne : n ≠ 0 := by omega
  rw [Nat.shiftLeft_eq, Nat.log2_eq_iff (Nat.ne_of_gt (Nat.mul_pos h (Nat.two_pow_pos k))), Nat.add_right_comm,
    Nat.pow_add, Nat.pow_add]
  exact ⟨Nat.mul_le_mul_right _ (Nat.log2_self_le hne), Nat.mul_lt_mul_of_pos_right Nat.lt_log2_self (Nat.two_pow_pos k)⟩

theorem shiftLeft_eq_shift {n k : Nat} (h : n < 1 <<< 53) (hk : 52 ≤ k) :
    n <<< k = (n <<< (52 - Nat.log2 n)) <<< (Nat.log2 (n <<< k) - 52) := by
  rcases Nat.eq_zero_or_pos n with rfl | hpos
  · simp
  · have hlog : Nat.log2 n < 53 := (Nat.log2_lt (by omega)).2 h
    have hexp : 52 - Nat.log2 n + (Nat.log2 n + k - 52) = k := by omega
    rw [log2_shiftLeft hpos, ← Nat.shiftLeft_add, hexp]

theorem mul_unitsOfOne (n : Nat) : n * unitsOfOne = n <<< 1074 := by
  rw [unitsOfOne, Nat.one_shiftLeft, Nat.shiftLeft_eq]

theorem units_wholeCode {n : Nat} (h : n < 1 <<< 53) : units (wholeCode n) = n * unitsOfOne := by
  have hexact : units (nearestCode (n <<< 1074 * 1) 1) = n <<< 1074 :=
    units_nearestCode Nat.one_pos (shiftLeft_eq_shift h (by decide))
  rwa [Nat.mul_one, ← mul_unitsOfOne] at hexact

theorem nearestCode_le (num den : Nat) : nearestCode num den ≤ (Nat.log2 (num / den) - 52 + 2) <<< 52 := by
  simp only [nearestCode]
  generalize hs : Nat.log2 (num / den) - 52 = s
  have hround := divEven_le_succ_div num (den <<< s)
  have hlead : num / (den <<< s) < 2 ^ 53 := by
    rw [Nat.shiftLeft_eq, ← Nat.div_div_eq_div_mul]
    apply Nat.div_lt_of_lt_mul
    refine Nat.lt_of_lt_of_le Nat.lt_log2_self ?_
    rw [← Nat.pow_add]
    exact Nat.pow_le_pow_right (by decide) (by omega)
  rw [Nat.shiftLeft_eq s, Nat.shiftLeft_eq (s + 2), Nat.add_mul]
  omega

theorem wholeCode_lt {n : Nat} (h : n < 1 <<< 53) : wholeCode n < finiteCodes := by
  refine Nat.lt_of_le_of_lt (nearestCode_le _ _) ?_
  have hlog : Nat.log2 (n * unitsOfOne / 1) < 1127 := by
    rcases Nat.eq_zero_or_pos n with rfl | hpos
    · rw [Nat.zero_mul]
      decide
    · have hn : Nat.log2 n < 53 := (Nat.log2_lt (by omega)).2 h
      rw [Nat.div_one, mul_unitsOfOne, log2_shiftLeft hpos]
      omega
  rw [finiteCodes, Nat.shiftLeft_eq, Nat.shiftLeft_eq]
  omega

/-- A whole number below `2^53` is a double of exactly that value. -/
theorem ofNat_eq {n : Nat} (h : n < 1 <<< 53) : ofNat n = .finite false ⟨wholeCode n, wholeCode_lt h⟩ := by
  show ofCode false (wholeCode n) = _
  rw [ofCode, dif_pos (wholeCode_lt h)]

/-- The quotient of two whole numbers is rounded once. -/
theorem finite_div_ofNat {negative : Bool} {code : Fin finiteCodes} {a b : Nat} (ha : units code = a * unitsOfOne)
    (hb : b < 1 <<< 53) (hpos : 0 < b) :
    .finite negative code / ofNat b = ofRatio negative (a * unitsOfOne) b := by
  have hne : wholeCode b ≠ 0 := Nat.ne_of_gt (wholeCode_pos.2 hpos)
  rw [ofNat_eq hb]
  show div _ _ = _
  rw [div, if_neg hne, Bool.bne_false]
  show ofRatio negative (units code * unitsOfOne) (units (wholeCode b)) = _
  rw [ha, units_wholeCode hb]
  unfold ofRatio
  rw [Nat.mul_comm (a * unitsOfOne), Nat.mul_comm b, nearestCode_mul_left unitsOfOne_pos]

theorem ofNat_div_ofNat {a b : Nat} (ha : a < 1 <<< 53) (hb : b < 1 <<< 53) (hpos : 0 < b) :
    ofNat a / ofNat b = ofRatio false (a * unitsOfOne) b := by
  rw [ofNat_eq ha]
  exact finite_div_ofNat (units_wholeCode ha) hb hpos

theorem ofNat_div_of_dvd {a b : Nat} (ha : a < 1 <<< 53) (hb : b < 1 <<< 53) (hpos : 0 < b) (hdvd : b ∣ a) :
    ofNat a / ofNat b = ofNat (a / b) := by
  obtain ⟨c, rfl⟩ := hdvd
  rw [ofNat_div_ofNat ha hb hpos, Nat.mul_div_cancel_left c hpos]
  unfold ofNat ofRatio
  rw [Nat.mul_assoc]
  have hscale := nearestCode_mul_left hpos (c * unitsOfOne) 1
  rw [Nat.mul_one] at hscale
  rw [hscale]

/-! ## Whole seconds -/

theorem ofNat_zero_div {n : Nat} (h : n < 1 <<< 53) (hpos : 0 < n) : ofNat 0 / ofNat n = ofNat 0 := by
  rw [ofNat_div_of_dvd (by decide) h hpos (Nat.dvd_zero n), Nat.zero_div]

theorem ofNat_add_zero {n : Nat} (h : n < 1 <<< 53) : ofNat n + ofNat 0 = ofNat n := by
  have hsum : ofNat n + ofNat 0 = ofUnits false ((units (wholeCode n) + units (wholeCode 0) : Nat) : Int) := by
    rw [ofNat_eq h, ofNat_eq (show 0 < 1 <<< 53 by decide)]
    rfl
  rw [hsum, ofUnits_natCast, units_wholeCode h, units_wholeCode (by decide), Nat.zero_mul, Nat.add_zero]
  rfl

end CpuMonitor.Binary64

namespace CpuMonitor

/-- A duration of whole seconds is exact in seconds. -/
theorem Duration.seconds_ofSeconds {n : Nat} (h : n < 1 <<< 53) : (Duration.ofSeconds n).seconds = .ofNat n := by
  unfold Duration.seconds Duration.wholeSeconds Duration.ofSeconds
  rw [Nat.mul_div_cancel n (by decide), Nat.mul_mod_left, Binary64.ofNat_zero_div (by decide) (by decide),
    Binary64.ofNat_add_zero h]

end CpuMonitor
