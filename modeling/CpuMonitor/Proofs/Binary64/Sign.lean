import CpuMonitor.Time.Basic

/-!
# Which doubles are positive

* `isPositive_ofCode`, `isPositive_add_ofCode` : the sign of a magnitude, and of a sum of magnitudes.
* `nearestCode_pos` : a quotient of at least one unit does not round to zero.
* `isPositive_seconds`, `isPositive_seconds_since` : a duration in seconds is positive exactly if the duration is.
-/

set_option autoImplicit false

namespace CpuMonitor

theorem div_le_divEven (num den : Nat) : num / den ≤ divEven num den := by
  simp only [divEven]
  split
  · omega
  · split <;> omega

theorem divEven_le_succ_div (num den : Nat) : divEven num den ≤ num / den + 1 := by
  simp only [divEven]
  split
  · omega
  · split <;> omega

namespace Binary64

/-! ## Units -/

/-- From the second exponent on a leading bit stands before the fraction. -/
theorem le_units {code : Nat} (h : 1 <<< 52 ≤ code) : 1 <<< 52 ≤ units code := by
  have hexp : code >>> 52 ≠ 0 := by
    rw [Nat.shiftRight_eq_div_pow]
    omega
  simp only [units, if_neg hexp]
  rw [Nat.shiftLeft_eq (1 <<< 52 + _)]
  have hpow : 1 ≤ 2 ^ (code >>> 52 - 1) := Nat.one_le_two_pow
  have hle := Nat.mul_le_mul_left (1 <<< 52 + code % 1 <<< 52) hpow
  omega

theorem units_pos {code : Nat} (h : 0 < code) : 0 < units code := by
  by_cases hc : 1 <<< 52 ≤ code
  · have := le_units hc
    omega
  · have hexp : code >>> 52 = 0 := by
      rw [Nat.shiftRight_eq_div_pow]
      omega
    simp only [units, if_pos hexp]
    rw [Nat.mod_eq_of_lt (by omega)]
    exact h

/-! ## Rounding -/

theorem nearestCode_pos {num den : Nat} (hd : 0 < den) (h : den ≤ num) : 0 < nearestCode num den := by
  have hq : 1 ≤ num / den := (Nat.le_div_iff_mul_le hd).2 (by omega)
  simp only [nearestCode]
  cases hs : Nat.log2 (num / den) - 52 with
  | zero =>
    have hle := div_le_divEven num (den <<< 0)
    rw [Nat.shiftLeft_zero] at hle ⊢
    omega
  | succ s =>
    rw [Nat.shiftLeft_eq (s + 1)]
    omega

theorem le_nearestCode {num den : Nat} (h : 1 <<< 53 ≤ num / den) : 1 <<< 52 ≤ nearestCode num den := by
  have hlog : 53 ≤ Nat.log2 (num / den) := (Nat.le_log2 (by omega)).2 (by omega)
  simp only [nearestCode]
  rw [Nat.shiftLeft_eq (Nat.log2 _ - 52)]
  omega

/-! ## Positive magnitudes -/

theorem pos_of_not_finite {code : Nat} (h : ¬ code < finiteCodes) : 0 < code :=
  Nat.lt_of_lt_of_le (by decide) (Nat.le_of_not_lt h)

/-- Positive are infinity and the magnitudes of one unit or more. -/
theorem isPositive_iff {x : Binary64} : x.isPositive = true ↔ x = .infinite false ∨ 0 < x.signedUnits := by
  cases x with
  | nan => simp [isPositive, signedUnits]
  | infinite negative => simp [isPositive, signedUnits]
  | finite negative code =>
    have hpos := @units_pos code.val
    have hzero : units 0 = 0 := by decide
    cases negative with
    | true => simp [isPositive, signedUnits]
    | false =>
      simp only [isPositive, signedUnits, Bool.not_false, Bool.true_and, bne_iff_ne, ne_eq, reduceCtorEq, false_or,
        Bool.false_eq_true, if_false, Int.natCast_pos]
      constructor
      · intro h
        exact hpos (Nat.pos_of_ne_zero h)
      · intro h hcode
        rw [hcode, hzero] at h
        exact Nat.lt_irrefl 0 h

theorem isPositive_infinite : (infinite false).isPositive = true := rfl

theorem isPositive_ofCode (code : Nat) : (ofCode false code).isPositive = true ↔ 0 < code := by
  unfold ofCode
  split
  · simp only [isPositive, Bool.not_false, Bool.true_and, bne_iff_ne, ne_eq]
    omega
  · simp only [isPositive, Bool.not_false, true_iff]
    exact pos_of_not_finite ‹_›

theorem isPositive_ofRatio {num den : Nat} (hd : 0 < den) (h : den ≤ num) :
    (ofRatio false num den).isPositive = true := (isPositive_ofCode _).2 (nearestCode_pos hd h)

/-- Units with the sign of their zero are rounded with that sign. -/
theorem ofUnits_signed (negative : Bool) (n : Nat) :
    ofUnits negative (if negative = true then -(n : Int) else n) = ofRatio negative n 1 := by
  rcases Nat.eq_zero_or_pos n with rfl | hpos
  · cases negative <;> rfl
  · have hne : (if negative = true then -(n : Int) else n) ≠ 0 := by split <;> omega
    have hsign : decide ((if negative = true then -(n : Int) else n) < 0) = negative := by
      cases negative <;> simp [hpos]
    have habs : (if negative = true then -(n : Int) else n).natAbs = n := by cases negative <;> simp
    rw [ofUnits, if_neg hne, hsign, habs]

theorem ofUnits_natCast (n : Nat) : ofUnits false (n : Int) = ofRatio false n 1 := ofUnits_signed false n

theorem isPositive_ofUnits (n : Nat) : (ofUnits false (n : Int)).isPositive = true ↔ 0 < n := by
  rw [ofUnits_natCast]
  rcases Nat.eq_zero_or_pos n with rfl | h
  · decide
  · exact iff_of_true (isPositive_ofRatio Nat.one_pos h) h

theorem isPositive_add_ofCode (a b : Nat) :
    (ofCode false a + ofCode false b).isPositive = true ↔ 0 < a ∨ 0 < b := by
  show (add (ofCode false a) (ofCode false b)).isPositive = true ↔ _
  unfold ofCode
  split
  · split
    · show (ofUnits false ((units a + units b : Nat) : Int)).isPositive = true ↔ _
      rw [isPositive_ofUnits]
      constructor
      · intro h
        rcases Nat.eq_zero_or_pos a with rfl | ha
        · rcases Nat.eq_zero_or_pos b with rfl | hb
          · exact absurd h (by decide)
          · exact .inr hb
        · exact .inl ha
      · rintro (ha | hb)
        · exact Nat.add_pos_left (units_pos ha) _
        · exact Nat.add_pos_right _ (units_pos hb)
    · next hb =>
      show isPositive (.infinite false) = true ↔ _
      simp only [isPositive_infinite, true_iff]
      exact .inr (pos_of_not_finite hb)
  · next ha =>
    have hinf : ∀ y, y ≠ nan → y.isNegative = false → add (.infinite false) y = .infinite false := by
      intro y hy hn
      cases y with
      | nan => exact absurd rfl hy
      | infinite negative => cases hn; rfl
      | finite negative code => rfl
    rw [hinf _ (by split <;> simp) (by split <;> rfl)]
    simp only [isPositive_infinite, true_iff]
    exact .inl (pos_of_not_finite ha)

end Binary64

/-! ## Durations in seconds -/

def wholeCode (n : Nat) : Nat := Binary64.nearestCode (n * Binary64.unitsOfOne) 1

theorem wholeCode_pos {n : Nat} : 0 < wholeCode n ↔ 0 < n := by
  rcases Nat.eq_zero_or_pos n with rfl | h
  · decide
  · have hpos : 0 < wholeCode n := Binary64.nearestCode_pos Nat.one_pos (Nat.mul_pos h (by decide))
    omega

theorem wholeCode_billion_lt : wholeCode 1000000000 < finiteCodes := by decide +kernel

theorem units_billion_le {n : Nat} (h : 0 < n) :
    Binary64.units (wholeCode 1000000000) ≤ Binary64.units (wholeCode n) * Binary64.unitsOfOne := by
  have hone : 1 <<< 53 ≤ n * Binary64.unitsOfOne / 1 := by
    rw [Nat.div_one]
    exact Nat.le_trans (by decide +kernel) (Nat.mul_le_mul_right Binary64.unitsOfOne h)
  have hle : 1 <<< 52 ≤ Binary64.units (wholeCode n) := Binary64.le_units (Binary64.le_nearestCode hone)
  calc Binary64.units (wholeCode 1000000000)
      ≤ 1 <<< 52 * Binary64.unitsOfOne := by decide +kernel
    _ ≤ Binary64.units (wholeCode n) * Binary64.unitsOfOne := Nat.mul_le_mul_right _ hle

/-- A number of nanoseconds in seconds is a magnitude, and zero for none only. -/
theorem nanoseconds_ofCode (n : Nat) : ∃ code, (0 < code ↔ 0 < n) ∧
    Binary64.ofNat n / Binary64.ofNat 1000000000 = Binary64.ofCode false code := by
  have hdiv : Binary64.ofNat n / Binary64.ofNat 1000000000 =
      Binary64.div (Binary64.ofCode false (wholeCode n)) (.finite false ⟨_, wholeCode_billion_lt⟩) := by
    show Binary64.div _ (Binary64.ofCode false (wholeCode 1000000000)) = _
    rw [Binary64.ofCode, Binary64.ofCode, dif_pos wholeCode_billion_lt]
    rfl
  have hunits := Binary64.units_pos (wholeCode_pos.2 (show 0 < 1000000000 by decide))
  rw [hdiv]
  by_cases hfin : wholeCode n < finiteCodes
  · refine ⟨Binary64.nearestCode (Binary64.units (wholeCode n) * Binary64.unitsOfOne)
      (Binary64.units (wholeCode 1000000000)), ?_, ?_⟩
    · rcases Nat.eq_zero_or_pos n with rfl | h
      · decide +kernel
      · have hpos := Binary64.nearestCode_pos hunits (units_billion_le h)
        omega
    · have hne : wholeCode 1000000000 ≠ 0 := by
        have := wholeCode_pos.2 (show 0 < 1000000000 by decide)
        omega
      rw [Binary64.ofCode, dif_pos hfin, Binary64.div, if_neg hne]
      rfl
  · refine ⟨finiteCodes, ?_, ?_⟩
    · have hn := wholeCode_pos.1 (Binary64.pos_of_not_finite hfin)
      simp only [hn, iff_true]
      decide
    · rw [Binary64.ofCode, dif_neg hfin]
      rfl

theorem Duration.isPositive_seconds (d : Duration) : d.seconds.isPositive = true ↔ 0 < d.nanoseconds := by
  obtain ⟨code, hcode, heq⟩ := nanoseconds_ofCode (d.nanoseconds % 1000000000)
  have hwhole : Binary64.ofNat d.wholeSeconds = Binary64.ofCode false (wholeCode d.wholeSeconds) := rfl
  unfold Duration.seconds
  rw [heq, hwhole, Binary64.isPositive_add_ofCode, wholeCode_pos, hcode]
  unfold Duration.wholeSeconds
  omega

/-- Instants in order are apart in seconds, as a double too. -/
theorem Instant.isPositive_seconds_since {later earlier : Instant} :
    (later.since earlier).seconds.isPositive = true ↔ earlier < later :=
  (Duration.isPositive_seconds _).trans Instant.since_pos_iff

end CpuMonitor
