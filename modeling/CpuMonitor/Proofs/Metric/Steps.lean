import CpuMonitor.Metric.Window
import CpuMonitor.Proofs.Binary64.Halves

/-!
# How many samples a window spans

* `steps_ofSeconds` : at an interval of whole seconds, the rounded quotient of two whole numbers of seconds.
* `steps_eq_div`, `steps_of_dvd` : this is the exact quotient rounded, and where the interval divides the window, the exact one.
* `steps_of_whole_seconds` : the samples at such an interval; they ascend with the window and descend with the interval.
* `div_le_steps`, `steps_le_div_add_one` : at any interval, as many samples as there are whole intervals in the window, or
  one more.
-/

set_option autoImplicit false

namespace CpuMonitor.Window

theorem seconds_lt (w : Window) : w.minutes * 60 < 1 <<< 53 := by
  have hlt := w.lt
  omega

theorem seconds_duration (w : Window) : w.duration.seconds = .ofNat (w.minutes * 60) :=
  Duration.seconds_ofSeconds w.seconds_lt

/-- The quotient is rounded to a double first and to a whole number then. -/
theorem steps_ofSeconds (w : Window) {s : Nat} (hpos : 0 < s) (hs : s < 1 <<< 53) :
    w.steps (.ofSeconds s) =
      (Binary64.ofRatio false (w.minutes * 60 * Binary64.unitsOfOne) s).roundToNat (1 <<< 64 - 1) := by
  have hinterval : (Duration.ofSeconds s).seconds.isPositive = true :=
    (Duration.isPositive_seconds _).2 (Nat.mul_pos hpos (by decide))
  unfold steps
  rw [if_pos hinterval, seconds_duration, Duration.seconds_ofSeconds hs,
    Binary64.ofNat_div_ofNat w.seconds_lt hs hpos]

/-- The rounding to a double does not show in the number of samples. -/
theorem steps_eq_div (w : Window) {s : Nat} (hpos : 0 < s) (hs : s < 1 <<< 53) :
    w.steps (.ofSeconds s) = (2 * (w.minutes * 60) + s) / (2 * s) := by
  have hlt := w.lt
  rw [steps_ofSeconds w hpos hs, Binary64.roundToNat_quotient (by omega) hpos (by omega)]
  apply Nat.min_eq_right
  exact (Nat.div_le_self _ _).trans (by omega)

theorem steps_of_dvd (w : Window) {s : Nat} (hpos : 0 < s) (hs : s < 1 <<< 53) (hdvd : s ∣ w.minutes * 60) :
    w.steps (.ofSeconds s) = w.minutes * 60 / s := by
  obtain ⟨c, hc⟩ := hdvd
  rw [w.steps_eq_div hpos hs, hc, Nat.mul_div_cancel_left c hpos, ← Nat.mul_assoc, Nat.mul_add_div (by omega),
    Nat.div_eq_of_lt (by omega), Nat.add_zero]

theorem steps_eq_floor (w : Window) {s : Nat} (hpos : 0 < s) (hs : s < 1 <<< 53) :
    w.steps (.ofSeconds s) = ⌊(60 * w.minutes / s + 1 / 2 : ℚ)⌋₊ := by
  rw [w.steps_eq_div hpos hs, Binary64.div_eq_floor _ hpos]
  push_cast
  rw [mul_comm (w.minutes : ℚ)]

theorem steps_mono {w w' : Window} {s s' : Nat} (hpos : 0 < s) (hle : s ≤ s') (hs : s' < 1 <<< 53)
    (hw : w.minutes ≤ w'.minutes) : w.steps (.ofSeconds s') ≤ w'.steps (.ofSeconds s) := by
  rw [w.steps_eq_floor (hpos.trans_le hle) hs, w'.steps_eq_floor hpos (hle.trans_lt hs)]
  have hpos' : (0 : ℚ) < s := Nat.cast_pos.2 hpos
  apply Nat.floor_mono
  gcongr

/-- **Samples of a window.** They are the whole number nearest to the exact quotient, and of two that are as near the
greater one. -/
theorem steps_of_whole_seconds (w : Window) {s : Nat} (hpos : 0 < s) (hs : s < 1 <<< 53) :
    w.steps (.ofSeconds s) = (120 * w.minutes + s) / (2 * s) ∧
      w.steps (.ofSeconds s) = ⌊(60 * w.minutes / s + 1 / 2 : ℚ)⌋₊ ∧
      (∀ w' : Window, w.minutes ≤ w'.minutes → w.steps (.ofSeconds s) ≤ w'.steps (.ofSeconds s)) ∧
      ∀ s', s ≤ s' → s' < 1 <<< 53 → w.steps (.ofSeconds s') ≤ w.steps (.ofSeconds s) := by
  refine ⟨?_, w.steps_eq_floor hpos hs, fun w' hw => steps_mono hpos (Nat.le_refl s) hs hw,
    fun s' hle hs' => steps_mono hpos hle hs' (Nat.le_refl _)⟩
  rw [w.steps_eq_div hpos hs]
  congr 1
  omega

/-- Two and a half samples fit one minute at an interval of 24 seconds. -/
theorem steps_of_whole_seconds_of_half :
    let minute : Window := ⟨1, by decide, by decide⟩
    let minutes : Window := ⟨2, by decide, by decide⟩
    0 < 24 ∧ 24 < 1 <<< 53 ∧ minute.steps (.ofSeconds 24) = 3 ∧ minute.minutes ≤ minutes.minutes ∧
      minute.steps (.ofSeconds 24) ≤ minutes.steps (.ofSeconds 24) ∧
      minute.steps (.ofSeconds 25) ≤ minute.steps (.ofSeconds 24) := by
  intro minute minutes
  have hpos : 0 < 24 := by decide
  have hs : 24 < 1 <<< 53 := by decide
  obtain ⟨hdiv, -, hwindow, hinterval⟩ := minute.steps_of_whole_seconds hpos hs
  have hquotient : (120 * 1 + 24) / (2 * 24) = 3 := by decide
  have hle : minute.minutes ≤ minutes.minutes := by decide
  exact ⟨hpos, hs, hdiv.trans hquotient, hle, hwindow minutes hle, hinterval 25 (by decide) (by decide)⟩

/-! ## Any interval -/

open Binary64

section Quotient
variable (w : Window) {interval : Duration}

def quotientCode (code : Nat) : Nat := nearestCode (w.minutes * 60 * unitsOfOne * unitsOfOne) (units code)

theorem duration_div {code : Nat} (hfin : code < finiteCodes) (hpos : 0 < code) :
    w.duration.seconds / ofCode false code = ofCode false (w.quotientCode code) := by
  rw [seconds_duration, ofNat_eq w.seconds_lt, ofCode, dif_pos hfin]
  show div _ _ = _
  rw [div, if_neg (Nat.ne_of_gt hpos)]
  show ofRatio false (units (wholeCode (w.minutes * 60)) * unitsOfOne) (units code) = _
  rw [units_wholeCode w.seconds_lt]
  rfl

theorem steps_of_finite (hcode : interval.secondsCode < finiteCodes)
    (heq : interval.seconds = ofCode false interval.secondsCode) (hpos : 0 < interval.nanoseconds) :
    w.steps interval = (ofCode false (w.quotientCode interval.secondsCode)).roundToNat (1 <<< 64 - 1) := by
  have hpositive : interval.seconds.isPositive = true := (Duration.isPositive_seconds _).2 hpos
  have hcode' : 0 < interval.secondsCode := by
    rw [← isPositive_ofCode, ← heq]
    exact hpositive
  unfold steps
  rw [if_pos hpositive, heq, w.duration_div hcode hcode']

theorem steps_of_infinite (h : interval.seconds = .infinite false) : w.steps interval = 0 := by
  have hzero : w.duration.seconds / interval.seconds = zero false := by
    rw [h, seconds_duration, ofNat_eq w.seconds_lt]
    rfl
  have hround : (zero false).roundToNat (1 <<< 64 - 1) = 0 := by decide
  unfold steps
  rw [hzero, hround, ite_self]

theorem within_quotientCode {code : Nat} (hfin : code < finiteCodes) (hpos : 0 < code) :
    Within 1 (w.minutes * 60 / magnitude code) (magnitude (w.quotientCode code)) := by
  have hunits := units_pos hpos
  have hbits : 1 <<< 52 ≤ w.minutes * 60 * unitsOfOne * unitsOfOne / units code := by
    obtain ⟨k, hk, hlt⟩ := units_lt hfin
    obtain ⟨e, he, heq⟩ := exists_unitsOfOne_eq
    rw [Nat.one_shiftLeft] at heq
    have hminutes := w.pos
    rw [Nat.le_div_iff_mul_le hunits, heq, Nat.mul_assoc]
    calc 1 <<< 52 * units code ≤ 2 ^ 52 * 2 ^ k := Nat.mul_le_mul_left _ (Nat.le_of_lt hlt)
      _ = 2 ^ (52 + k) := (Nat.pow_add 2 52 k).symm
      _ ≤ 2 ^ (2 + (e + e)) := Nat.pow_le_pow_right (by decide) (by omega)
      _ = 4 * (2 ^ e * 2 ^ e) := by rw [Nat.pow_add, Nat.pow_add]
      _ ≤ w.minutes * 60 * (2 ^ e * 2 ^ e) := Nat.mul_le_mul_right _ (by omega)
  have hnear := within_nearestCode hunits (.inr hbits)
  have hcast : ((w.minutes * 60 * unitsOfOne * unitsOfOne : Nat) / units code / unitsOfOne : ℚ) =
      w.minutes * 60 / magnitude code := by
    have hone := unitsOfOne_cast_pos
    have hunits' : (0 : ℚ) < units code := Nat.cast_pos.2 hunits
    unfold magnitude
    push_cast
    generalize (unitsOfOne : ℚ) = one at hone ⊢
    field_simp
  rwa [hcast] at hnear

theorem quotientCode_lt {code : Nat} (h : (1 / 1024 : ℚ) ≤ magnitude code) : w.quotientCode code < finiteCodes := by
  have hone := unitsOfOne_pos
  have hlt := w.lt
  have hunits : unitsOfOne ≤ 1024 * units code := by
    have hone' := unitsOfOne_cast_pos
    rw [magnitude, le_div_iff₀ hone'] at h
    have h' : (unitsOfOne : ℚ) ≤ 1024 * units code := by linarith
    exact_mod_cast h'
  obtain ⟨e, he, heq⟩ := exists_unitsOfOne_eq
  rw [Nat.one_shiftLeft] at heq
  refine nearestCode_lt (k := 48 + e) (by omega) ?_
  rw [Nat.div_lt_iff_lt_mul (by omega), Nat.pow_add, ← heq]
  have hpos : 0 < unitsOfOne * units code := Nat.mul_pos hone (by omega)
  calc w.minutes * 60 * unitsOfOne * unitsOfOne
      ≤ w.minutes * 60 * unitsOfOne * (1024 * units code) := Nat.mul_le_mul_left _ hunits
    _ = w.minutes * 60 * 1024 * (unitsOfOne * units code) := by ac_rfl
    _ < 2 ^ 48 * (unitsOfOne * units code) := Nat.mul_lt_mul_of_pos_right (by omega) hpos
    _ = 2 ^ 48 * unitsOfOne * units code := (Nat.mul_assoc _ _ _).symm

theorem minutes_cast_le : (w.minutes * 60 : ℚ) ≤ 2 ^ 38 := by
  have h : w.minutes * 60 ≤ 2 ^ 38 := by
    have hlt := w.lt
    omega
  exact_mod_cast h

/-- One interval less than a rounded quotient spans fits the window: the roundings are far smaller than half an
interval. -/
theorem sub_one_mul_le {window span x quotient count : ℚ} (hwindow : window ≤ 2 ^ 38) (hspan : 1 / 1000 ≤ span)
    (hx : (1 - roundoff) ^ 2 * span ≤ x) (hquotient : quotient * x ≤ (1 + roundoff) * window)
    (hcount : count ≤ quotient + 1 / 2) (hone : 1 ≤ count) : (count - 1) * span ≤ window := by
  by_contra hlt
  have hle : (count - 1 / 2) * ((1 - roundoff) ^ 2 * span) ≤ (1 + roundoff) * window :=
    calc (count - 1 / 2) * ((1 - roundoff) ^ 2 * span) ≤ (count - 1 / 2) * x :=
          mul_le_mul_of_nonneg_left hx (by linarith)
      _ ≤ quotient * x := mul_le_mul_of_nonneg_right (by linarith) (le_trans (by positivity) hx)
      _ ≤ (1 + roundoff) * window := hquotient
  have hsplit : (count - 1 / 2) * ((1 - roundoff) ^ 2 * span) =
      (1 - roundoff) ^ 2 * ((count - 1) * span) + (1 - roundoff) ^ 2 / 2 * span := by ring
  rw [hsplit] at hle
  generalize (count - 1) * span = spanned at hlt hle
  rw [roundoff] at hle
  linarith

theorem le_add_half {window span x quotient count : ℚ} (hwindow : window ≤ 2 ^ 38) (hx : 1 / 1024 ≤ x)
    (hspan : x ≤ (1 + roundoff) ^ 2 * span) (hquotient : (1 - roundoff) * window ≤ quotient * x)
    (hnonneg : 0 ≤ count) (hcount : count * span ≤ window) : count ≤ quotient + 1 / 2 := by
  by_contra hlt
  have hle : count * x ≤ (1 + roundoff) ^ 2 * window :=
    calc count * x ≤ count * ((1 + roundoff) ^ 2 * span) := mul_le_mul_of_nonneg_left hspan hnonneg
      _ = (1 + roundoff) ^ 2 * (count * span) := by ring
      _ ≤ (1 + roundoff) ^ 2 * window := mul_le_mul_of_nonneg_left hcount (by positivity)
  have hgap : quotient * x ≤ (count - 1 / 2) * x := mul_le_mul_of_nonneg_right (by linarith) (by linarith)
  rw [roundoff] at hle hquotient
  linarith

section Bounds
variable (h : Duration.ofMilliseconds 1 ≤ interval)
include h

theorem le_interval : (1 / 1000 : ℚ) ≤ interval.nanoseconds / 1000000000 := by
  have hleast : (1000000 : ℚ) ≤ interval.nanoseconds := by exact_mod_cast (show 1000000 ≤ interval.nanoseconds from h)
  linarith

theorem le_magnitude_interval : (1 / 1024 : ℚ) ≤ magnitude interval.secondsCode := by
  have hinterval := le_interval h
  have hlow := interval.within_secondsCode.lower
  rw [roundoff] at hlow
  linarith

theorem secondsCode_pos : 0 < interval.secondsCode := by
  have hmagnitude := le_magnitude_interval h
  rcases Nat.eq_zero_or_pos interval.secondsCode with hzero | hpos
  · rw [hzero, magnitude, show units 0 = 0 by decide, Nat.cast_zero, zero_div] at hmagnitude
    linarith
  · exact hpos

/-- Rounding asks for at most one sample more than there are whole intervals in the window. -/
theorem steps_le_div_add_one : w.steps interval ≤ w.duration.nanoseconds / interval.nanoseconds + 1 := by
  have hpos : 0 < interval.nanoseconds := Nat.lt_of_lt_of_le (by decide) h
  rcases interval.seconds_cases with hinf | ⟨hfin, heq⟩
  · rw [w.steps_of_infinite hinf]
    exact Nat.zero_le _
  have hsteps : (w.steps interval : ℚ) ≤ magnitude (w.quotientCode interval.secondsCode) + 1 / 2 := by
    rw [w.steps_of_finite hfin heq hpos]
    exact roundToNat_le (w.quotientCode_lt (le_magnitude_interval h))
  have hquot := (w.within_quotientCode hfin (secondsCode_pos h)).upper
  have hlow := interval.within_secondsCode.lower
  have hmagnitude := le_magnitude_interval h
  have hinterval := le_interval h
  have hminutes := w.minutes_cast_le
  generalize magnitude (w.quotientCode interval.secondsCode) = q at hsteps hquot
  generalize magnitude interval.secondsCode = x at hmagnitude hquot hlow
  rw [pow_one, ← mul_div_assoc, le_div_iff₀ (by linarith)] at hquot
  rcases Nat.eq_zero_or_pos (w.steps interval) with hzero | hone
  · rw [hzero]
    exact Nat.zero_le _
  have hfits := sub_one_mul_le hminutes hinterval hlow hquot hsteps (Nat.one_le_cast.2 hone)
  have hfits' : (w.steps interval - 1) * interval.nanoseconds ≤ w.minutes * 60 * 1000000000 := by
    have hcast : ((w.steps interval - 1 : Nat) : ℚ) = w.steps interval - 1 := by rw [Nat.cast_sub hone, Nat.cast_one]
    have hscaled : ((w.steps interval - 1 : Nat) * interval.nanoseconds : ℚ) ≤ w.minutes * 60 * 1000000000 := by
      rw [hcast]
      linarith
    exact_mod_cast hscaled
  have hdiv : w.steps interval - 1 ≤ w.duration.nanoseconds / interval.nanoseconds :=
    (Nat.le_div_iff_mul_le hpos).2 hfits'
  omega

/-- Rounding never asks for fewer samples than there are whole intervals in the window. -/
theorem div_le_steps : w.duration.nanoseconds / interval.nanoseconds ≤ w.steps interval := by
  have hpos : 0 < interval.nanoseconds := Nat.lt_of_lt_of_le (by decide) h
  have hlt := w.lt
  by_cases hlong : w.duration.nanoseconds < interval.nanoseconds
  · rw [Nat.div_eq_of_lt hlong]
    exact Nat.zero_le _
  have hlong' : interval.nanoseconds ≤ w.minutes * 60 * 1000000000 := Nat.le_of_not_lt hlong
  have hseconds : interval.wholeSeconds < 1 <<< 53 := by
    unfold Duration.wholeSeconds
    omega
  obtain ⟨hfin, heq⟩ := interval.seconds_of_lt hseconds
  rw [w.steps_of_finite hfin heq hpos]
  have hquot := (w.within_quotientCode hfin (secondsCode_pos h)).lower
  have hhigh := interval.within_secondsCode.upper
  have hmagnitude := le_magnitude_interval h
  have hinterval := le_interval h
  have hminutes := w.minutes_cast_le
  generalize hcount : w.duration.nanoseconds / interval.nanoseconds = count
  have hlimit : count ≤ 1 <<< 64 - 1 := by
    have hle : count ≤ w.minutes * 60 * 1000000000 / 1000000 := by
      rw [← hcount]
      exact Nat.div_le_div_left h (by decide)
    omega
  refine le_roundToNat hlimit ?_
  rw [pow_one, ← mul_div_assoc, div_le_iff₀ (by linarith)] at hquot
  refine le_add_half hminutes hmagnitude hhigh hquot (Nat.cast_nonneg _) ?_
  have hfits : count * interval.nanoseconds ≤ w.minutes * 60 * 1000000000 := by
    rw [← hcount]
    exact Nat.div_mul_le_self _ _
  have hfits' : (count * interval.nanoseconds : ℚ) ≤ w.minutes * 60 * 1000000000 := by exact_mod_cast hfits
  linarith

end Bounds

end Quotient

end CpuMonitor.Window
