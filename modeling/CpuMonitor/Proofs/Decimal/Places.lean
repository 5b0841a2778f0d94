import CpuMonitor.CommandLine.Output
import CpuMonitor.Proofs.Binary64.Bits
import CpuMonitor.Proofs.Text.Numerals

/-!
# Decimal places

A number printed with decimal places is the multiple of the last place's step that lies nearest to it, and the even one of
two that lie as near.

* `NearestEven step x n` : of all multiples of `step`, the `n`-th is the one that `x` is rounded to; `NearestEven.unique`,
  `nearestEven_divEven`.
* `eq_padded`, `IsWhole.eq_toDigits` : digits are told by the number that they denote, and by how many they are or by a first
  digit that is no zero.
* `HasPlaces places t x` : the text `t` denotes `x` by a whole part, a point and so many digits; `hasPlaces_iff` : there is one
  such text.
* `fixed_toList_eq_iff` : the text of a finite double, by the number that its bits denote.
* `CommandLine.valueText_ofBits` : the text of an exported value, for all bits.
-/

set_option autoImplicit false

namespace CpuMonitor

/-! ## The nearest multiple -/

/-- No other multiple of `step` is nearer to `x` than the `n`-th, which is even if another one is as near. -/
structure NearestEven (step x : ℚ) (n : ℕ) : Prop where
  nearest (m : ℕ) : |x - n * step| ≤ |x - m * step|
  even_of_tie (m : ℕ) : m ≠ n → |x - m * step| = |x - n * step| → Even n

theorem NearestEven.of_half {step x : ℚ} {n : ℕ} (hstep : 0 ≤ step) (hnear : |x - n * step| ≤ step / 2)
    (heven : |x - n * step| = step / 2 → Even n) : NearestEven step x n := by
  have hother (m : ℕ) (hm : m ≠ n) : step / 2 ≤ |x - m * step| := by
    have happart : (1 : ℤ) ≤ |(m : ℤ) - n| := Int.one_le_abs (by omega)
    have happart' : (1 : ℚ) ≤ |(m : ℚ) - n| := by exact_mod_cast happart
    have hdist : step ≤ |m * step - n * step| := by
      rw [← sub_mul, abs_mul, abs_of_nonneg hstep]
      exact le_mul_of_one_le_left hstep happart'
    have hsum := abs_sub_le (m * step) x (n * step)
    rw [abs_sub_comm (m * step) x] at hsum
    linarith
  constructor
  · intro m
    by_cases hm : m = n
    · rw [hm]
    · exact hnear.trans (hother m hm)
  · intro m hm htie
    exact heven (le_antisymm hnear (htie ▸ hother m hm))

/-- Of two even multiples that are as near, one in between is nearer. -/
theorem NearestEven.le {step x : ℚ} {n m : ℕ} (hstep : 0 < step) (h : NearestEven step x n) (h' : NearestEven step x m) :
    m ≤ n := by
  refine Nat.le_of_not_lt fun hlt => ?_
  have htie : |x - n * step| = |x - m * step| := le_antisymm (h.nearest m) (h'.nearest n)
  have hn : n % 2 = 0 := Nat.even_iff.1 (h.even_of_tie m (by omega) htie.symm)
  have hm : m % 2 = 0 := Nat.even_iff.1 (h'.even_of_tie n (by omega) htie)
  have happart : (n + 2 : ℚ) ≤ m := by exact_mod_cast (by omega : n + 2 ≤ m)
  have happart' := mul_le_mul_of_nonneg_right happart hstep.le
  have hbetween := h.nearest (n + 1)
  rw [Nat.cast_add, Nat.cast_one] at hbetween
  rcases abs_eq_abs.1 htie with hsame | hmiddle
  · linarith
  · -- `x` lies in the middle of the two, so that the multiple behind the first one is a step nearer
    rw [abs_of_nonneg (by linarith), abs_of_nonneg (by linarith)] at hbetween
    linarith

theorem NearestEven.unique {step x : ℚ} {n m : ℕ} (hstep : 0 < step) (h : NearestEven step x n)
    (h' : NearestEven step x m) : n = m := le_antisymm (h'.le hstep h) (h.le hstep h')

/-- A quotient halfway between two whole numbers is rounded to an even one. -/
theorem even_divEven {num den : ℕ} (hden : 0 < den)
    (h : 2 * num = 2 * (divEven num den * den) + den ∨ 2 * (divEven num den * den) = 2 * num + den) :
    Even (divEven num den) := by
  have hsplit := Nat.div_add_mod num den
  have hrest := Nat.mod_lt num hden
  rw [Nat.mul_comm] at hsplit
  simp only [divEven] at h ⊢
  split at h
  · omega
  · next hlow =>
    rw [if_neg hlow]
    split at h
    · rw [Nat.add_mul, Nat.one_mul] at h
      omega
    · next hhigh =>
      rw [if_neg hhigh, Nat.even_iff]
      omega

theorem nearestEven_divEven {num den : ℕ} (hden : 0 < den) {step : ℚ} (hstep : 0 < step) :
    NearestEven step (num / den * step) (divEven num den) := by
  have hden' : (0 : ℚ) < den := Nat.cast_pos.2 hden
  have hscale : 0 < step / den := div_pos hstep hden'
  have hoff : |(num / den * step - divEven num den * step : ℚ)| =
      |(num - divEven num den * den : ℚ)| * (step / den) := by
    have hsteps : (num / den * step - divEven num den * step : ℚ) = (num - divEven num den * den) * (step / den) := by
      field_simp
    rw [hsteps, abs_mul, abs_of_pos hscale]
  have hhalf : step / 2 = (den / 2 : ℚ) * (step / den) := by field_simp
  have hlow : (2 * num : ℚ) ≤ 2 * (divEven num den * den) + den := by exact_mod_cast le_divEven num den hden
  have hhigh : (2 * (divEven num den * den) : ℚ) ≤ 2 * num + den := by exact_mod_cast divEven_le num den hden
  apply NearestEven.of_half hstep.le
  · rw [hoff, hhalf]
    apply mul_le_mul_of_nonneg_right _ hscale.le
    rw [abs_le]
    constructor <;> linarith
  · intro htie
    rw [hoff, hhalf, mul_left_inj' hscale.ne', abs_eq (by positivity)] at htie
    apply even_divEven hden
    rcases htie with htie | htie
    · left
      have hnum : (2 * num : ℚ) = 2 * (divEven num den * den) + den := by linarith
      exact_mod_cast hnum
    · right
      have hnum : (2 * (divEven num den * den) : ℚ) = 2 * num + den := by linarith
      exact_mod_cast hnum

namespace Text

/-! ## Digits -/

theorem toNat_sub_lt_of_isDigit {c : Char} (h : c.isDigit = true) : c.toNat - '0'.toNat < 10 := by
  obtain ⟨hle, hge⟩ : 48 ≤ c.toNat ∧ c.toNat ≤ 57 := Char.isDigit_iff_toNat.1 h
  show c.toNat - 48 < 10
  omega

theorem eq_of_toNat_sub_eq {c d : Char} (hc : c.isDigit = true) (hd : d.isDigit = true)
    (h : c.toNat - '0'.toNat = d.toNat - '0'.toNat) : c = d := by
  obtain ⟨hc', -⟩ : 48 ≤ c.toNat ∧ c.toNat ≤ 57 := Char.isDigit_iff_toNat.1 hc
  obtain ⟨hd', -⟩ : 48 ≤ d.toNat ∧ d.toNat ≤ 57 := Char.isDigit_iff_toNat.1 hd
  have hzero : '0'.toNat = 48 := rfl
  exact Char.toNat_inj.1 (by omega)

theorem ofDigitChars_cons (c : Char) (ds : List Char) :
    Nat.ofDigitChars 10 (c :: ds) 0 = 10 ^ ds.length * (c.toNat - '0'.toNat) + Nat.ofDigitChars 10 ds 0 := by
  rw [Nat.ofDigitChars_cons, Nat.mul_zero, Nat.zero_add, Nat.ofDigitChars_eq_ofDigitChars_zero]

theorem ofDigitChars_lt {ds : List Char} (h : ∀ c ∈ ds, c.isDigit = true) :
    Nat.ofDigitChars 10 ds 0 < 10 ^ ds.length := by
  induction ds with
  | nil => exact Nat.one_pos
  | cons c ds ih =>
    obtain ⟨hc, hds⟩ := List.forall_mem_cons.1 h
    have hlt := ih hds
    have hle := Nat.mul_le_mul_left (10 ^ ds.length) (Nat.le_of_lt_succ (toNat_sub_lt_of_isDigit hc))
    rw [ofDigitChars_cons, List.length_cons, Nat.pow_succ]
    omega

theorem eq_of_ofDigitChars_eq {ds ds' : List Char} (h : ∀ c ∈ ds, c.isDigit = true) (h' : ∀ c ∈ ds', c.isDigit = true)
    (hlength : ds.length = ds'.length) (heq : Nat.ofDigitChars 10 ds 0 = Nat.ofDigitChars 10 ds' 0) : ds = ds' := by
  induction ds generalizing ds' with
  | nil => exact (List.eq_nil_of_length_eq_zero hlength.symm).symm
  | cons c ds ih =>
    obtain ⟨d, ds', rfl⟩ := List.exists_cons_of_length_eq_add_one hlength.symm
    obtain ⟨hc, hds⟩ := List.forall_mem_cons.1 h
    obtain ⟨hd, hds'⟩ := List.forall_mem_cons.1 h'
    have hlength' : ds.length = ds'.length := Nat.succ.inj hlength
    have hlt := ofDigitChars_lt hds
    have hlt' := ofDigitChars_lt hds'
    rw [ofDigitChars_cons, ofDigitChars_cons, ← hlength'] at heq
    rw [← hlength'] at hlt'
    have hpos : 0 < 10 ^ ds.length := Nat.pow_pos (by decide)
    have hfirst : c.toNat - '0'.toNat = d.toNat - '0'.toNat := by
      have hdiv := congrArg (· / 10 ^ ds.length) heq
      simpa only [Nat.mul_add_div hpos, Nat.div_eq_of_lt hlt, Nat.div_eq_of_lt hlt', Nat.add_zero] using hdiv
    rw [hfirst] at heq
    rw [eq_of_toNat_sub_eq hc hd hfirst, ih hds hds' hlength' (Nat.add_left_cancel heq)]

section Padded
variable {width n : ℕ}

theorem toList_padded (width n : ℕ) :
    (padded width n).toList = List.replicate (width - (Nat.toDigits 10 n).length) '0' ++ Nat.toDigits 10 n :=
  String.toList_ofList

theorem isDigit_of_mem_padded {c : Char} (h : c ∈ (padded width n).toList) : c.isDigit = true := by
  rw [toList_padded, List.mem_append] at h
  rcases h with hzero | hdigit
  · rw [List.eq_of_mem_replicate hzero]
    decide
  · exact isDigit_of_mem_toDigits hdigit

theorem length_padded (hwidth : 0 < width) (h : n < 10 ^ width) : (padded width n).toList.length = width := by
  have hle : (Nat.toDigits 10 n).length ≤ width := (Nat.length_toDigits_le_iff (by decide) hwidth).2 h
  rw [toList_padded, List.length_append, List.length_replicate]
  exact Nat.sub_add_cancel hle

theorem ofDigitChars_padded (width n : ℕ) : Nat.ofDigitChars 10 (padded width n).toList 0 = n := by
  rw [toList_padded, Nat.ofDigitChars_append, Nat.ofDigitChars_replicate_zero, Nat.mul_zero,
    Nat.ofDigitChars_ten_toDigits]

theorem eq_padded {ds : List Char} (hne : ds ≠ []) (h : ∀ c ∈ ds, c.isDigit = true) :
    ds = (padded ds.length (Nat.ofDigitChars 10 ds 0)).toList :=
  eq_of_ofDigitChars_eq h (fun _ => isDigit_of_mem_padded)
    (length_padded (List.length_pos_iff.2 hne) (ofDigitChars_lt h)).symm (ofDigitChars_padded _ _).symm

end Padded

/-- Digits that begin with a zero only if there is no other one. -/
structure IsWhole (ds : List Char) : Prop where
  ne_nil : ds ≠ []
  isDigit : ∀ c ∈ ds, c.isDigit = true
  eq_zero : ds.head? = some '0' → ds = ['0']

theorem toDigits_of_head {n : ℕ} (h : (Nat.toDigits 10 n).head? = some '0') : Nat.toDigits 10 n = ['0'] := by
  induction n using Nat.strongRecOn with
  | ind n ih =>
    by_cases hn : n < 10
    · rw [Nat.toDigits_of_lt_base hn] at h ⊢
      rw [Option.some.inj h]
    · -- the first digit is that of a tenth of the number, which is not zero
      have hle : 10 ≤ n := Nat.le_of_not_lt hn
      rw [Nat.toDigits_of_base_le (by decide) hle, List.head?_append_of_ne_nil _ Nat.toDigits_ne_nil] at h
      have hzero := ih (n / 10) (by omega) h
      have htenth : n / 10 = Nat.ofDigitChars 10 ['0'] 0 := by rw [← hzero, Nat.ofDigitChars_ten_toDigits]
      have hnone : Nat.ofDigitChars 10 ['0'] 0 = 0 := by decide
      omega

theorem isWhole_toDigits (n : ℕ) : IsWhole (Nat.toDigits 10 n) where
  ne_nil := Nat.toDigits_ne_nil
  isDigit _ := isDigit_of_mem_toDigits
  eq_zero := toDigits_of_head

theorem IsWhole.eq_toDigits {ds : List Char} (h : IsWhole ds) : ds = Nat.toDigits 10 (Nat.ofDigitChars 10 ds 0) := by
  have heq := eq_padded h.ne_nil h.isDigit
  rw [toList_padded] at heq
  generalize Nat.ofDigitChars 10 ds 0 = n at heq ⊢
  cases hzeros : ds.length - (Nat.toDigits 10 n).length with
  | zero => rwa [hzeros] at heq
  | succ k =>
    -- a zero in front would be the only digit, but behind it stand those of the number
    rw [hzeros, List.replicate_succ, List.cons_append] at heq
    have hone := h.eq_zero (by rw [heq]; rfl)
    have hlength := Nat.length_toDigits_pos (b := 10) (n := n)
    rw [hone, List.length_singleton] at hzeros
    omega

/-! ## Places -/

/-- A text denotes a number by its whole part, a point and so many digits. -/
def HasPlaces (places : ℕ) (t : List Char) (x : ℚ) : Prop :=
  ∃ whole fraction, t = whole ++ '.' :: fraction ∧
    IsWhole whole ∧ (∀ c ∈ fraction, c.isDigit = true) ∧ fraction.length = places ∧
    x = Nat.ofDigitChars 10 whole 0 + Nat.ofDigitChars 10 fraction 0 / 10 ^ places

theorem HasPlaces.point_mem {places : ℕ} {t : List Char} {x : ℚ} (h : HasPlaces places t x) : '.' ∈ t := by
  obtain ⟨whole, fraction, rfl, -⟩ := h
  exact List.mem_append_right _ (List.mem_cons_self)

end Text

namespace Binary64

theorem toList_pointed {places : ℕ} (h : places ≠ 0) (n : ℕ) : (pointed places n).toList =
    Nat.toDigits 10 (n / 10 ^ places) ++ '.' :: (Text.padded places (n % 10 ^ places)).toList := by
  have hplace : Text.placeValue places = 10 ^ places := rfl
  unfold pointed
  rw [if_neg h, String.toList_append, String.toList_append, Text.toList_toString, hplace, List.append_assoc]
  rfl

/-- One text denotes a number of steps of the last place. -/
theorem hasPlaces_iff {places : ℕ} (h : places ≠ 0) {n : ℕ} {t : List Char} :
    Text.HasPlaces places t (n / 10 ^ places) ↔ t = (pointed places n).toList := by
  have hpos : 0 < 10 ^ places := Nat.pow_pos (by decide)
  have hpos' : (10 ^ places : ℚ) ≠ 0 := by positivity
  rw [toList_pointed h]
  constructor
  · rintro ⟨whole, fraction, rfl, hwhole, hdigits, hlength, heq⟩
    have hlt := Text.ofDigitChars_lt hdigits
    rw [hlength] at hlt
    have hne : fraction ≠ [] := List.length_pos_iff.1 (by omega)
    have hsum : n = 10 ^ places * Nat.ofDigitChars 10 whole 0 + Nat.ofDigitChars 10 fraction 0 := by
      rw [div_eq_iff hpos', add_mul, div_mul_cancel₀ _ hpos', mul_comm] at heq
      exact_mod_cast heq
    have hdiv : n / 10 ^ places = Nat.ofDigitChars 10 whole 0 := by
      rw [hsum, Nat.mul_add_div hpos, Nat.div_eq_of_lt hlt, Nat.add_zero]
    have hmod : n % 10 ^ places = Nat.ofDigitChars 10 fraction 0 := by
      rw [hsum, Nat.mul_add_mod, Nat.mod_eq_of_lt hlt]
    rw [hdiv, hmod, ← hwhole.eq_toDigits, ← hlength, ← Text.eq_padded hne hdigits]
  · rintro rfl
    have hrest : n % 10 ^ places < 10 ^ places := Nat.mod_lt _ hpos
    refine ⟨_, _, rfl, Text.isWhole_toDigits _, fun c => Text.isDigit_of_mem_padded,
      Text.length_padded (Nat.pos_of_ne_zero h) hrest, ?_⟩
    have hsplit := Nat.div_add_mod n (10 ^ places)
    have hsplit' : (10 ^ places * (n / 10 ^ places : ℕ) + (n % 10 ^ places : ℕ) : ℚ) = n := by exact_mod_cast hsplit
    rw [Nat.ofDigitChars_ten_toDigits, Text.ofDigitChars_padded, ← hsplit', add_div, mul_div_cancel_left₀ _ hpos']

theorem nearestEven_scaledNearest (places code : ℕ) :
    NearestEven (1 / 10 ^ places) (magnitude code) (scaledNearest places code) := by
  have hstep : (0 : ℚ) < 1 / 10 ^ places := by positivity
  have hnear : NearestEven (1 / 10 ^ places)
      ((units code * Text.placeValue places : ℕ) / unitsOfOne * (1 / 10 ^ places)) (scaledNearest places code) :=
    nearestEven_divEven unitsOfOne_pos hstep
  have hplace : (Text.placeValue places : ℚ) = 10 ^ places := Nat.cast_pow 10 places
  have hscale : (units code * Text.placeValue places : ℕ) / unitsOfOne * (1 / 10 ^ places : ℚ) = magnitude code := by
    unfold magnitude
    rw [Nat.cast_mul, hplace]
    generalize (unitsOfOne : ℚ) = one
    field_simp
  rwa [hscale] at hnear

theorem toList_minus (negative : Bool) : (minus negative).toList = if negative = true then ['-'] else [] := by
  cases negative <;> rfl

/-- The sign of finite bits, and the digits of the nearest number with so many places. -/
theorem fixed_toList_eq_iff {bits : UInt64} (h : exponentField bits ≠ lastExponent) {places : ℕ} (hplaces : places ≠ 0)
    {t : List Char} : ((ofBits bits).fixed places).toList = t ↔
      ∃ digits, ∃ n : ℕ, t = (if signField bits = 1 then ['-'] else []) ++ digits ∧
        Text.HasPlaces places digits (n / 10 ^ places) ∧ NearestEven (1 / 10 ^ places) |denoted bits| n := by
  obtain ⟨code, hbits, hcode⟩ := ofBits_of_finite h
  have hstep : (0 : ℚ) < 1 / 10 ^ places := by positivity
  have hnear := nearestEven_scaledNearest places code
  rw [hcode] at hnear
  have htext : ((ofBits bits).fixed places).toList =
      (if signField bits = 1 then ['-'] else []) ++ (pointed places (scaledNearest places code)).toList := by
    rw [hbits]
    show (minus _ ++ pointed places _).toList = _
    rw [String.toList_append, toList_minus]
    simp only [decide_eq_true_eq]
  rw [htext]
  constructor
  · rintro rfl
    exact ⟨_, _, rfl, (hasPlaces_iff hplaces).2 rfl, hnear⟩
  · rintro ⟨digits, n, rfl, hdigits, hnear'⟩
    rw [hnear'.unique hstep hnear, hasPlaces_iff hplaces] at hdigits
    rw [hdigits]

theorem fixed_of_last {bits : UInt64} (h : exponentField bits = lastExponent) (places : ℕ) :
    (ofBits bits).fixed places =
      if fractionField bits ≠ 0 then "NaN" else if signField bits = 1 then "-inf" else "inf" := by
  rw [ofBits_of_last h]
  by_cases hfraction : fractionField bits = 0
  · rw [if_pos hfraction, if_neg (not_not.2 hfraction)]
    by_cases hsign : signField bits = 1
    · rw [if_pos hsign, decide_eq_true hsign]
      rfl
    · rw [if_neg hsign, decide_eq_false hsign]
      rfl
  · rw [if_neg hfraction, if_pos hfraction]
    rfl

end Binary64

namespace CommandLine
open Binary64

def specialTexts : List String := ["NaN", "inf", "-inf", "null"]

theorem point_not_mem_special : ∀ t ∈ specialTexts, '.' ∉ t.toList := by decide +kernel

/-- **Exported values.** A number has just one text: its sign, and the multiple of `1/10000` nearest to it, of two the
even one. -/
theorem valueText_ofBits (bits : UInt64) :
    (exponentField bits ≠ lastExponent → (∀ text : String, valueText (some (ofBits bits)) = text ↔
        ∃ digits, ∃ n : ℕ, text.toList = (if signField bits = 1 then ['-'] else []) ++ digits ∧
          Text.HasPlaces 4 digits (n / 10 ^ 4) ∧ NearestEven (1 / 10 ^ 4) |denoted bits| n) ∧
      valueText (some (ofBits bits)) ∉ specialTexts) ∧
    (exponentField bits = lastExponent → valueText (some (ofBits bits)) =
      if fractionField bits ≠ 0 then "NaN" else if signField bits = 1 then "-inf" else "inf") ∧
    valueText none = "null" := by
  refine ⟨fun h => ?_, fun h => fixed_of_last h 4, rfl⟩
  have htext (text : String) := fixed_toList_eq_iff h (show 4 ≠ 0 by decide) (t := text.toList)
  refine ⟨fun text => ?_, fun hspecial => ?_⟩
  · rw [← htext, String.toList_inj]
    rfl
  · obtain ⟨digits, n, heq, hplaces, -⟩ := (htext _).1 rfl
    refine point_not_mem_special _ hspecial ?_
    show '.' ∈ ((ofBits bits).fixed 4).toList
    rw [heq]
    exact List.mem_append_right _ hplaces.point_mem

/-- A negative number halfway between two multiples, and an infinity. -/
theorem valueText_ofBits_of_tie :
    let tie : UInt64 := 0xBFA0000000000000
    let infinity : UInt64 := 0xFFF0000000000000
    exponentField tie ≠ lastExponent ∧ exponentField infinity = lastExponent ∧
      (∃ n : ℕ, Text.HasPlaces 4 "0.0312".toList (n / 10 ^ 4) ∧ NearestEven (1 / 10 ^ 4) |denoted tie| n) ∧
      valueText (some (ofBits tie)) ∉ specialTexts ∧ valueText (some (ofBits infinity)) = "-inf" := by
  intro tie infinity
  have htie : exponentField tie ≠ lastExponent := by decide +kernel
  have hinfinity : exponentField infinity = lastExponent := by decide +kernel
  have hsign : signField tie = 1 := by decide +kernel
  have htext : valueText (some (ofBits tie)) = "-0.0312" := by decide +kernel
  obtain ⟨hvalue, hspecial⟩ := (valueText_ofBits tie).1 htie
  obtain ⟨digits, n, hdigits, hplaces, hnear⟩ := (hvalue _).1 htext
  rw [if_pos hsign] at hdigits
  obtain rfl : "0.0312".toList = digits := (List.cons.inj hdigits).2
  refine ⟨htie, hinfinity, ⟨n, hplaces, hnear⟩, hspecial, ?_⟩
  rw [(valueText_ofBits infinity).2.1 hinfinity]
  decide +kernel

end CommandLine

end CpuMonitor
