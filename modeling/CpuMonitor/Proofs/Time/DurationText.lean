import CpuMonitor.Proofs.Text.Normal
import CpuMonitor.Proofs.Text.Numerals
import CpuMonitor.Time.Text
import Mathlib.Data.List.Nodup

/-!
# Texts of durations

Which texts denote a duration, and why others do not.

* `HasUnit` : the longest unit that a text ends in, and what stands before it; `hasUnit_splitUnit`, `HasUnit.unique`.
* `Parts` : a text without blanks around it, its number and its unit; `exists_parts`, `parts_written`.
* `Answers` : what a number and a unit give; `Parts.told_eq_iff` finds it in what is told of a text.
* `told_written` : a number and a unit written together.
* `duration_of_text` : which texts are read as which duration, and what is told of the others.
-/

set_option autoImplicit false

namespace CpuMonitor.Duration

/-! ## Units -/

/-- The units in milliseconds; a number without a unit counts seconds. -/
def units : List (List Char × Nat) :=
  [(['m', 's'], 1), (['s'], 1000), (['m'], 60000), (['h'], 3600000), ([], 1000)]

/-- A text is `rest` and the longest unit that it ends in. -/
structure HasUnit (t rest suffix : List Char) (factor : Nat) : Prop where
  mem : (suffix, factor) ∈ units
  eq : t = rest ++ suffix
  longest : ∀ u ∈ units, u.1 <:+ t → u.1.length ≤ suffix.length

theorem one_le_factor {suffix : List Char} {factor : Nat} (h : (suffix, factor) ∈ units) : 1 ≤ factor :=
  (by decide : ∀ u ∈ units, 1 ≤ u.2) _ h

theorem dropSuffix?_eq_some_iff {suffix s r : List Char} : dropSuffix? suffix s = some r ↔ s = r ++ suffix := by
  unfold dropSuffix?
  constructor
  · intro h
    split at h
    · next hsuffix =>
      obtain ⟨r', rfl⟩ := List.isSuffixOf_iff_suffix.1 hsuffix
      rw [List.length_append, Nat.add_sub_cancel, List.take_left] at h
      rw [Option.some.inj h]
    · cases h
  · rintro rfl
    rw [if_pos (List.isSuffixOf_iff_suffix.2 (List.suffix_append r suffix)), List.length_append, Nat.add_sub_cancel,
      List.take_left]

theorem not_suffix_of_dropSuffix? {suffix s : List Char} (h : dropSuffix? suffix s = none) : ¬ suffix <:+ s := by
  rintro ⟨r, rfl⟩
  rw [dropSuffix?_eq_some_iff.2 rfl] at h
  cases h

theorem units_eq : units = unitSuffixes ++ [([], 1000)] := rfl

theorem descending_unitSuffixes : unitSuffixes.Pairwise fun u v => v.1.length ≤ u.1.length := by decide

def before? (t : List Char) (u : List Char × Nat) : Option (List Char × Nat) := (dropSuffix? u.1 t).map (·, u.2)

theorem splitUnit_eq (t : List Char) : splitUnit t = (unitSuffixes.findSome? (before? t)).getD (t, 1000) := rfl

theorem hasUnit_splitUnit (t : List Char) : ∃ suffix, HasUnit t (splitUnit t).1 suffix (splitUnit t).2 := by
  rw [splitUnit_eq]
  cases h : unitSuffixes.findSome? (before? t) with
  | none =>
    have hseconds : ([], 1000) ∈ units := by decide
    refine ⟨[], hseconds, (List.append_nil t).symm, fun u hu hsuffix => ?_⟩
    rcases List.mem_append.1 (units_eq ▸ hu) with hu | hu
    · have hnone := Option.map_eq_none_iff.1 (List.findSome?_eq_none_iff.1 h u hu)
      exact absurd hsuffix (not_suffix_of_dropSuffix? hnone)
    · rw [List.mem_singleton.1 hu]
  | some found =>
    obtain ⟨before, ⟨suffix, factor⟩, after, hunits, hfound, hbefore⟩ := List.findSome?_eq_some_iff.1 h
    obtain ⟨rest, hrest, rfl⟩ := Option.map_eq_some_iff.1 hfound
    have hmem : (suffix, factor) ∈ unitSuffixes := by
      rw [hunits]
      exact List.mem_append_right _ List.mem_cons_self
    have hdescending := descending_unitSuffixes
    rw [hunits] at hdescending
    obtain ⟨-, hafter, -⟩ := List.pairwise_append.1 hdescending
    refine ⟨suffix, List.mem_append_left _ hmem, dropSuffix?_eq_some_iff.1 hrest, fun u hu hsuffix => ?_⟩
    rcases List.mem_append.1 (units_eq ▸ hu) with hu | hu
    · rw [hunits] at hu
      rcases List.mem_append.1 hu with hu | hu
      · exact absurd hsuffix (not_suffix_of_dropSuffix? (Option.map_eq_none_iff.1 (hbefore u hu)))
      · rcases List.mem_cons.1 hu with rfl | hu
        · exact Nat.le_refl _
        · exact (List.pairwise_cons.1 hafter).1 u hu
    · rw [List.mem_singleton.1 hu]
      exact Nat.zero_le _

/-- A text has one unit. -/
theorem HasUnit.unique {t rest suffix rest' suffix' : List Char} {factor factor' : Nat}
    (h : HasUnit t rest suffix factor) (h' : HasUnit t rest' suffix' factor') : rest = rest' ∧ factor = factor' := by
  have hlength : suffix.length = suffix'.length :=
    Nat.le_antisymm (h'.longest _ h.mem ⟨rest, h.eq.symm⟩) (h.longest _ h'.mem ⟨rest', h'.eq.symm⟩)
  obtain ⟨hrest, rfl⟩ := List.append_inj' (h.eq.symm.trans h'.eq) hlength
  have hone : (units.map Prod.fst).Nodup := by decide
  exact ⟨hrest, congrArg Prod.snd (List.inj_on_of_nodup_map hone h.mem h'.mem rfl)⟩

theorem HasUnit.splitUnit_eq {t rest suffix : List Char} {factor : Nat} (h : HasUnit t rest suffix factor) :
    splitUnit t = (rest, factor) := by
  obtain ⟨suffix', h'⟩ := hasUnit_splitUnit t
  obtain ⟨hrest, hfactor⟩ := h'.unique h
  exact Prod.ext hrest hfactor

/-! ## Parts -/

/-- The text `t` of `s` without blanks around it, and in this the number and the milliseconds of its unit. -/
structure Parts (s t number : List Char) (factor : Nat) : Prop where
  padded : Text.Padded t s
  tight : Text.Tight t
  unit : ∃ rest suffix, HasUnit t rest suffix factor ∧ Text.Padded number rest
  tight_number : Text.Tight number

theorem exists_parts (s : List Char) : ∃ t number factor, Parts s t number factor := by
  obtain ⟨suffix, hunit⟩ := hasUnit_splitUnit (Text.trim s)
  exact ⟨Text.trim s, _, _, Text.padded_trim s, Text.tight_trim s, ⟨_, suffix, hunit, Text.padded_trim _⟩,
    Text.tight_trim _⟩

section Parts
variable {s : String} {t number : List Char} {factor : Nat} (h : Parts s.toList t number factor)
include h

theorem Parts.trim_eq : Text.trim s.toList = t := Text.trim_of_padded h.padded h.tight

theorem Parts.splitUnit_eq : ∃ rest, splitUnit t = (rest, factor) ∧ Text.trim rest = number := by
  obtain ⟨rest, suffix, hunit, hnumber⟩ := h.unit
  exact ⟨rest, hunit.splitUnit_eq, Text.trim_of_padded hnumber h.tight_number⟩

theorem Parts.ofText_of_none (hread : Text.readNat? (1 <<< 64) number = none) :
    ofText s = .error (.invalid (String.ofList t)) := by
  obtain ⟨rest, hsplit, hnumber⟩ := h.splitUnit_eq
  unfold ofText
  simp only [h.trim_eq, hsplit, hnumber, hread]

theorem Parts.ofText_of_zero (hread : Text.readNat? (1 <<< 64) number = some 0) :
    ofText s = .error (.notPositive (String.ofList t)) := by
  obtain ⟨rest, hsplit, hnumber⟩ := h.splitUnit_eq
  unfold ofText
  simp only [h.trim_eq, hsplit, hnumber, hread]

theorem Parts.ofText_of_pos {v : Nat} (hread : Text.readNat? (1 <<< 64) number = some v) (pos : 1 ≤ v) :
    ofText s = if v * factor < 1 <<< 64 then .ok (ofMilliseconds (v * factor))
      else .error (.tooLarge (String.ofList t)) := by
  obtain ⟨rest, hsplit, hnumber⟩ := h.splitUnit_eq
  obtain ⟨v, rfl⟩ := Nat.exists_eq_add_of_le' pos
  unfold ofText
  simp only [h.trim_eq, hsplit, hnumber, hread]

end Parts

/-! ## Answers -/

def told (s : String) : Except String Duration := (ofText s).mapError ReadError.message

/-- What is told of a text `t` with this number and unit. -/
inductive Answers (t number : List Char) (factor : Nat) : Except String Duration → Prop where
  | duration {v : Nat} (reads : Text.IsNumeral number v) (lt : v < 1 <<< 64) (pos : 1 ≤ v)
      (fits : v * factor < 1 <<< 64) : Answers t number factor (.ok ⟨v * factor * 1000000⟩)
  | invalid (invalid : ¬ ∃ v, Text.IsNumeral number v ∧ v < 1 <<< 64) :
      Answers t number factor (.error ("Invalid duration: " ++ String.ofList t))
  | notPositive (zero : Text.IsNumeral number 0) :
      Answers t number factor (.error ("Duration must be positive: " ++ String.ofList t))
  | tooLarge {v : Nat} (reads : Text.IsNumeral number v) (lt : v < 1 <<< 64) (overflows : 1 <<< 64 ≤ v * factor) :
      Answers t number factor (.error ("Duration too large: " ++ String.ofList t))

theorem exists_answers (t number : List Char) (factor : Nat) : ∃ r, Answers t number factor r := by
  by_cases hreads : ∃ v, Text.IsNumeral number v ∧ v < 1 <<< 64
  · obtain ⟨v, reads, lt⟩ := hreads
    rcases Nat.eq_zero_or_pos v with rfl | pos
    · exact ⟨_, .notPositive reads⟩
    · rcases Nat.lt_or_ge (v * factor) (1 <<< 64) with fits | overflows
      · exact ⟨_, .duration reads lt pos fits⟩
      · exact ⟨_, .tooLarge reads lt overflows⟩
  · exact ⟨_, .invalid hreads⟩

section Answers
variable {s : String} {t number : List Char} {factor : Nat} (h : Parts s.toList t number factor)
include h

theorem Parts.told_of_answers {r : Except String Duration} (hanswers : Answers t number factor r) : told s = r := by
  unfold told
  cases hanswers with
  | duration reads lt pos fits =>
    rw [h.ofText_of_pos (Text.readNat?_eq_some_iff.2 ⟨reads, lt⟩) pos, if_pos fits]
    rfl
  | invalid invalid =>
    rw [h.ofText_of_none (Text.readNat?_eq_none_iff.2 invalid)]
    rfl
  | notPositive zero =>
    rw [h.ofText_of_zero (Text.readNat?_eq_some_iff.2 ⟨zero, by decide⟩)]
    rfl
  | @tooLarge v reads lt overflows =>
    have pos : 1 ≤ v := by
      refine Nat.one_le_iff_ne_zero.2 fun hzero => ?_
      rw [hzero, Nat.zero_mul] at overflows
      exact absurd overflows (by decide)
    rw [h.ofText_of_pos (Text.readNat?_eq_some_iff.2 ⟨reads, lt⟩) pos, if_neg (Nat.not_lt.2 overflows)]
    rfl

theorem Parts.told_eq_iff {r : Except String Duration} : told s = r ↔ Answers t number factor r := by
  refine ⟨?_, h.told_of_answers⟩
  rintro rfl
  obtain ⟨r, hanswers⟩ := exists_answers t number factor
  rw [h.told_of_answers hanswers]
  exact hanswers

end Answers

/-! ## Durations in writing -/

theorem parts_written (v : Nat) {suffix : List Char} {factor : Nat} (hunit : (suffix, factor) ∈ units) :
    Parts (toString v ++ String.ofList suffix).toList (Nat.toDigits 10 v ++ suffix) (Nat.toDigits 10 v) factor := by
  have hdigits : ∀ c ∈ Nat.toDigits 10 v, Text.isBlank c = false := fun c hc =>
    Text.isBlank_of_isDigit (Text.isDigit_of_mem_toDigits hc)
  have hletters : ∀ u ∈ units, (u.1.all fun c => !Text.isBlank c && !c.isDigit) = true := by decide
  have hsuffix : ∀ u ∈ units, ∀ c ∈ u.1, Text.isBlank c = false ∧ c.isDigit = false := fun u hu c hc => by
    simpa using List.all_eq_true.1 (hletters u hu) c hc
  have htext : (toString v ++ String.ofList suffix).toList = Nat.toDigits 10 v ++ suffix := by
    rw [String.toList_append, Text.toList_toString, String.toList_ofList]
  have hlongest : ∀ u ∈ units, u.1 <:+ Nat.toDigits 10 v ++ suffix → u.1.length ≤ suffix.length := by
    -- a longer unit would have the last digit in it
    intro u hu hends
    refine Nat.le_of_not_lt fun hlonger => ?_
    obtain ⟨ds, d, hlast⟩ := (List.eq_nil_or_concat' (Nat.toDigits 10 v)).resolve_left Nat.toDigits_ne_nil
    have hd : d ∈ Nat.toDigits 10 v := by
      rw [hlast]
      exact List.mem_concat_self
    have htail : d :: suffix <:+ Nat.toDigits 10 v ++ suffix := ⟨ds, by rw [hlast, List.append_assoc]; rfl⟩
    have hwithin : d :: suffix <:+ u.1 := List.suffix_of_suffix_length_le htail hends hlonger
    have hletter := (hsuffix u hu d (hwithin.mem List.mem_cons_self)).2
    rw [Text.isDigit_of_mem_toDigits hd] at hletter
    cases hletter
  rw [htext]
  refine ⟨.refl _, .of_forall fun c hc => ?_, ⟨_, suffix, ⟨hunit, rfl, hlongest⟩, .refl _⟩, .of_forall hdigits⟩
  exact (List.mem_append.1 hc).elim (hdigits c) fun hc => (hsuffix _ hunit c hc).1

/-- A number and a unit are read as what they are, unless they are too large. -/
theorem told_written {v : Nat} {suffix : List Char} {factor : Nat} (hunit : (suffix, factor) ∈ units) (pos : 1 ≤ v)
    (fits : v * factor < 1 <<< 64) :
    told (toString v ++ String.ofList suffix) = .ok ⟨v * factor * 1000000⟩ := by
  have hlt : v < 1 <<< 64 := Nat.lt_of_le_of_lt (Nat.le_mul_of_pos_right v (one_le_factor hunit)) fits
  exact (parts_written v hunit).told_eq_iff.2 (.duration (Text.isNumeral_toDigits v) hlt pos fits)

/-- **Texts of durations.** A text is read just if its number is above zero and in milliseconds has 64 bits; else the
message tells why. -/
theorem duration_of_text :
    (∀ s : String, ∃ t number factor, Parts s.toList t number factor ∧
      (∀ d, told s = .ok d ↔ ∃ v, Text.IsNumeral number v ∧ v < 1 <<< 64 ∧ 1 ≤ v ∧ v * factor < 1 <<< 64 ∧
        d.nanoseconds = v * factor * 1000000) ∧
      (∀ e, told s = .error e ↔
        (e = "Invalid duration: " ++ String.ofList t ∧ ¬ ∃ v, Text.IsNumeral number v ∧ v < 1 <<< 64) ∨
        (e = "Duration must be positive: " ++ String.ofList t ∧ Text.IsNumeral number 0) ∨
        (e = "Duration too large: " ++ String.ofList t ∧
          ∃ v, Text.IsNumeral number v ∧ v < 1 <<< 64 ∧ 1 <<< 64 ≤ v * factor)) ∧
      ∀ d, told s = .ok d → 0 < d.nanoseconds) ∧
    ∀ v suffix factor, (suffix, factor) ∈ units → 1 ≤ v → v * factor < 1 <<< 64 →
      told (toString v ++ String.ofList suffix) = .ok ⟨v * factor * 1000000⟩ := by
  refine ⟨fun s => ?_, fun v suffix factor => told_written⟩
  obtain ⟨t, number, factor, h⟩ := exists_parts s.toList
  refine ⟨t, number, factor, h, fun d => ⟨fun hd => ?_, ?_⟩, fun e => ⟨fun he => ?_, ?_⟩, fun d hd => ?_⟩
  · cases h.told_eq_iff.1 hd with
    | duration reads lt pos fits => exact ⟨_, reads, lt, pos, fits, rfl⟩
  · rintro ⟨v, reads, lt, pos, fits, hd⟩
    obtain ⟨n⟩ := d
    obtain rfl : n = v * factor * 1000000 := hd
    exact h.told_eq_iff.2 (.duration reads lt pos fits)
  · cases h.told_eq_iff.1 he with
    | invalid invalid => exact .inl ⟨rfl, invalid⟩
    | notPositive zero => exact .inr (.inl ⟨rfl, zero⟩)
    | tooLarge reads lt overflows => exact .inr (.inr ⟨rfl, _, reads, lt, overflows⟩)
  · rintro (⟨rfl, invalid⟩ | ⟨rfl, zero⟩ | ⟨rfl, v, reads, lt, overflows⟩)
    · exact h.told_eq_iff.2 (.invalid invalid)
    · exact h.told_eq_iff.2 (.notPositive zero)
    · exact h.told_eq_iff.2 (.tooLarge reads lt overflows)
  · cases h.told_eq_iff.1 hd with
    | duration _ _ pos _ =>
      obtain ⟨_, _, hunit, -⟩ := h.unit
      exact Nat.mul_pos (Nat.mul_pos pos (one_le_factor hunit.mem)) (by decide)

/-- The greatest number of hours. -/
theorem duration_of_text_of_hours :
    (['h'], 3600000) ∈ units ∧ 5124095576030 * 3600000 < 1 <<< 64 ∧
      told "5124095576030h" = .ok ⟨5124095576030 * 3600000 * 1000000⟩ := by
  have hunit : (['h'], 3600000) ∈ units := by decide
  have hfits : 5124095576030 * 3600000 < 1 <<< 64 := by decide
  exact ⟨hunit, hfits, duration_of_text.2 5124095576030 ['h'] 3600000 hunit (by decide) hfits⟩

end CpuMonitor.Duration
