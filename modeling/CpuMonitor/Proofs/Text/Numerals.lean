import CpuMonitor.Text.Blank
import CpuMonitor.Text.Numeral

/-!
# Whole numbers in texts

* `IsNumeral s n` : the text `s` denotes the number `n`.
* `readNat?_eq_some_iff` : a text is read as the number that it denotes, if this is below the bound.
* `IsNumeral.unique`, `IsNumeral.mem` : a text denotes one number at most, by digits and a sign only.
* `isNumeral_toDigits`, `readNat?_toDigits`, `toString_injective` : the decimal digits of a number denote it.
-/

set_option autoImplicit false

namespace CpuMonitor.Text

/-- A text denotes a number by one or more digits, with a plus sign before them or none. -/
def IsNumeral (s : List Char) (n : Nat) : Prop :=
  ∃ ds, (s = ds ∨ s = '+' :: ds) ∧ ds ≠ [] ∧ (∀ c ∈ ds, c.isDigit = true) ∧ Nat.ofDigitChars 10 ds 0 = n

theorem digits?_eq_some_iff {s : List Char} {n : Nat} :
    digits? s = some n ↔ s ≠ [] ∧ (∀ c ∈ s, c.isDigit = true) ∧ Nat.ofDigitChars 10 s 0 = n := by
  unfold digits?
  split
  · next h =>
    refine iff_of_false nofun fun ⟨hne, hdigits, _⟩ => ?_
    rcases Bool.or_eq_true_iff.1 h with hnil | hother
    · exact hne (List.isEmpty_iff.1 hnil)
    · rw [List.all_eq_true.2 hdigits] at hother
      cases hother
  · next h =>
    rw [Bool.or_eq_true, not_or] at h
    have hne : s ≠ [] := fun hnil => h.1 (List.isEmpty_iff.2 hnil)
    have hdigits : ∀ c ∈ s, c.isDigit = true := by simpa using h.2
    rw [Option.some.injEq, and_iff_right hne, and_iff_right hdigits]

theorem dropPlus_of_head {s : List Char} (h : ∀ c ∈ s.head?, c ≠ '+') : dropPlus s = s := by
  unfold dropPlus
  split
  · exact absurd rfl (h '+' rfl)
  · rfl

theorem isNumeral_iff {s : List Char} {n : Nat} : IsNumeral s n ↔ digits? (dropPlus s) = some n := by
  rw [digits?_eq_some_iff]
  constructor
  · rintro ⟨ds, rfl | rfl, hne, hdigits, hn⟩
    · -- digits do not begin with a sign
      have hplus : dropPlus s = s := dropPlus_of_head fun c hc hplus => by
        have hdigit := hdigits c (List.mem_of_mem_head? hc)
        rw [hplus] at hdigit
        exact absurd hdigit (by decide)
      rw [hplus]
      exact ⟨hne, hdigits, hn⟩
    · exact ⟨hne, hdigits, hn⟩
  · rintro ⟨hne, hdigits, hn⟩
    refine ⟨dropPlus s, ?_, hne, hdigits, hn⟩
    unfold dropPlus
    split
    · exact .inr rfl
    · exact .inl rfl

/-- A text is read as the number that it denotes. -/
theorem readNat?_eq_some_iff {bound n : Nat} {s : List Char} :
    readNat? bound s = some n ↔ IsNumeral s n ∧ n < bound := by
  unfold readNat?
  rw [Option.filter_eq_some_iff, isNumeral_iff, decide_eq_true_eq]

theorem IsNumeral.unique {s : List Char} {n m : Nat} (h : IsNumeral s n) (h' : IsNumeral s m) : n = m := by
  rw [isNumeral_iff] at h h'
  exact Option.some.inj (h.symm.trans h')

theorem readNat?_eq_none_iff {bound : Nat} {s : List Char} :
    readNat? bound s = none ↔ ¬ ∃ n, IsNumeral s n ∧ n < bound := by
  simp only [Option.eq_none_iff_forall_ne_some, ne_eq, readNat?_eq_some_iff, not_exists]

theorem IsNumeral.mem {s : List Char} {n : Nat} (h : IsNumeral s n) {c : Char} (hc : c ∈ s) :
    c = '+' ∨ c.isDigit = true := by
  obtain ⟨ds, rfl | rfl, -, hdigits, -⟩ := h
  · exact .inr (hdigits c hc)
  · exact (List.mem_cons.1 hc).imp_right (hdigits c)

theorem isBlank_of_isDigit {c : Char} (h : c.isDigit = true) : isBlank c = false := by
  obtain ⟨hle, hge⟩ : 48 ≤ c.toNat ∧ c.toNat ≤ 57 := Char.isDigit_iff_toNat.1 h
  simp only [isBlank, blankRanges, List.any_cons, List.any_nil, Bool.or_eq_false_iff, Bool.and_eq_false_iff,
    decide_eq_false_iff_not, and_true]
  omega

theorem IsNumeral.not_blank {s : List Char} {n : Nat} (h : IsNumeral s n) : ∀ c ∈ s, isBlank c = false := by
  intro c hc
  rcases h.mem hc with rfl | hdigit
  · decide
  · exact isBlank_of_isDigit hdigit

/-! ## Digits of a number -/

theorem toList_toString (n : Nat) : (toString n).toList = Nat.toDigits 10 n := Nat.toList_repr

theorem isDigit_of_mem_toDigits {n : Nat} {c : Char} (h : c ∈ Nat.toDigits 10 n) : c.isDigit = true :=
  Nat.isDigit_of_mem_toDigits (by decide) (by decide) h

theorem isNumeral_toDigits (n : Nat) : IsNumeral (Nat.toDigits 10 n) n :=
  ⟨_, .inl rfl, Nat.toDigits_ne_nil, fun _ => isDigit_of_mem_toDigits, Nat.ofDigitChars_ten_toDigits⟩

/-- No two numbers have one text. -/
theorem toString_injective {n m : Nat} (h : toString n = toString m) : n = m := by
  have hn := isNumeral_toDigits n
  rw [← toList_toString, h, toList_toString] at hn
  exact hn.unique (isNumeral_toDigits m)

/-- The decimal digits of a number are read as the number. -/
theorem readNat?_toDigits {bound n : Nat} (h : n < bound) : readNat? bound (Nat.toDigits 10 n) = some n :=
  readNat?_eq_some_iff.2 ⟨isNumeral_toDigits n, h⟩

end CpuMonitor.Text
