import CpuMonitor.Text.Blank
import CpuMonitor.Text.Numeral
import Mathlib.Data.List.DropRight

/-!
# Normal forms of texts

A text is trimmed once and its letters are made small once: doing it again, or in the other order, changes nothing.

* `head?_trim`, `getLast?_trim`, `trim_eq_self` : the trimmed texts are those without a blank at either end.
* `Padded`, `Tight` : a text with blanks around it, and one without; `trim_eq_iff` tells by them what trimming leaves.
* `lower_trim`, `lower_lower`, `normalize_normalize` : small letters and blanks do not get in each other's way.
* `readNat?_lower` : digits and signs have no case.
-/

set_option autoImplicit false

namespace CpuMonitor.Text

/-! ## Trimming -/

theorem trimEnd_eq_rdropWhile (s : List Char) : trimEnd s = s.rdropWhile isBlank := rfl

theorem not_isBlank_of_head?_trimStart {s : List Char} {c : Char} (h : c ∈ (trimStart s).head?) :
    isBlank c = false := by
  have hhead := List.head?_dropWhile_not isBlank s
  rw [show (s.dropWhile isBlank).head? = some c from h] at hhead
  exact hhead

/-- Without a blank at its front, a text keeps its front when its end is trimmed. -/
theorem head?_trimEnd {s : List Char} (h : ∀ c ∈ s.head?, isBlank c = false) : (trimEnd s).head? = s.head? := by
  rw [trimEnd_eq_rdropWhile]
  cases s with
  | nil => rfl
  | cons c r =>
    obtain ⟨t, ht⟩ := List.rdropWhile_prefix isBlank (c :: r)
    cases hd : (c :: r).rdropWhile isBlank with
    | nil =>
      have hall := List.rdropWhile_eq_nil_iff.1 hd c List.mem_cons_self
      rw [h c rfl] at hall
      cases hall
    | cons d r' =>
      rw [hd, List.cons_append] at ht
      rw [(List.cons.inj ht).1]
      rfl

theorem head?_trim {s : List Char} {c : Char} (h : c ∈ (trim s).head?) : isBlank c = false := by
  rw [trim, head?_trimEnd fun d hd => not_isBlank_of_head?_trimStart hd] at h
  exact not_isBlank_of_head?_trimStart h

theorem getLast?_trim {s : List Char} {c : Char} (h : c ∈ (trim s).getLast?) : isBlank c = false := by
  rw [trim, trimEnd, List.getLast?_reverse] at h
  exact not_isBlank_of_head?_trimStart h

theorem trimStart_eq_self {s : List Char} (h : ∀ c ∈ s.head?, isBlank c = false) : trimStart s = s := by
  cases s with
  | nil => rfl
  | cons c r => rw [trimStart, List.dropWhile_cons_of_neg (by simp [h c rfl])]

theorem trim_eq_self {s : List Char} (h : ∀ c ∈ s.head?, isBlank c = false)
    (h' : ∀ c ∈ s.getLast?, isBlank c = false) : trim s = s := by
  rw [trim, trimStart_eq_self h, trimEnd]
  have hrev : trimStart s.reverse = s.reverse := trimStart_eq_self (by simpa using h')
  rw [show s.reverse.dropWhile isBlank = s.reverse from hrev, List.reverse_reverse]

theorem trim_trim (s : List Char) : trim (trim s) = trim s :=
  trim_eq_self (fun _ => head?_trim) fun _ => getLast?_trim

/-! ## Blanks around a text -/

/-- The text `s` is `t` with any number of blanks before and behind it. -/
def Padded (t s : List Char) : Prop :=
  ∃ b b', s = b ++ t ++ b' ∧ (∀ c ∈ b, isBlank c = true) ∧ ∀ c ∈ b', isBlank c = true

/-- A text that neither begins nor ends with a blank. -/
structure Tight (t : List Char) : Prop where
  head : ∀ c ∈ t.head?, isBlank c = false
  last : ∀ c ∈ t.getLast?, isBlank c = false

theorem Tight.of_forall {t : List Char} (h : ∀ c ∈ t, isBlank c = false) : Tight t where
  head _ hc := h _ (List.mem_of_mem_head? hc)
  last _ hc := h _ (List.mem_of_getLast? hc)

theorem Tight.of_all {t : List Char} (h : (t.all fun c => !isBlank c) = true) : Tight t := .of_forall fun c hc => by
  simpa using List.all_eq_true.1 h c hc

theorem Tight.nil : Tight [] := .of_forall nofun

theorem tight_trim (s : List Char) : Tight (trim s) := ⟨fun _ => head?_trim, fun _ => getLast?_trim⟩

theorem Padded.mem {t s : List Char} (h : Padded t s) {c : Char} (hc : c ∈ t) : c ∈ s := by
  obtain ⟨b, b', rfl, -, -⟩ := h
  exact List.mem_append_left _ (List.mem_append_right _ hc)

theorem Padded.mem_cases {t s : List Char} (h : Padded t s) {c : Char} (hc : c ∈ s) : c ∈ t ∨ isBlank c = true := by
  obtain ⟨b, b', rfl, hb, hb'⟩ := h
  rcases List.mem_append.1 hc with hc | hc
  · exact (List.mem_append.1 hc).elim (fun hc => .inr (hb c hc)) .inl
  · exact .inr (hb' c hc)

theorem Padded.refl (t : List Char) : Padded t t := ⟨[], [], by simp, nofun, nofun⟩

theorem Padded.trans {t u s : List Char} (h : Padded t u) (h' : Padded u s) : Padded t s := by
  obtain ⟨b, b', rfl, hb, hb'⟩ := h
  obtain ⟨d, d', rfl, hd, hd'⟩ := h'
  refine ⟨d ++ b, b' ++ d', by simp only [List.append_assoc], fun c hc => ?_, fun c hc => ?_⟩
  · exact (List.mem_append.1 hc).elim (hd c) (hb c)
  · exact (List.mem_append.1 hc).elim (hb' c) (hd' c)

theorem trimStart_append {b : List Char} (h : ∀ c ∈ b, isBlank c = true) (s : List Char) :
    trimStart (b ++ s) = trimStart s := List.dropWhile_append_of_pos h

theorem trimEnd_append {b : List Char} (h : ∀ c ∈ b, isBlank c = true) (s : List Char) :
    trimEnd (s ++ b) = trimEnd s := by
  unfold trimEnd
  rw [List.reverse_append, List.dropWhile_append_of_pos fun c hc => h c (List.mem_reverse.1 hc)]

theorem padded_trim (s : List Char) : Padded (trim s) s := by
  refine ⟨s.takeWhile isBlank, ((trimStart s).reverse.takeWhile isBlank).reverse, ?_,
    fun c => List.mem_takeWhile_imp, fun c hc => List.mem_takeWhile_imp (List.mem_reverse.1 hc)⟩
  have hend : trim s ++ ((trimStart s).reverse.takeWhile isBlank).reverse = trimStart s := by
    rw [trim, trimEnd, ← List.reverse_append, List.takeWhile_append_dropWhile, List.reverse_reverse]
  rw [List.append_assoc, hend, trimStart, List.takeWhile_append_dropWhile]

theorem trim_of_padded {t s : List Char} (h : Padded t s) (tight : Tight t) : trim s = t := by
  obtain ⟨b, b', rfl, hb, hb'⟩ := h
  rw [trim, List.append_assoc, trimStart_append hb]
  cases t with
  | nil =>
    have hnil : trimStart b' = [] := List.dropWhile_eq_nil_iff.2 hb'
    rw [List.nil_append, hnil]
    rfl
  | cons c t =>
    have hstart : trimStart (c :: t ++ b') = c :: t ++ b' := trimStart_eq_self fun d hd => tight.head d hd
    have hself : trim (c :: t) = c :: t := trim_eq_self tight.head tight.last
    rw [trim, trimStart_eq_self tight.head] at hself
    rw [hstart, trimEnd_append hb', hself]

/-- Blanks around a text do not change what trimming leaves. -/
theorem Padded.trim_eq {t s : List Char} (h : Padded t s) : trim s = trim t :=
  trim_of_padded ((padded_trim t).trans h) (tight_trim t)

/-- **What trimming leaves** has no blank at either end, and the text has blanks around it. -/
theorem trim_eq_iff {t s : List Char} : trim s = t ↔ Padded t s ∧ Tight t := by
  constructor
  · rintro rfl
    exact ⟨padded_trim s, tight_trim s⟩
  · rintro ⟨h, tight⟩
    exact trim_of_padded h tight

/-- Nothing is left of a text of blanks. -/
theorem trim_eq_nil_iff {s : List Char} : trim s = [] ↔ ∀ c ∈ s, isBlank c = true := by
  rw [trim_eq_iff, and_iff_left Tight.nil]
  constructor
  · rintro ⟨b, b', rfl, hb, hb'⟩ c hc
    rw [List.append_nil] at hc
    exact (List.mem_append.1 hc).elim (hb c) (hb' c)
  · intro h
    exact ⟨s, [], by simp, h, nofun⟩

/-! ## Small letters -/

/-- A letter that changes its case is one of `A` to `Z`, and becomes one of `a` to `z`. -/
theorem toLower_cases (c : Char) :
    c.toLower = c ∨ (65 ≤ c.toNat ∧ c.toNat ≤ 90) ∧ c.toLower.toNat = c.toNat + 32 := by
  unfold Char.toLower
  split
  · next h =>
    refine .inr ⟨h, ?_⟩
    obtain ⟨hle, hge⟩ : 65 ≤ c.val.toNat ∧ c.val.toNat ≤ 90 := h
    show (c.val + ('a'.val - 'A'.val)).toNat = c.toNat + 32
    rw [UInt32.toNat_add, Nat.mod_eq_of_lt]
    · rfl
    · show c.val.toNat + 32 < 2 ^ 32
      omega
  · exact .inl rfl

theorem toLower_toLower (c : Char) : c.toLower.toLower = c.toLower := by
  rcases toLower_cases c with h | ⟨hc, h⟩
  · rw [h, h]
  · rcases toLower_cases c.toLower with h' | ⟨hc', -⟩
    · exact h'
    · omega

theorem isBlank_toLower (c : Char) : isBlank c.toLower = isBlank c := by
  rcases toLower_cases c with h | ⟨hc, h⟩
  · rw [h]
  · have hletter : ∀ d : Char, 65 ≤ d.toNat → d.toNat ≤ 122 → isBlank d = false := by
      intro d hle hge
      simp only [isBlank, blankRanges, List.any_cons, List.any_nil, Bool.or_eq_false_iff, Bool.and_eq_false_iff,
        decide_eq_false_iff_not, and_true]
      omega
    rw [hletter c (by omega) (by omega), hletter c.toLower (by omega) (by omega)]

theorem isDigit_toLower (c : Char) : c.toLower.isDigit = c.isDigit := by
  rcases toLower_cases c with h | ⟨hc, h⟩
  · rw [h]
  · have hletter : ∀ d : Char, 65 ≤ d.toNat → d.isDigit = false := by
      intro d hle
      rw [← Bool.not_eq_true, Char.isDigit_iff_toNat]
      show ¬ (48 ≤ d.toNat ∧ d.toNat ≤ 57)
      omega
    rw [hletter c hc.1, hletter c.toLower (by omega)]

theorem toLower_of_isDigit {c : Char} (h : c.isDigit = true) : c.toLower = c := by
  obtain ⟨-, hle⟩ : 48 ≤ c.toNat ∧ c.toNat ≤ 57 := Char.isDigit_iff_toNat.1 h
  rcases toLower_cases c with h | ⟨hc, -⟩
  · exact h
  · omega

/-- What is below the letters stays as it is. -/
theorem toLower_eq_iff {c d : Char} (hd : d.toNat < 65) : c.toLower = d ↔ c = d := by
  rcases toLower_cases c with h | ⟨hc, h⟩
  · rw [h]
  · constructor
    · rintro rfl
      omega
    · rintro rfl
      omega

theorem lower_lower (s : List Char) : lower (lower s) = lower s := by
  unfold lower
  rw [List.map_map]
  exact List.map_congr_left fun c _ => toLower_toLower c

theorem lower_trim (s : List Char) : lower (trim s) = trim (lower s) := by
  have hblank : isBlank ∘ Char.toLower = isBlank := funext isBlank_toLower
  unfold lower trim trimEnd trimStart
  rw [List.dropWhile_map, hblank, ← List.map_reverse, List.dropWhile_map, hblank, ← List.map_reverse]

theorem trim_lower_trim (s : List Char) : trim (lower (trim s)) = lower (trim s) := by
  rw [← lower_trim, trim_trim]

theorem normalize_normalize (s : String) : normalize (normalize s) = normalize s := by
  unfold normalize
  rw [String.toList_ofList, trim_lower_trim, lower_lower]

/-! ## Numbers -/

theorem dropPlus_lower (s : List Char) : dropPlus (lower s) = lower (dropPlus s) := by
  cases s with
  | nil => rfl
  | cons c r =>
    by_cases hc : c = '+'
    · subst hc
      rfl
    · have hc' : c.toLower ≠ '+' := fun h => hc ((toLower_eq_iff (by decide)).1 h)
      have hsame : ∀ {d : Char} (t : List Char), d ≠ '+' → dropPlus (d :: t) = d :: t := by
        intro d t hd
        unfold dropPlus
        split
        · next heq => exact absurd (List.cons.inj heq).1 hd
        · rfl
      rw [hsame r hc]
      exact hsame (lower r) hc'

theorem digits?_lower (s : List Char) : digits? (lower s) = digits? s := by
  unfold digits?
  have hall : (lower s).all Char.isDigit = s.all Char.isDigit := by
    rw [lower, List.all_map, show Char.isDigit ∘ Char.toLower = Char.isDigit from funext isDigit_toLower]
  have hempty : (lower s).isEmpty = s.isEmpty := by cases s <;> rfl
  rw [hall, hempty]
  split
  · rfl
  · next h =>
    rw [Bool.or_eq_true, not_or] at h
    have hdigits : ∀ c ∈ s, c.isDigit = true := by simpa using h.2
    have hsame : lower s = s := by
      rw [lower, List.map_congr_left fun c hc => toLower_of_isDigit (hdigits c hc), List.map_id']
    rw [hsame]

theorem readNat?_lower (bound : Nat) (s : List Char) : readNat? bound (lower s) = readNat? bound s := by
  unfold readNat?
  rw [dropPlus_lower, digits?_lower]

end CpuMonitor.Text
