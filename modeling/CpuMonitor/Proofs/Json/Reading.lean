import CpuMonitor.Json.Quoted
import CpuMonitor.Proofs.Json.Document

/-!
# Reading what is written

The readers of the parts of a JSON text take all of a part off the front of a text, whatever its spelling, and no more.

* `Leaves`, `Reads` : what a reader leaves, and what it reads.
* `NextIs` : the next character of a text, for which blanks do not count.
* `reads_string`, `leaves_skipString` : strings.
* `Ends`, `reads_numeral` : numbers, which only a character that may stand behind a value ends.
-/

set_option autoImplicit false

namespace CpuMonitor.Json

/-! ## Readings -/

section Readings
variable {ε α : Type} {p : List Char → Prop}

/-- A reader succeeds and leaves `rest`. -/
def Leaves (x : Except ε { t // p t }) (rest : List Char) : Prop := x.map Subtype.val = .ok rest

/-- A reader gives `a` and leaves `rest`. -/
def Reads (x : Except ε (α × { t // p t })) (a : α) (rest : List Char) : Prop :=
  x.map (fun y => (y.1, y.2.val)) = .ok (a, rest)

theorem Leaves.eq {x : Except ε { t // p t }} {rest : List Char} (h : Leaves x rest) : ∃ hr, x = .ok ⟨rest, hr⟩ := by
  cases x with
  | error e => cases h
  | ok t =>
    cases h
    exact ⟨t.property, rfl⟩

theorem Reads.eq {x : Except ε (α × { t // p t })} {a : α} {rest : List Char} (h : Reads x a rest) :
    ∃ hr, x = .ok (a, ⟨rest, hr⟩) := by
  cases x with
  | error e => cases h
  | ok y =>
    cases h
    exact ⟨y.2.property, rfl⟩

end Readings

/-! ## Blanks and words -/

theorem Blanks.nil : Blanks [] := by decide

theorem isBlank_iff {c : Char} : isBlank c = true ↔ c ∈ blankChars := by
  simp [isBlank, blankChars, or_assoc]

theorem isBlank_eq_false_iff {c : Char} : isBlank c = false ↔ c ∉ blankChars := by
  rw [← isBlank_iff, Bool.not_eq_true]

theorem dropWhile_blanks {a : List Char} (ha : Blanks a) (s : List Char) :
    (a ++ s).dropWhile isBlank = s.dropWhile isBlank :=
  List.dropWhile_append_of_pos fun c hc => isBlank_iff.2 (ha c hc)

theorem dropWhile_cons_of_not_blank {c : Char} (hc : c ∉ blankChars) (r : List Char) :
    (c :: r).dropWhile isBlank = c :: r :=
  List.dropWhile_cons_of_neg (by rw [isBlank_eq_false_iff.2 hc]; exact Bool.false_ne_true)

/-- The next character of a text that is not blank, and what follows it. -/
def NextIs (s : List Char) (c : Char) (rest : List Char) : Prop := ∃ hr, next? s = some (c, ⟨rest, hr⟩)

theorem nextIs_of_dropWhile {s r : List Char} {c : Char} (h : s.dropWhile isBlank = c :: r) : NextIs s c r := by
  unfold NextIs
  unfold next?
  split
  · rename_i heq
    rw [h] at heq
    cases heq
  · rename_i c' r' heq
    obtain ⟨rfl, rfl⟩ := List.cons.inj (h.symm.trans heq)
    refine ⟨?_, rfl⟩
    have hlen := length_dropWhile_le isBlank s
    rwa [h] at hlen

/-- The first character after some blanks is the next one. -/
theorem nextIs {a : List Char} (ha : Blanks a) {c : Char} (hc : c ∉ blankChars) (r : List Char) :
    NextIs (a ++ c :: r) c r :=
  nextIs_of_dropWhile ((dropWhile_blanks ha _).trans (dropWhile_cons_of_not_blank hc r))

theorem FirstIs.nextIs {s : List Char} {c : Char} (h : FirstIs c s) (hc : c ∉ delimiters) (t : List Char) :
    ∃ r, NextIs (s ++ t) c r := by
  obtain ⟨a, r, ha, hst⟩ := h.append t
  exact ⟨r, hst ▸ Json.nextIs ha (not_blank_of_not_delimiter hc) r⟩

theorem next?_of_dropWhile_eq_nil {s : List Char} (h : s.dropWhile isBlank = []) : next? s = none := by
  unfold next?
  split
  · rfl
  · rename_i heq
    rw [h] at heq
    cases heq

theorem next?_blanks {a : List Char} (ha : Blanks a) : next? a = none := by
  have happend := dropWhile_blanks ha []
  rw [List.append_nil] at happend
  exact next?_of_dropWhile_eq_nil happend

/-- Some blanks in front of a text leave its next character. -/
theorem next?_append {a : List Char} (ha : Blanks a) (s : List Char) :
    next? (a ++ s) = none ∧ next? s = none ∨
      ∃ c r h h', next? (a ++ s) = some (c, ⟨r, h⟩) ∧ next? s = some (c, ⟨r, h'⟩) := by
  have hdrop := dropWhile_blanks ha s
  cases hs : s.dropWhile isBlank with
  | nil => exact .inl ⟨next?_of_dropWhile_eq_nil (hdrop.trans hs), next?_of_dropWhile_eq_nil hs⟩
  | cons c r =>
    obtain ⟨h, hnext⟩ := nextIs_of_dropWhile (hdrop.trans hs)
    obtain ⟨h', hnext'⟩ := nextIs_of_dropWhile hs
    exact .inr ⟨c, r, h, h', hnext, hnext'⟩

theorem leaves_literal (w rest : List Char) : Leaves (literal w (w ++ rest)) rest := by
  induction w with
  | nil => rfl
  | cons c w ih =>
    obtain ⟨_, ht⟩ := ih.eq
    rw [Leaves, List.cons_append, literal, if_pos rfl, ht]
    rfl

/-! ## Escapes -/

theorem escapeLetter?_of_mem {l c : Char} (h : (l, c) ∈ escapes) : escapeLetter? l = some c := by
  simp only [escapes, List.mem_cons, Prod.mk.injEq, List.not_mem_nil, or_false] at h
  rcases h with ⟨rfl, rfl⟩ | ⟨rfl, rfl⟩ | ⟨rfl, rfl⟩ | ⟨rfl, rfl⟩ | ⟨rfl, rfl⟩ | ⟨rfl, rfl⟩ | ⟨rfl, rfl⟩ | ⟨rfl, rfl⟩ <;>
    rfl

/-- The letter of a code unit is no other escape. -/
theorem ne_of_mem_escapes {l c : Char} (h : (l, c) ∈ escapes) : l ≠ 'u' := by
  rintro rfl
  have hu := escapeLetter?_of_mem h
  cases hu

theorem hexDigit?_eq {n : Nat} {c : Char} (h : IsHexDigit n c) : hexDigit? c = some n := by
  have hlower : ∀ i < 16, "0123456789abcdef".toList[i]?.bind hexDigit? = some i := by decide
  have hupper : ∀ i < 16, "0123456789ABCDEF".toList[i]?.bind hexDigit? = some i := by decide
  rcases h with h | h
  · have hn := hlower n (List.getElem?_eq_some_iff.1 h).1
    rwa [h] at hn
  · have hn := hupper n (List.getElem?_eq_some_iff.1 h).1
    rwa [h] at hn

theorem reads_codeUnit {n : Nat} {u : List Char} (h : SpellsUnit n u) (rest : List Char) :
    ∃ d, u = '\\' :: 'u' :: d ∧ Reads (codeUnit (d ++ rest)) n rest := by
  cases h with
  | mk ha hb hc hd =>
    refine ⟨_, rfl, ?_⟩
    simp only [Reads, List.cons_append, List.nil_append, codeUnit, codeUnit?, hexDigit?_eq ha, hexDigit?_eq hb,
      hexDigit?_eq hc, hexDigit?_eq hd]
    rfl

/-- A character is no half of a pair. -/
theorem not_surrogate (c : Char) : isHighSurrogate c.toNat = false ∧ isLowSurrogate c.toNat = false := by
  have hc : c.toNat < 0xD800 ∨ 0xDFFF < c.toNat := by
    rcases c.valid with h | h
    · exact .inl h
    · exact .inr h.1
  simp only [isHighSurrogate, isLowSurrogate, Bool.and_eq_false_iff, decide_eq_false_iff_not]
  omega

section Halves
variable {i j : Nat} (hi : i < 0x400) (hj : j < 0x400)
include hi

theorem isHighSurrogate_add : isHighSurrogate (0xD800 + i) = true := by
  simp only [isHighSurrogate, Bool.and_eq_true, decide_eq_true_eq]
  omega

theorem isLowSurrogate_add : isLowSurrogate (0xDC00 + i) = true := by
  simp only [isLowSurrogate, Bool.and_eq_true, decide_eq_true_eq]
  omega

theorem isLowSurrogate_high : isLowSurrogate (0xD800 + i) = false := by
  simp only [isLowSurrogate, Bool.and_eq_false_iff, decide_eq_false_iff_not]
  omega

end Halves

theorem pairedChar_eq {c : Char} {i j : Nat} (hc : c.toNat = 0x10000 + i * 0x400 + j) :
    pairedChar (0xD800 + i) (0xDC00 + j) = c := by
  rw [pairedChar, Nat.add_sub_cancel_left, Nat.add_sub_cancel_left, ← hc, Char.ofNat_toNat]

theorem reads_lowHalf {j : Nat} (hj : j < 0x400) {v : List Char} (hv : SpellsUnit (0xDC00 + j) v) (rest : List Char) :
    Reads (lowHalf (v ++ rest)) (0xDC00 + j) rest := by
  obtain ⟨d, rfl, hd⟩ := reads_codeUnit hv rest
  obtain ⟨_, hd⟩ := hd.eq
  rw [Reads, List.cons_append, List.cons_append, lowHalf, hd]
  simp only [isLowSurrogate_add hj, if_true]
  rfl

theorem reads_escape_letter {l c : Char} (hl : (l, c) ∈ escapes) (rest : List Char) :
    Reads (escape (l :: rest)) c rest := by
  rw [Reads, escape, escapeLetter?_of_mem hl]
  · rfl
  · exact ne_of_mem_escapes hl

theorem reads_escape_unit {c : Char} {u : List Char} (hu : SpellsUnit c.toNat u) (rest : List Char) :
    ∃ d, u = '\\' :: d ∧ Reads (escape (d ++ rest)) c rest := by
  obtain ⟨d, rfl, hd⟩ := reads_codeUnit hu rest
  obtain ⟨_, hd⟩ := hd.eq
  refine ⟨_, rfl, ?_⟩
  rw [Reads, List.cons_append, escape, hd]
  simp only [not_surrogate c, Bool.false_eq_true, if_false, Char.ofNat_toNat]
  rfl

theorem reads_escape_pair {c : Char} {i j : Nat} (hi : i < 0x400) (hj : j < 0x400)
    (hc : c.toNat = 0x10000 + i * 0x400 + j) {u v : List Char} (hu : SpellsUnit (0xD800 + i) u)
    (hv : SpellsUnit (0xDC00 + j) v) (rest : List Char) :
    ∃ d, u = '\\' :: d ∧ Reads (escape (d ++ (v ++ rest))) c rest := by
  obtain ⟨d, rfl, hd⟩ := reads_codeUnit hu (v ++ rest)
  obtain ⟨_, hd⟩ := hd.eq
  obtain ⟨_, hlow⟩ := (reads_lowHalf hj hv rest).eq
  refine ⟨_, rfl, ?_⟩
  rw [Reads, List.cons_append, escape, hd]
  simp only [isLowSurrogate_high hi, isHighSurrogate_add hi, Bool.false_eq_true, if_false, if_true, hlow,
    pairedChar_eq hc]
  rfl

/-! ## Strings -/

theorem reads_string_escape {c : Char} {cs r t rest : List Char} (hc : Reads (escape r) c t)
    (hcs : Reads (string t) cs rest) : Reads (string ('\\' :: r)) (c :: cs) rest := by
  obtain ⟨_, hc⟩ := hc.eq
  obtain ⟨_, hcs⟩ := hcs.eq
  rw [Reads, string, hc]
  simp only [hcs]
  rfl

/-- A string is read in each of its spellings. -/
theorem reads_string {cs s : List Char} (h : Spells cs s) (rest : List Char) :
    Reads (string (s ++ '"' :: rest)) cs rest := by
  induction h with
  | nil =>
    rw [Reads, List.nil_append, string]
    rfl
  | plain hc hquote hslash _ ih =>
    obtain ⟨_, hs⟩ := ih.eq
    rw [Reads, List.cons_append, string, if_neg (Char.not_lt.2 hc), hs]
    · rfl
    · exact hquote
    · exact hslash
  | letter hl _ ih => exact reads_string_escape (reads_escape_letter hl _) ih
  | unit hu _ ih =>
    obtain ⟨d, rfl, hd⟩ := reads_escape_unit hu _
    rw [List.append_assoc]
    exact reads_string_escape hd ih
  | pair hi hj hc hu hv _ ih =>
    obtain ⟨d, rfl, hd⟩ := reads_escape_pair hi hj hc hu hv _
    rw [List.append_assoc, List.append_assoc]
    exact reads_string_escape hd ih

theorem leaves_skipEscape_letter {l c : Char} (hl : (l, c) ∈ escapes) (rest : List Char) :
    Leaves (skipEscape (l :: rest)) rest := by
  rw [Leaves, skipEscape, escapeLetter?_of_mem hl]
  · rfl
  · exact ne_of_mem_escapes hl

theorem leaves_skipEscape_unit {n : Nat} {u : List Char} (hu : SpellsUnit n u) (rest : List Char) :
    ∃ d, u = '\\' :: d ∧ Leaves (skipEscape (d ++ rest)) rest := by
  obtain ⟨d, rfl, hd⟩ := reads_codeUnit hu rest
  obtain ⟨_, hd⟩ := hd.eq
  refine ⟨_, rfl, ?_⟩
  rw [Leaves, List.cons_append, skipEscape, hd]
  rfl

theorem leaves_skipString_escape {r t rest : List Char} (hc : Leaves (skipEscape r) t)
    (hs : Leaves (skipString t) rest) : Leaves (skipString ('\\' :: r)) rest := by
  obtain ⟨_, hc⟩ := hc.eq
  obtain ⟨_, hs⟩ := hs.eq
  rw [Leaves, skipString, hc]
  simp only [hs]
  rfl

theorem leaves_skipString_unit {n : Nat} {u t rest : List Char} (hu : SpellsUnit n u)
    (hs : Leaves (skipString t) rest) : Leaves (skipString (u ++ t)) rest := by
  obtain ⟨d, rfl, hd⟩ := leaves_skipEscape_unit hu t
  exact leaves_skipString_escape hd hs

/-- A string is skipped in each of its spellings. -/
theorem leaves_skipString {cs s : List Char} (h : Spells cs s) (rest : List Char) :
    Leaves (skipString (s ++ '"' :: rest)) rest := by
  induction h with
  | nil =>
    rw [Leaves, List.nil_append, skipString]
    rfl
  | plain hc hquote hslash _ ih =>
    obtain ⟨_, hs⟩ := ih.eq
    rw [Leaves, List.cons_append, skipString, if_neg (Char.not_lt.2 hc), hs]
    · rfl
    · exact hquote
    · exact hslash
  | letter hl _ ih => exact leaves_skipString_escape (leaves_skipEscape_letter hl _) ih
  | unit hu _ ih =>
    rw [List.append_assoc]
    exact leaves_skipString_unit hu ih
  | pair _ _ _ hu hv _ ih =>
    rw [List.append_assoc, List.append_assoc]
    exact leaves_skipString_unit hu (leaves_skipString_unit hv ih)

/-! ## Numbers -/

/-- A text that does not go on with a number: it is empty, or its first character may stand behind a value. -/
def Ends (s : List Char) : Prop := ∀ c ∈ s.head?, c ∈ delimiters

/-- A text that does not go on with a digit. -/
def NoDigit (s : List Char) : Prop := ∀ c ∈ s.head?, c.isDigit = false

theorem Ends.cons {c : Char} (hc : c ∈ delimiters) (r : List Char) : Ends (c :: r) := fun d hd => by
  cases hd
  exact hc

/-- Blanks before the end of a number end it too. -/
theorem Ends.append {b s : List Char} (hb : Blanks b) (h : Ends s) : Ends (b ++ s) := by
  cases b with
  | nil => exact h
  | cons c r =>
    exact Ends.cons (List.mem_append_left _ (hb c List.mem_cons_self)) _

theorem Ends.noDigit {s : List Char} (h : Ends s) : NoDigit s := fun c hc => by
  have hall : ∀ d ∈ delimiters, d.isDigit = false := by simp [delimiters, blankChars]
  exact hall c (h c hc)

theorem reads_digits {s rest : List Char} (h : IsDigits s) (hrest : NoDigit rest) :
    Reads (digits (s ++ rest)) s rest := by
  obtain ⟨c, r, rfl⟩ := List.exists_cons_of_ne_nil h.ne_nil
  obtain ⟨hc, hr⟩ := List.forall_mem_cons.1 h.digit
  have htake : (r ++ rest).takeWhile Char.isDigit = r := by
    rw [List.takeWhile_append_of_pos hr]
    cases rest with
    | nil => simp
    | cons d t => simp [hrest d rfl]
  have hdrop : (r ++ rest).dropWhile Char.isDigit = rest := by
    rw [List.dropWhile_append_of_pos hr]
    cases rest with
    | nil => rfl
    | cons d t => simp [hrest d rfl]
  rw [Reads, List.cons_append, digits, if_pos hc]
  simp only [Except.map, htake, hdrop]

theorem reads_wholePart {n : Numeral} {s rest : List Char} (h : WritesUnsigned n s) (hrest : NoDigit rest) :
    Reads (wholePart (n.whole ++ rest)) n.whole rest := by
  obtain ⟨_, hd⟩ := (reads_digits h.whole hrest).eq
  rw [Reads, wholePart, hd]
  have hzero : ¬(n.whole.head? = some '0' ∧ n.whole.length ≠ 1) := fun ⟨hhead, hlen⟩ => hlen (by rw [h.zero hhead]; rfl)
  simp only [if_neg hzero]
  rfl

theorem WritesFraction.noDigit {n f rest : List Char} (h : WritesFraction n f) (hrest : NoDigit rest) :
    NoDigit (f ++ rest) := by
  cases h with
  | absent => exact hrest
  | point =>
    intro c hc
    cases hc
    rfl

theorem reads_fractionPart {n f rest : List Char} (h : WritesFraction n f) (hrest : NoDigit rest)
    (hpoint : rest.head? ≠ some '.') : Reads (fractionPart (f ++ rest)) n rest := by
  cases h with
  | absent =>
    rw [Reads, List.nil_append, fractionPart]
    · rfl
    · rintro r rfl
      exact hpoint rfl
  | point hd =>
    obtain ⟨_, hd⟩ := (reads_digits hd hrest).eq
    rw [Reads, List.cons_append, fractionPart, hd]
    rfl

/-- What stands behind the digits of a number, unless it is a point. -/
theorem WritesExponent.head? {n : Option Int} {e rest : List Char} (h : WritesExponent n e) (hrest : Ends rest) :
    NoDigit (e ++ rest) ∧ (e ++ rest).head? ≠ some '.' := by
  have hletter : ∀ {c : Char} {r : List Char}, c = 'e' ∨ c = 'E' → NoDigit (c :: r) ∧ (c :: r).head? ≠ some '.' := by
    rintro c r (rfl | rfl)
    · exact ⟨fun d hd => by cases hd; rfl, by simp⟩
    · exact ⟨fun d hd => by cases hd; rfl, by simp⟩
  cases h with
  | absent => exact ⟨hrest.noDigit, fun hdot => absurd (hrest _ hdot) (by decide)⟩
  | unsigned he => exact hletter he
  | plus he => exact hletter he
  | minus he => exact hletter he

theorem reads_exponentDigits {s rest : List Char} (h : IsDigits s) (hrest : NoDigit rest) (negative : Bool) :
    Reads (exponentDigits negative (s ++ rest))
      (if negative then -(Nat.ofDigitChars 10 s 0 : Int) else Nat.ofDigitChars 10 s 0) rest := by
  obtain ⟨_, hd⟩ := (reads_digits h hrest).eq
  rw [Reads, exponentDigits, hd]
  rfl

theorem reads_exponentPart_letter {c : Char} {r rest : List Char} {i : Int} (hc : c = 'e' ∨ c = 'E')
    (h : Reads (signedExponent r) i rest) : Reads (exponentPart (c :: r)) (some i) rest := by
  obtain ⟨_, h⟩ := h.eq
  rw [Reads, exponentPart, if_pos hc, h]
  rfl

theorem reads_exponentPart {n : Option Int} {e rest : List Char} (h : WritesExponent n e) (hrest : Ends rest) :
    Reads (exponentPart (e ++ rest)) n rest := by
  cases h with
  | absent =>
    cases rest with
    | nil => rfl
    | cons c r =>
      have hc : ¬(c = 'e' ∨ c = 'E') := by
        rintro (rfl | rfl)
        · exact absurd (hrest _ rfl) (by decide)
        · exact absurd (hrest _ rfl) (by decide)
      rw [Reads, List.nil_append, exponentPart, if_neg hc]
      rfl
  | unsigned he hd =>
    rw [List.cons_append]
    refine reads_exponentPart_letter he ?_
    obtain ⟨c, r, rfl⟩ := List.exists_cons_of_ne_nil hd.ne_nil
    have hdigit := hd.digit c List.mem_cons_self
    have hread := reads_exponentDigits hd hrest.noDigit false
    rw [List.cons_append, signedExponent]
    · exact hread
    · rintro r' heq
      cases heq
      cases hdigit
    · rintro r' heq
      cases heq
      cases hdigit
  | plus he hd =>
    rw [List.cons_append, List.cons_append]
    refine reads_exponentPart_letter he ?_
    obtain ⟨_, hd⟩ := (reads_exponentDigits hd hrest.noDigit false).eq
    rw [Reads, signedExponent, hd]
    rfl
  | minus he hd =>
    rw [List.cons_append, List.cons_append]
    refine reads_exponentPart_letter he ?_
    obtain ⟨_, hd⟩ := (reads_exponentDigits hd hrest.noDigit true).eq
    rw [Reads, signedExponent, hd]
    rfl

theorem reads_unsignedNumeral {n : Numeral} {s rest : List Char} (h : WritesUnsigned n s) (hrest : Ends rest) :
    Reads (unsignedNumeral n.negative (s ++ rest)) n rest := by
  obtain ⟨f, e, hf, he, rfl⟩ := h.tail
  obtain ⟨hdigit, hpoint⟩ := he.head? hrest
  obtain ⟨_, hwhole⟩ := (reads_wholePart h (hf.noDigit hdigit)).eq
  obtain ⟨_, hfraction⟩ := (reads_fractionPart hf hdigit hpoint).eq
  obtain ⟨_, hexponent⟩ := (reads_exponentPart he hrest).eq
  rw [Reads, unsignedNumeral, List.append_assoc, List.append_assoc, hwhole]
  simp only [hfraction, hexponent]
  rfl

/-- A number is read in each of its spellings. -/
theorem reads_numeral {n : Numeral} {s rest : List Char} (h : WritesNumeral n s) (hrest : Ends rest) :
    Reads (numeral (s ++ rest)) n rest := by
  cases h with
  | positive hn hu =>
    have hread := reads_unsignedNumeral hu hrest
    obtain ⟨f, e, -, -, rfl⟩ := hu.tail
    obtain ⟨c, r, hw⟩ := List.exists_cons_of_ne_nil hu.whole.ne_nil
    have hdigit := hu.whole.digit c (by simp [hw])
    rw [hn] at hread
    rw [numeral]
    · exact hread
    · rintro r' heq
      rw [hw] at heq
      cases heq
      cases hdigit
  | negative hn hu =>
    obtain ⟨_, hread⟩ := (reads_unsignedNumeral hu hrest).eq
    rw [hn] at hread
    rw [Reads, List.cons_append, numeral, hread]
    rfl

end CpuMonitor.Json
