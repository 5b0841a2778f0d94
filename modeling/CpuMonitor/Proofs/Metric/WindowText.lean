import CpuMonitor.Proofs.Metric.Spelling

/-!
# Texts of windows

Which texts denote a window, and which window they denote.

* `Window.Denotes` : the texts that denote a number of minutes, by their parts.
* `Window.denotes_iff`, `Window.ofText?_eq_some_iff` : a text is read as the window of the minutes that it denotes.
* `CutAt` : a text in two parts behind a number of bytes; `Window.dropAvg_of_cut` finds `avg` in the first three bytes.
* `Window.ofText?_of_variant` : case and blanks do not count.
* `Window.ofText_exact` : which texts are windows, what the others give, and the spellings of a window.
-/

set_option autoImplicit false

namespace CpuMonitor

/-! ## Bytes -/

/-- The text `s` is `p` and then `r`, and `p` has `n` bytes. -/
def CutAt (n : Nat) (s p r : List Char) : Prop := s = p ++ r ∧ (String.ofList p).utf8ByteSize = n

theorem eq_nil_of_utf8ByteSize {s t : List Char}
    (h : (String.ofList (s ++ t)).utf8ByteSize = (String.ofList s).utf8ByteSize) : t = [] := by
  rw [String.ofList_append, String.utf8ByteSize_append] at h
  have hempty : String.ofList t = "" := String.utf8ByteSize_eq_zero_iff.1 (by omega)
  rw [← String.toList_ofList (l := t), hempty]
  rfl

/-- Behind a byte, a text falls apart in one way. -/
theorem CutAt.unique {n : Nat} {s p r p' r' : List Char} (h : CutAt n s p r) (h' : CutAt n s p' r') : p = p' := by
  obtain ⟨rfl, hsize⟩ := h
  obtain ⟨heq, hsize'⟩ := h'
  rcases List.append_eq_append_iff.1 heq with ⟨q, rfl, -⟩ | ⟨q, rfl, -⟩
  · rw [eq_nil_of_utf8ByteSize (hsize'.trans hsize.symm), List.append_nil]
  · rw [eq_nil_of_utf8ByteSize (hsize.trans hsize'.symm), List.append_nil]

theorem utf8ByteSize_of_forall {s : List Char} (h : ∀ c ∈ s, c.utf8Size = 1) :
    (String.ofList s).utf8ByteSize = s.length := by
  induction s with
  | nil => rfl
  | cons c s ih =>
    obtain ⟨hc, hs⟩ := List.forall_mem_cons.1 h
    rw [← List.singleton_append, String.ofList_append, String.utf8ByteSize_append, ih hs, ← String.singleton_eq_ofList,
      String.utf8ByteSize_singleton, hc, List.length_append, List.length_singleton]

namespace Window

/-! ## The word before the number -/

/-- The three letters `avg`, each in one of its cases. -/
def IsAvg (s : List Char) : Prop := Text.lower s = ['a', 'v', 'g']

theorem IsAvg.length {s : List Char} (h : IsAvg s) : s.length = 3 := by
  rw [← List.length_map Char.toLower]
  exact congrArg List.length h

theorem IsAvg.toLower_cases {s : List Char} (h : IsAvg s) {c : Char} (hc : c ∈ s) :
    c.toLower = 'a' ∨ c.toLower = 'v' ∨ c.toLower = 'g' := by
  have hmem : c.toLower ∈ ['a', 'v', 'g'] := by
    rw [← h]
    exact List.mem_map_of_mem hc
  simpa using hmem

theorem IsAvg.not_blank {s : List Char} (h : IsAvg s) : ∀ c ∈ s, Text.isBlank c = false := by
  intro c hc
  rw [← Text.isBlank_toLower]
  rcases h.toLower_cases hc with heq | heq | heq <;> rw [heq] <;> decide

theorem IsAvg.utf8ByteSize {s : List Char} (h : IsAvg s) : (String.ofList s).utf8ByteSize = 3 := by
  rw [utf8ByteSize_of_forall fun c hc => ?_, h.length]
  have hletter : c.toLower.toNat ≤ 127 := by
    rcases h.toLower_cases hc with heq | heq | heq <;> rw [heq] <;> decide
  have hc : c.toNat ≤ 127 := by
    rcases Text.toLower_cases c with hsame | ⟨hcase, -⟩
    · rwa [hsame] at hletter
    · omega
  exact Char.utf8Size_eq_one_iff.2 (UInt32.le_iff_toNat_le.2 hc)

theorem dropAvg_append {avg : List Char} (h : IsAvg avg) (r : List Char) : dropAvg (avg ++ r) = r := by
  unfold dropAvg
  rw [List.take_left' h.length, List.drop_left' h.length]
  exact if_pos h

theorem dropAvg_cases (s : List Char) : dropAvg s = s ∨ ∃ avg, IsAvg avg ∧ s = avg ++ dropAvg s := by
  unfold dropAvg
  split
  · next h => exact .inr ⟨s.take 3, h, (List.take_append_drop 3 s).symm⟩
  · exact .inl rfl

theorem dropAvg_of_numeral {s : List Char} {n : Nat} (h : Text.IsNumeral s n) : dropAvg s = s := by
  refine (dropAvg_cases s).resolve_right ?_
  rintro ⟨avg, havg, hs⟩
  obtain ⟨c, r, rfl⟩ := List.exists_cons_of_length_pos (by rw [havg.length]; decide : 0 < avg.length)
  have hletter := havg.toLower_cases List.mem_cons_self
  have hc : c ∈ s := by
    rw [hs]
    exact List.mem_cons_self
  rcases h.mem hc with rfl | hdigit
  · exact absurd hletter (by decide)
  · rw [Text.toLower_of_isDigit hdigit] at hletter
    rcases hletter with rfl | rfl | rfl <;> exact absurd hdigit (by decide)

/-- The letters are looked for in the first three bytes, if a character ends behind these. -/
theorem dropAvg_of_cut {s p r : List Char} (h : CutAt 3 s p r) :
    dropAvg s = if Text.lower p = ['a', 'v', 'g'] then r else s := by
  split
  · next hp =>
    rw [h.1]
    exact dropAvg_append hp r
  · next hp =>
    refine (dropAvg_cases s).resolve_right ?_
    rintro ⟨avg, havg, hs⟩
    rw [← h.unique ⟨hs, havg.utf8ByteSize⟩] at havg
    exact hp havg

/-! ## Numbers of minutes -/

/-- A text denotes so many minutes, maybe with `avg` in front, and blanks around them. -/
def Denotes (s : List Char) (n : Nat) : Prop :=
  ∃ avg number, Text.Padded (avg ++ number) s ∧ (avg = [] ∨ IsAvg avg) ∧ Text.IsNumeral number n

theorem denotes_iff {s : List Char} {n : Nat} : Denotes s n ↔ Text.IsNumeral (dropAvg (Text.trim s)) n := by
  constructor
  · rintro ⟨avg, number, hpadded, havg, hnumber⟩
    have htight : Text.Tight (avg ++ number) := Text.Tight.of_forall fun c hc => by
      rcases List.mem_append.1 hc with hc | hc
      · rcases havg with rfl | havg
        · exact absurd hc List.not_mem_nil
        · exact havg.not_blank c hc
      · exact hnumber.not_blank c hc
    rw [Text.trim_of_padded hpadded htight]
    rcases havg with rfl | havg
    · rw [List.nil_append, dropAvg_of_numeral hnumber]
      exact hnumber
    · rw [dropAvg_append havg]
      exact hnumber
  · intro h
    have hpadded := Text.padded_trim s
    rcases dropAvg_cases (Text.trim s) with hsame | ⟨avg, havg, heq⟩
    · rw [hsame] at h
      exact ⟨[], _, hpadded, .inl rfl, h⟩
    · rw [heq] at hpadded
      exact ⟨avg, _, hpadded, .inr havg, h⟩

theorem ofMinutes?_eq_some_iff {n : Nat} {w : Window} : ofMinutes? n = some w ↔ w.minutes = n := by
  constructor
  · intro h
    unfold ofMinutes? at h
    split at h
    · cases h
      rfl
    · cases h
  · rintro rfl
    exact ofMinutes?_minutes w

theorem ofText?_eq_some_iff {s : String} {w : Window} : ofText? s = some w ↔ Denotes s.toList w.minutes := by
  unfold ofText?
  rw [Option.bind_eq_some_iff, denotes_iff]
  constructor
  · rintro ⟨n, hn, hw⟩
    rw [ofMinutes?_eq_some_iff.1 hw]
    exact (Text.readNat?_eq_some_iff.1 hn).1
  · intro h
    exact ⟨w.minutes, Text.readNat?_eq_some_iff.2 ⟨h, w.lt⟩, ofMinutes?_minutes w⟩

theorem exists_window_iff {s : String} :
    (∃ w, ofText? s = some w) ↔ ∃ n, Denotes s.toList n ∧ 1 ≤ n ∧ n ≤ 4294967295 := by
  constructor
  · rintro ⟨w, hw⟩
    exact ⟨w.minutes, ofText?_eq_some_iff.1 hw, w.pos, Nat.le_of_lt_succ w.lt⟩
  · rintro ⟨n, hn, hpos, hle⟩
    exact ⟨⟨n, hpos, Nat.lt_succ_of_le hle⟩, ofText?_eq_some_iff.2 hn⟩

/-! ## Spellings -/

theorem ofText?_of_variant {s y : String} {x : List Char} (padded : Text.Padded x s.toList)
    (hcase : Text.lower x = Text.lower y.toList) (hy : ∀ c ∈ y.toList, Text.isBlank c = false) :
    ofText? s = ofText? y := by
  have hx : ∀ c ∈ x, Text.isBlank c = false := by
    intro c hc
    have hmem : c.toLower ∈ Text.lower y.toList := hcase ▸ List.mem_map_of_mem hc
    obtain ⟨d, hd, heq⟩ := List.mem_map.1 hmem
    rw [← Text.isBlank_toLower, ← heq, Text.isBlank_toLower]
    exact hy d hd
  have hnormal : Text.normalize s = Text.normalize y := by
    unfold Text.normalize
    rw [Text.trim_of_padded padded (.of_forall hx), Text.trim_of_padded (.refl _) (.of_forall hy), hcase]
  rw [← ofText?_normalize s, hnormal, ofText?_normalize]

theorem isNumeral_text (w : Window) : Text.IsNumeral w.text.toList w.minutes := by
  rw [text, Text.toList_toString]
  exact Text.isNumeral_toDigits w.minutes

/-- **Texts of windows.** A text is read just if it denotes the minutes of a window, and else it is given back as it
is. -/
theorem ofText_exact (s : String) :
    (∀ w, ofText s = .ok w ↔ Denotes s.toList w.minutes) ∧
    ((∃ w, ofText s = .ok w) ↔ ∃ n, Denotes s.toList n ∧ 1 ≤ n ∧ n ≤ 4294967295) ∧
    (∀ e, ofText s = .error e ↔ e = ⟨s⟩ ∧ ¬ ∃ n, Denotes s.toList n ∧ 1 ≤ n ∧ n ≤ 4294967295) ∧
    (∀ p r, CutAt 3 (Text.trim s.toList) p r →
      dropAvg (Text.trim s.toList) = if Text.lower p = ['a', 'v', 'g'] then r else Text.trim s.toList) ∧
    (dropAvg (Text.trim s.toList) = Text.trim s.toList ∨
      ∃ p, CutAt 3 (Text.trim s.toList) p (dropAvg (Text.trim s.toList))) ∧
    ∀ w x, Text.Padded x s.toList →
      (Text.lower x = Text.lower w.text.toList ∨ Text.lower x = Text.lower ("avg" ++ w.text).toList) →
      ofText s = .ok w := by
  have hok : ∀ w, ofText s = .ok w ↔ ofText? s = some w := by
    intro w
    unfold ofText
    cases ofText? s <;> simp
  have herror : ∀ e, ofText s = .error e ↔ e = ⟨s⟩ ∧ ¬ ∃ w, ofText? s = some w := by
    intro e
    unfold ofText
    cases ofText? s <;> simp [eq_comm]
  refine ⟨fun w => ?_, ?_, fun e => ?_, fun p r => dropAvg_of_cut, ?_, fun w x hpadded hcase => ?_⟩
  · rw [hok, ofText?_eq_some_iff]
  · simp only [hok]
    exact exists_window_iff
  · rw [herror, exists_window_iff]
  · exact (dropAvg_cases _).imp_right fun ⟨avg, havg, heq⟩ => ⟨avg, heq, havg.utf8ByteSize⟩
  · rw [hok]
    rcases hcase with hcase | hcase
    · rw [ofText?_of_variant hpadded hcase w.isNumeral_text.not_blank, ofText?_eq_some_iff]
      exact ⟨[], _, .refl _, .inl rfl, w.isNumeral_text⟩
    · rw [ofText?_of_variant hpadded hcase w.not_blank_avg, ofText?_text]

/-- Fifteen minutes in mixed case between blanks of several bytes. -/
theorem ofText_exact_of_mixed_case :
    let s := "\u2003aVg+0015\u00a0"
    let t := "\u2003AvG15\t"
    Denotes s.toList 15 ∧ dropAvg (Text.trim s.toList) = "+0015".toList ∧
      ∃ w : Window, w.minutes = 15 ∧ ofText s = .ok w ∧ ofText t = .ok w := by
  intro s t
  have hdenotes : Denotes s.toList 15 := denotes_iff.2 (Text.isNumeral_iff.2 (by decide +kernel))
  have hcut : CutAt 3 (Text.trim s.toList) "aVg".toList "+0015".toList := ⟨by decide +kernel, by decide +kernel⟩
  have hpadded : Text.Padded "AvG15".toList t.toList :=
    ⟨['\u2003'], ['\t'], by decide +kernel, List.forall_mem_singleton.2 (by decide),
      List.forall_mem_singleton.2 (by decide)⟩
  obtain ⟨hread, -, -, hdrop, -⟩ := ofText_exact s
  refine ⟨hdenotes, (hdrop _ _ hcut).trans (if_pos (by decide)), ⟨15, by decide, by decide⟩, rfl, ?_, ?_⟩
  · exact (hread _).2 hdenotes
  · obtain ⟨-, -, -, -, -, hspelling⟩ := ofText_exact t
    exact hspelling _ _ hpadded (.inr (by decide +kernel))

end Window

end CpuMonitor
