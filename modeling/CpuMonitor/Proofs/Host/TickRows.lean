import CpuMonitor.Host.TickTable
import CpuMonitor.Proofs.Host.Fields
import CpuMonitor.Proofs.Text.Words

/-!
# The rows of `kern.cp_times`

What is read of a text of ticks, five of which make the row of one core.

* `columns` : the kinds in the order of a row.
* `length_timesOf`, `get_of_timesOf`, `timesOf_append` : the times of whole rows.
* `told` : what a text tells, or the error for it; `told_eq_ok_iff`, `told_eq_error_iff` tell it by the words.
* `told_append` : one text behind another.
* `times_of_rows` : which texts tell which times, and why others are refused.
-/

set_option autoImplicit false

namespace CpuMonitor.TickTable

/-! ## Rows -/

def columns : List Kind := [.user, .nice, .system, .irq, .idle]

theorem exists_row {ticks : List Binary64} {n : Nat} (h : ticks.length = 5 * (n + 1)) :
    ∃ user nice system irq idle rest,
      ticks = user :: nice :: system :: irq :: idle :: rest ∧ rest.length = 5 * n := by
  rcases ticks with _ | ⟨user, _ | ⟨nice, _ | ⟨system, _ | ⟨irq, _ | ⟨idle, rest⟩⟩⟩⟩⟩
  case cons.cons.cons.cons.cons =>
    simp only [List.length_cons] at h
    exact ⟨user, nice, system, irq, idle, rest, rfl, by omega⟩
  all_goals simp only [List.length_cons, List.length_nil] at h; omega

section Rows
variable (frequency : Binary64) {ticks : List Binary64} {n : Nat}

theorem length_timesOf (h : ticks.length = 5 * n) : (timesOf frequency ticks).length = n := by
  induction n generalizing ticks with
  | zero =>
    rw [List.length_eq_zero_iff.1 h]
    rfl
  | succ n ih =>
    obtain ⟨user, nice, system, irq, idle, rest, rfl, hrest⟩ := exists_row h
    rw [timesOf, List.length_cons, ih hrest]

theorem timesOf_append (h : ticks.length = 5 * n) (ticks' : List Binary64) :
    timesOf frequency (ticks ++ ticks') = timesOf frequency ticks ++ timesOf frequency ticks' := by
  induction n generalizing ticks with
  | zero =>
    rw [List.length_eq_zero_iff.1 h]
    rfl
  | succ n ih =>
    obtain ⟨user, nice, system, irq, idle, rest, rfl, hrest⟩ := exists_row h
    simp only [List.cons_append, timesOf, ih hrest]

/-- The times of a core are the ticks of its row over the frequency. -/
theorem get_of_timesOf (h : ticks.length = 5 * n) {i : Nat} {t : CpuTimes}
    (ht : (timesOf frequency ticks)[i]? = some t) :
    (∀ (j : Nat) k, columns[j]? = some k → ∃ tick, ticks[5 * i + j]? = some tick ∧ t.get k = tick / frequency) ∧
      ∀ k ∉ columns, t.get k = .zero false := by
  induction n generalizing ticks i with
  | zero =>
    rw [List.length_eq_zero_iff.1 h] at ht
    cases ht
  | succ n ih =>
    obtain ⟨user, nice, system, irq, idle, rest, rfl, hrest⟩ := exists_row h
    rw [timesOf] at ht
    cases i with
    | zero =>
      cases ht
      constructor
      · intro j k hk
        rcases j with _ | _ | _ | _ | _ | j <;> cases hk <;> exact ⟨_, rfl, rfl⟩
      · intro k hk
        cases k with
        | iowait | softirq | steal => rfl
        | _ => exact absurd hk (by decide)
    | succ i =>
      rw [List.getElem?_cons_succ] at ht
      obtain ⟨hcolumns, hother⟩ := ih hrest ht
      refine ⟨fun j k hk => ?_, hother⟩
      obtain ⟨tick, htick, htime⟩ := hcolumns j k hk
      refine ⟨tick, ?_, htime⟩
      rw [show 5 * (i + 1) + j = 5 * i + j + 5 by omega]
      exact htick

end Rows

/-! ## Texts -/

def told (text : String) (frequency : Binary64) : Except HostError (List CpuTimes) :=
  (read text frequency).mapError Fault.toHostError

/-- Words that make one whole row or more, and nothing else. -/
def MakeRows (words : List (List Char)) : Prop := ∃ n, 0 < n ∧ words.length = 5 * n

theorem makeRows_iff {words : List (List Char)} {ticks : List Binary64}
    (valid : words.map Binary64.read? = ticks.map some) :
    MakeRows words ↔ ¬ (ticks.isEmpty || ticks.length % 5 != 0) = true := by
  rw [MakeRows, length_of_valid valid, Bool.or_eq_true, List.isEmpty_iff, bne_iff_ne, ← List.length_eq_zero_iff]
  constructor
  · rintro ⟨n, hpos, hn⟩
    omega
  · intro h
    exact ⟨ticks.length / 5, by omega, by omega⟩

section Told
variable {text : String} {words : List (List Char)} (h : Text.Worded words text.toList) (frequency : Binary64)
include h

theorem told_of_invalid (invalid : ∃ word ∈ words, Binary64.read? word = none) :
    told text frequency = .error (.parse "kern.cp_times" "invalid float literal") := by
  unfold told read
  rw [h.words_eq, mapM_eq_none_iff.2 invalid]
  rfl

section Valid
variable {ticks : List Binary64} (valid : words.map Binary64.read? = ticks.map some)
include valid

theorem told_of_uneven (uneven : ¬ MakeRows words) : told text frequency =
    .error (.parse "kern.cp_times" (toString words.length ++ " values is not a multiple of 5")) := by
  unfold told read
  rw [h.words_eq, mapM_eq_some_iff.2 valid, length_of_valid valid]
  simp only [if_pos (Classical.not_not.1 (mt (makeRows_iff valid).2 uneven))]
  rfl

theorem told_of_rows (rows : MakeRows words) : told text frequency = .ok (timesOf frequency ticks) := by
  unfold told read
  rw [h.words_eq, mapM_eq_some_iff.2 valid]
  simp only [if_neg ((makeRows_iff valid).1 rows)]
  rfl

end Valid

theorem told_eq_ok_iff {times : List CpuTimes} : told text frequency = .ok times ↔
    MakeRows words ∧ ∃ ticks, words.map Binary64.read? = ticks.map some ∧ times = timesOf frequency ticks := by
  constructor
  · intro hok
    rcases valid_or_invalid words with ⟨ticks, valid⟩ | invalid
    · by_cases rows : MakeRows words
      · rw [told_of_rows h frequency valid rows] at hok
        cases hok
        exact ⟨rows, ticks, valid, rfl⟩
      · rw [told_of_uneven h frequency valid rows] at hok
        cases hok
    · rw [told_of_invalid h frequency invalid] at hok
      cases hok
  · rintro ⟨rows, ticks, valid, rfl⟩
    exact told_of_rows h frequency valid rows

theorem told_eq_error_iff {e : HostError} : told text frequency = .error e ↔
    (e = .parse "kern.cp_times" "invalid float literal" ∧ ∃ word ∈ words, Binary64.read? word = none) ∨
    (e = .parse "kern.cp_times" (toString words.length ++ " values is not a multiple of 5") ∧
      (∀ word ∈ words, Binary64.read? word ≠ none) ∧ ¬ MakeRows words) := by
  constructor
  · intro herror
    rcases valid_or_invalid words with ⟨ticks, valid⟩ | invalid
    · by_cases rows : MakeRows words
      · rw [told_of_rows h frequency valid rows] at herror
        cases herror
      · rw [told_of_uneven h frequency valid rows] at herror
        cases herror
        exact .inr ⟨rfl, ne_none_of_valid valid, rows⟩
    · rw [told_of_invalid h frequency invalid] at herror
      cases herror
      exact .inl ⟨rfl, invalid⟩
  · rintro (⟨rfl, invalid⟩ | ⟨rfl, hvalid, uneven⟩)
    · exact told_of_invalid h frequency invalid
    · rcases valid_or_invalid words with ⟨ticks, valid⟩ | ⟨word, hword, hnone⟩
      · exact told_of_uneven h frequency valid uneven
      · exact absurd hnone (hvalid word hword)

end Told

/-- Two texts with a blank between them have the rows of both. -/
theorem told_append (frequency : Binary64) {a b : String} {times times' : List CpuTimes}
    (ha : told a frequency = .ok times) (hb : told b frequency = .ok times') {c : Char}
    (hc : Text.isBlank c = true) : told (a ++ String.singleton c ++ b) frequency = .ok (times ++ times') := by
  obtain ⟨⟨n, hpos, hn⟩, ticks, valid, rfl⟩ :=
    (told_eq_ok_iff (Text.words_eq_iff.1 rfl) frequency).1 ha
  obtain ⟨⟨n', -, hn'⟩, ticks', valid', rfl⟩ :=
    (told_eq_ok_iff (Text.words_eq_iff.1 rfl) frequency).1 hb
  have hwords : Text.words (a ++ String.singleton c ++ b).toList = Text.words a.toList ++ Text.words b.toList := by
    rw [String.toList_append, String.toList_append, String.toList_singleton, List.append_assoc,
      List.singleton_append, Text.words_append_blank hc]
  refine (told_eq_ok_iff (Text.words_eq_iff.1 hwords) frequency).2 ⟨⟨n + n', by omega, ?_⟩, ticks ++ ticks', ?_, ?_⟩
  · rw [List.length_append, hn, hn']
    omega
  · rw [List.map_append, List.map_append, valid, valid']
  · rw [timesOf_append frequency ((length_of_valid valid).symm.trans hn)]

/-- **The times of rows.** A text is read just if its words are numbers in whole rows, and core `i` has those from `5
* i` on. -/
theorem times_of_rows (frequency : Binary64) :
    (∀ text : String, ∃ words, Text.Worded words text.toList ∧
      ((∃ times, told text frequency = .ok times) ↔
        (∀ word ∈ words, Binary64.read? word ≠ none) ∧ ∃ n, 0 < n ∧ words.length = 5 * n) ∧
      (∀ times, told text frequency = .ok times → words.length = 5 * times.length ∧
        ∀ (i : Nat) t, times[i]? = some t →
          (∀ (j : Nat) k, columns[j]? = some k → ∃ word tick, words[5 * i + j]? = some word ∧
            Binary64.read? word = some tick ∧ t.get k = tick / frequency) ∧
          t.iowait = .zero false ∧ t.softirq = .zero false ∧ t.steal = .zero false) ∧
      ∀ e, told text frequency = .error e ↔
        (e = .parse "kern.cp_times" "invalid float literal" ∧ ∃ word ∈ words, Binary64.read? word = none) ∨
        (e = .parse "kern.cp_times" (toString words.length ++ " values is not a multiple of 5") ∧
          (∀ word ∈ words, Binary64.read? word ≠ none) ∧ ¬ ∃ n, 0 < n ∧ words.length = 5 * n)) ∧
    ∀ a b c times times', told a frequency = .ok times → told b frequency = .ok times' → Text.isBlank c = true →
      told (a ++ String.singleton c ++ b) frequency = .ok (times ++ times') := by
  refine ⟨fun text => ?_, fun a b c times times' ha hb hc => told_append frequency ha hb hc⟩
  obtain ⟨words, h⟩ := Text.exists_worded text.toList
  refine ⟨words, h, ⟨?_, ?_⟩, fun times hok => ?_, fun e => told_eq_error_iff h frequency⟩
  · rintro ⟨times, hok⟩
    obtain ⟨rows, ticks, valid, -⟩ := (told_eq_ok_iff h frequency).1 hok
    exact ⟨ne_none_of_valid valid, rows⟩
  · rintro ⟨hvalid, rows⟩
    rcases valid_or_invalid words with ⟨ticks, valid⟩ | ⟨word, hword, hnone⟩
    · exact ⟨_, told_of_rows h frequency valid rows⟩
    · exact absurd hnone (hvalid word hword)
  · obtain ⟨⟨n, -, hn⟩, ticks, valid, rfl⟩ := (told_eq_ok_iff h frequency).1 hok
    have hlength : ticks.length = 5 * n := (length_of_valid valid).symm.trans hn
    rw [length_timesOf frequency hlength]
    refine ⟨hn, fun i t ht => ?_⟩
    obtain ⟨hcolumns, hother⟩ := get_of_timesOf frequency hlength ht
    refine ⟨fun j k hk => ?_, hother .iowait (by decide), hother .softirq (by decide), hother .steal (by decide)⟩
    obtain ⟨tick, htick, htime⟩ := hcolumns j k hk
    obtain ⟨word, hword, hread⟩ := exists_word_of_valid valid htick
    exact ⟨word, tick, hword, hread, htime⟩

/-- A text that is too short and has a word that is no number. -/
theorem times_of_rows_of_two :
    let first := "10 0 20 5 100"
    let second := " 12\t+1 22 6  9.8e1\n"
    let ofTicks := fun ticks : List Nat => timesOf (.ofNat 10) (ticks.map .ofNat)
    told first (.ofNat 10) = .ok (ofTicks [10, 0, 20, 5, 100]) ∧
    told second (.ofNat 10) = .ok (ofTicks [12, 1, 22, 6, 98]) ∧
    told (first ++ String.singleton '\n' ++ second) (.ofNat 10) =
      .ok (ofTicks [10, 0, 20, 5, 100] ++ ofTicks [12, 1, 22, 6, 98]) ∧
    told "1 2 x" (.ofNat 10) = .error (.parse "kern.cp_times" "invalid float literal") := by
  intro first second ofTicks
  have hfirst : told first (.ofNat 10) = .ok (ofTicks [10, 0, 20, 5, 100]) :=
    told_of_rows (Text.words_eq_iff.1 rfl) _ (by decide +kernel) ⟨1, by decide, by decide +kernel⟩
  have hsecond : told second (.ofNat 10) = .ok (ofTicks [12, 1, 22, 6, 98]) :=
    told_of_rows (Text.words_eq_iff.1 rfl) _ (by decide +kernel) ⟨1, by decide, by decide +kernel⟩
  have hrows := times_of_rows (.ofNat 10)
  refine ⟨hfirst, hsecond, hrows.2 _ _ _ _ _ hfirst hsecond (by decide), ?_⟩
  obtain ⟨words, hwords, -, -, herror⟩ := hrows.1 "1 2 x"
  have hmem : ['x'] ∈ words := by
    rw [← hwords.words_eq]
    decide +kernel
  exact (herror _).2 (.inl ⟨rfl, ['x'], hmem, by decide +kernel⟩)

end CpuMonitor.TickTable
