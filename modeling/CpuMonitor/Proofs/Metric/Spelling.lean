import CpuMonitor.Metric.Kind
import CpuMonitor.Metric.Window
import CpuMonitor.Proofs.Text.Normal
import CpuMonitor.Proofs.Text.Numerals

/-!
# Spellings of windows and kinds

What a text names does not depend on its case and on the blanks around it, and what is written can be read.

* `Window.ofText?_normalize`, `Kind.ofText?_normalize` : a text names what its normal form names.
* `Window.ofText?_text`, `Kind.ofText?_text` : the text of a window, with `avg` in front, and that of a kind name them.
-/

set_option autoImplicit false

namespace CpuMonitor

namespace Window

theorem dropAvg_lower (s : List Char) : dropAvg (Text.lower s) = Text.lower (dropAvg s) := by
  have htake : Text.lower ((Text.lower s).take 3) = Text.lower (s.take 3) := by
    rw [Text.lower, Text.lower, ← List.map_take]
    exact Text.lower_lower (s.take 3)
  unfold dropAvg
  rw [htake]
  split
  · rw [Text.lower, Text.lower, List.map_drop]
  · rfl

theorem ofText?_normalize (s : String) : ofText? (Text.normalize s) = ofText? s := by
  unfold ofText? Text.normalize
  rw [String.toList_ofList, Text.trim_lower_trim, dropAvg_lower, Text.readNat?_lower]

/-- The digits of a window with `avg` in front of them. -/
theorem toList_avg (w : Window) : ("avg" ++ w.text).toList = 'a' :: 'v' :: 'g' :: Nat.toDigits 10 w.minutes := by
  rw [String.toList_append, text, Text.toList_toString]
  rfl

theorem ofMinutes?_minutes (w : Window) : ofMinutes? w.minutes = some w := dif_pos ⟨w.pos, w.lt⟩

theorem not_blank_avg (w : Window) : ∀ c ∈ ("avg" ++ w.text).toList, Text.isBlank c = false := by
  rw [toList_avg]
  intro c hc
  rcases List.mem_append.1 (show c ∈ ['a', 'v', 'g'] ++ Nat.toDigits 10 w.minutes from hc) with hc | hc
  · simp only [List.mem_cons, List.not_mem_nil, or_false] at hc
    rcases hc with rfl | rfl | rfl <;> decide
  · exact Text.isBlank_of_isDigit (Text.isDigit_of_mem_toDigits hc)

theorem trim_avg (w : Window) : Text.trim ("avg" ++ w.text).toList = ("avg" ++ w.text).toList :=
  Text.trim_of_padded (.refl _) (.of_forall w.not_blank_avg)

theorem ofText?_text (w : Window) : ofText? ("avg" ++ w.text) = some w := by
  have hdrop : dropAvg ('a' :: 'v' :: 'g' :: Nat.toDigits 10 w.minutes) = Nat.toDigits 10 w.minutes := if_pos rfl
  unfold ofText?
  rw [trim_avg, toList_avg, hdrop, Text.readNat?_toDigits w.lt, Option.bind_some, ofMinutes?_minutes]

end Window

namespace LoadWindow

theorem ofMinutes?_eq_some_iff {n : Nat} {l : LoadWindow} : ofMinutes? n = some l ↔ n = l.minutes := by
  constructor
  · intro h
    unfold ofMinutes? at h
    split at h <;> cases h <;> rfl
  · rintro rfl
    cases l <;> rfl

theorem ofMinutes?_eq_none_iff {n : Nat} : ofMinutes? n = none ↔ n ≠ 1 ∧ n ≠ 5 ∧ n ≠ 15 := by
  unfold ofMinutes?
  split <;> simp_all

end LoadWindow

namespace Kind

theorem ofText?_normalize (s : String) : ofText? (Text.normalize s) = ofText? s := by
  unfold ofText?
  rw [Text.normalize_normalize]

theorem ofText?_text (k : Kind) : ofText? k.text = some k := by cases k <;> decide

end Kind

end CpuMonitor
