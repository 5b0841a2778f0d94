import CpuMonitor.Metric.Name
import CpuMonitor.Proofs.Metric.Spelling
import CpuMonitor.Proofs.Text.Pieces

/-!
# Texts of names

The text of a key or a name tells it: no two have one text.

* `Dotted` : a text made of parts with points between them; `Dotted.unique`.
* `Kind.text_injective`, `Window.text_injective`, `LoadWindow.text_injective`, `Scope.text_injective` : the parts tell
  what they are of.
* `MetricKey.dotted_text`, `MetricName.dotted_text` : keys and names as parts between points.
* `MetricKey.text_injective`, `MetricName.text_injective` : keys and names by their texts.
-/

set_option autoImplicit false

namespace CpuMonitor

/-! ## Parts between points -/

/-- A text of one part or more, with points between them and none within. -/
structure Dotted (s : String) (parts : List (List Char)) : Prop where
  ne_nil : parts ≠ []
  no_point : ∀ p ∈ parts, '.' ∉ p
  eq : s.toList = ['.'].intercalate parts

theorem Dotted.pieces {s : String} {parts : List (List Char)} (h : Dotted s parts) : Text.Pieces '.' parts s.toList :=
  ⟨h.ne_nil, h.no_point, h.eq⟩

/-- A text has its parts in one way. -/
theorem Dotted.unique {s : String} {parts parts' : List (List Char)} (h : Dotted s parts) (h' : Dotted s parts') :
    parts = parts' := h.pieces.unique h'.pieces

theorem point_not_mem_toDigits (n : Nat) : '.' ∉ Nat.toDigits 10 n := fun h =>
  absurd (Text.isDigit_of_mem_toDigits h) (by decide)

namespace Kind

theorem text_injective {a b : Kind} (h : a.text = b.text) : a = b := by
  have ha := ofText?_text a
  rw [h, ofText?_text] at ha
  exact (Option.some.inj ha).symm

theorem point_not_mem_text (k : Kind) : '.' ∉ k.text.toList := by cases k <;> decide

end Kind

theorem Window.text_injective {a b : Window} (h : a.text = b.text) : a = b :=
  minutes_injective (Text.toString_injective h)

theorem LoadWindow.text_injective {a b : LoadWindow} (h : a.text = b.text) : a = b :=
  minutes_injective (Text.toString_injective h)

namespace Scope

theorem toList_text_core (i : Nat) : (core i).text.toList = 'c' :: 'p' :: 'u' :: (toString i).toList := by
  rw [text, String.toList_append]
  rfl

theorem text_injective {a b : Scope} (h : a.text = b.text) : a = b := by
  have hchars := congrArg String.toList h
  cases a with
  | core i =>
    rw [toList_text_core] at hchars
    cases b with
    | core j =>
      rw [toList_text_core] at hchars
      simp only [List.cons.injEq, true_and, String.toList_inj] at hchars
      rw [Text.toString_injective hchars]
    | total => cases hchars
  | total =>
    cases b with
    | core j =>
      rw [toList_text_core] at hchars
      cases hchars
    | total => rfl

theorem point_not_mem_text (s : Scope) : '.' ∉ s.text.toList := by
  cases s with
  | core i =>
    rw [toList_text_core]
    simp [point_not_mem_toDigits]
  | total => decide

end Scope

/-! ## Keys -/

namespace MetricKey

/-- What stands between the points of the text. -/
def parts (k : MetricKey) : List (List Char) := [k.kind.text.toList, k.scope.text.toList]

theorem parts_injective {a b : MetricKey} (h : a.parts = b.parts) : a = b := by
  obtain ⟨k, s⟩ := a
  obtain ⟨k', s'⟩ := b
  simp only [parts, List.cons.injEq, String.toList_inj, and_true] at h
  rw [Kind.text_injective h.1, Scope.text_injective h.2]

theorem dotted_text (k : MetricKey) : Dotted k.text k.parts where
  ne_nil := List.cons_ne_nil _ _
  no_point := by simp [parts, k.kind.point_not_mem_text, k.scope.point_not_mem_text]
  eq := by simp [text, parts]

/-- No two keys have one text. -/
theorem text_injective {a b : MetricKey} (h : a.text = b.text) : a = b :=
  parts_injective (a.dotted_text.unique (h ▸ b.dotted_text))

end MetricKey

/-! ## Names -/

namespace MetricName

/-- What stands between the points of the text. -/
def parts : MetricName → List (List Char)
  | .utilization kind window scope => ["util".toList, kind.text.toList, window.text.toList, scope.text.toList]
  | .loadAverage window => ["load".toList, "avg".toList, window.text.toList]

theorem parts_injective {a b : MetricName} (h : a.parts = b.parts) : a = b := by
  cases a with
  | utilization kind window scope =>
    cases b with
    | utilization kind' window' scope' =>
      simp only [parts, List.cons.injEq, String.toList_inj, and_true, true_and] at h
      rw [Kind.text_injective h.1, Window.text_injective h.2.1, Scope.text_injective h.2.2]
    | loadAverage _ => cases (List.cons.inj h).1
  | loadAverage window =>
    cases b with
    | utilization _ _ _ => cases (List.cons.inj h).1
    | loadAverage window' =>
      simp only [parts, List.cons.injEq, String.toList_inj, and_true, true_and] at h
      rw [LoadWindow.text_injective h]

theorem dotted_text (n : MetricName) : Dotted n.text n.parts where
  ne_nil := by cases n <;> exact List.cons_ne_nil _ _
  no_point := by
    cases n with
    | utilization kind window scope =>
      simp [parts, kind.point_not_mem_text, scope.point_not_mem_text, Window.text, point_not_mem_toDigits]
    | loadAverage window => simp [parts, LoadWindow.text, point_not_mem_toDigits]
  eq := by cases n <;> simp [text, parts]

/-- No two names have one text. -/
theorem text_injective {a b : MetricName} (h : a.text = b.text) : a = b :=
  parts_injective (a.dotted_text.unique (h ▸ b.dotted_text))

end MetricName

end CpuMonitor
