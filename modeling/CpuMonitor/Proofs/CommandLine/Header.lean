import CpuMonitor.CommandLine.Watch
import CpuMonitor.Proofs.CommandLine.ListText
import CpuMonitor.Proofs.Request.Narrowing

/-!
# The lists of the header

The header shows each list of a selection as a text that the command line takes back.

* `isItem_window`, `isItem_kind` : what the lists show are items.
* `blankIfNone` : a shown list as it is passed back, with nothing in the place of the word for none.
* `names_joinList`, `splitList_blankIfNone` : what a shown list names when it is passed back.
* `header_passed_back` : the header's lists select what the header shows.
-/

set_option autoImplicit false

namespace CpuMonitor.CommandLine

/-! ## Windows and kinds as items -/

theorem isItem_window (w : Window) : IsItem ("avg" ++ w.text) where
  ne_nil := by
    rw [w.toList_avg]
    exact List.cons_ne_nil _ _
  no_comma := by
    rw [w.toList_avg]
    simp only [List.mem_cons, not_or]
    refine ⟨by decide, by decide, by decide, fun hmem => ?_⟩
    exact absurd (Text.isDigit_of_mem_toDigits hmem) (by decide)
  trimmed := w.trim_avg

theorem isItem_kind (k : Kind) : IsItem k.text := by
  cases k <;> exact ⟨by decide, by decide, by decide⟩

/-! ## Lists passed back -/

/-- The word for no items is itself an item. -/
theorem splitList_none : splitList (joinList []) = ["(none)"] := by decide +kernel

/-- A shown list as it is passed back, with nothing in the place of the word for none. -/
def blankIfNone (shown : String) : String := if shown = "(none)" then "" else shown

section PassedBack
variable {α : Type} {text : α → String} {named? : String → Option α} (hitem : ∀ a, IsItem (text a))
  (hread : ∀ a, named? (text a) = some a) (hnone : named? "(none)" = none) (l : List α)
include hitem

theorem splitList_shown (hne : l ≠ []) : splitList (joinList (l.map text)) = l.map text :=
  splitList_joinList (by simpa using hne) fun i hi => by
    obtain ⟨a, -, rfl⟩ := List.mem_map.1 hi
    exact hitem a

include hread hnone

/-- A shown list that is passed back names what it shows, and nothing else. -/
theorem names_joinList (a : α) : (∃ e ∈ splitList (joinList (l.map text)), named? e = some a) ↔ a ∈ l := by
  by_cases hnil : l = []
  · rw [hnil, List.map_nil, splitList_none]
    simp [hnone]
  · rw [splitList_shown hitem l hnil]
    simp [hread]

theorem splitList_blankIfNone : splitList (blankIfNone (joinList (l.map text))) = l.map text := by
  by_cases hnil : l = []
  · rw [hnil, List.map_nil, show blankIfNone (joinList []) = "" from rfl, splitList_empty]
  · have hshown : joinList (l.map text) ≠ "(none)" := by
      intro heq
      obtain ⟨a, r, rfl⟩ := List.exists_cons_of_ne_nil hnil
      have hsplit := splitList_shown hitem (a :: r) hnil
      rw [heq, show splitList "(none)" = ["(none)"] from splitList_none, List.map_cons] at hsplit
      have hnamed := hread a
      rw [← (List.cons.inj hsplit).1, hnone] at hnamed
      cases hnamed
    rw [blankIfNone, if_neg hshown, splitList_shown hitem l hnil]

end PassedBack

/-! ## The header passed back -/

def windowOfLoad (l : LoadWindow) : Window where
  minutes := l.minutes
  pos := by cases l <;> decide
  lt := by cases l <;> decide

theorem ofText?_none : Window.ofText? "(none)" = none := by decide +kernel

section Narrow
variable {r r' : Request} {p : Platform}

/-- What a selection holds, named again, is selected again. -/
theorem selection_narrow_eq
    (hload : ∀ w, (∃ e ∈ r'.loadWindows, Window.ofText? e = some w) ↔
      w ∈ (r.narrow p).selection.loadWindows.toList.map windowOfLoad)
    (hwindows : ∀ w, (∃ e ∈ r'.windows, Window.ofText? e = some w) ↔ w ∈ (r.narrow p).selection.windows.toList)
    (hkinds : ∀ k, (∃ e ∈ r'.kinds, Kind.ofText? e = some k) ↔ k ∈ (r.narrow p).selection.kinds.toList) :
    (r'.narrow p).selection = (r.narrow p).selection := by
  have hl : (r'.narrow p).selection.loadWindows = (r.narrow p).selection.loadWindows := OrderedSet.ext fun l => by
    rw [Request.mem_loadWindows_narrow]
    constructor
    · rintro ⟨-, e, he, w, hw, hminutes⟩
      obtain ⟨l', hl', rfl⟩ := List.mem_map.1 ((hload w).1 ⟨e, he, hw⟩)
      exact LoadWindow.minutes_injective hminutes ▸ hl'
    · intro hl
      obtain ⟨e, he, hw⟩ := (hload (windowOfLoad l)).2 (List.mem_map_of_mem hl)
      exact ⟨((r.mem_loadWindows_narrow p l).1 hl).1, e, he, _, hw, rfl⟩
  have hw : (r'.narrow p).selection.windows = (r.narrow p).selection.windows := OrderedSet.ext fun w => by
    rw [Request.mem_windows_narrow, hwindows, OrderedSet.mem_toList]
  have hk : (r'.narrow p).selection.kinds = (r.narrow p).selection.kinds := OrderedSet.ext fun k => by
    rw [Request.mem_kinds_narrow, hkinds, OrderedSet.mem_toList]
    exact ⟨fun h => h.2, fun h => ⟨((r.mem_kinds_narrow p k).1 h).1, h⟩⟩
  cases hn : (r'.narrow p).selection
  cases hm : (r.narrow p).selection
  rw [hn, hm] at hl hw hk
  cases hl
  cases hw
  cases hk
  rfl

theorem warnings_narrow_eq_nil
    (hload : r'.loadWindows = [] ∨ p.loadAverage = true ∧
      ∀ e ∈ r'.loadWindows, ∃ w, Window.ofText? e = some w ∧ w.minutes ∈ [1, 5, 15])
    (hwindows : ∀ e ∈ r'.windows, ∃ w, Window.ofText? e = some w)
    (hkinds : ∀ e ∈ r'.kinds, ∃ k, Kind.ofText? e = some k ∧ p.supports k = true) :
    (r'.narrow p).warnings = [] := by
  have hquiet : ∀ {warning? : String → Option Request.Warning} {entries : List String},
      (∀ e ∈ entries, warning? (Text.normalize e) = none) →
      (Request.distinct entries).filterMap warning? = [] := fun h => by
    refine List.filterMap_eq_nil_iff.2 fun f hf => ?_
    obtain ⟨e, he, rfl⟩ := Request.mem_distinct.1 hf
    exact h e he
  have hl : Request.loadWarnings p r'.loadWindows (Request.distinct r'.loadWindows) = [] := by
    unfold Request.loadWarnings
    rcases hload with hnil | ⟨havg, hall⟩
    · rw [if_pos hnil]
    · rw [if_pos havg, hquiet fun e he => (Request.loadWarning?_eq_none e).2 (hall e he)]
      split <;> rfl
  rw [Request.warnings_narrow, hl, hquiet fun e he => (Request.windowWarning?_eq_none e).2 (hwindows e he),
    hquiet fun e he => (Request.kindWarning?_eq_none e p).2 (hkinds e he)]
  rfl

def requestOf (s : Selection) : Request where
  loadWindows := (s.loadWindows.toList.map windowOfLoad).map fun w => "avg" ++ w.text
  windows := s.windows.toList.map fun w => "avg" ++ w.text
  kinds := s.kinds.toList.map Kind.text

theorem narrow_requestOf (r : Request) (p : Platform) :
    (requestOf (r.narrow p).selection).narrow p = ⟨(r.narrow p).selection, []⟩ := by
  have hselection : ((requestOf (r.narrow p).selection).narrow p).selection = (r.narrow p).selection := by
    refine selection_narrow_eq (fun w => ?_) (fun w => ?_) fun k => ?_
    · simp [requestOf, Window.ofText?_text]
    · simp [requestOf, Window.ofText?_text]
    · simp [requestOf, Kind.ofText?_text]
  have hwarnings : ((requestOf (r.narrow p).selection).narrow p).warnings = [] := by
    refine warnings_narrow_eq_nil ?_ (fun e he => ?_) fun e he => ?_
    · by_cases hnil : (r.narrow p).selection.loadWindows.toList = []
      · exact .inl (by simp [requestOf, hnil])
      · obtain ⟨l, hl⟩ := List.exists_mem_of_ne_nil _ hnil
        refine .inr ⟨((r.mem_loadWindows_narrow p l).1 hl).1, fun e he => ?_⟩
        obtain ⟨w, hw, rfl⟩ := List.mem_map.1 he
        obtain ⟨l', -, rfl⟩ := List.mem_map.1 hw
        exact ⟨_, Window.ofText?_text _, by cases l' <;> decide⟩
    · obtain ⟨w, -, rfl⟩ := List.mem_map.1 he
      exact ⟨w, Window.ofText?_text w⟩
    · obtain ⟨k, hk, rfl⟩ := List.mem_map.1 he
      exact ⟨k, Kind.ofText?_text k, ((r.mem_kinds_narrow p k).1 hk).1⟩
  calc (requestOf (r.narrow p).selection).narrow p
      = ⟨((requestOf (r.narrow p).selection).narrow p).selection,
          ((requestOf (r.narrow p).selection).narrow p).warnings⟩ := rfl
    _ = ⟨(r.narrow p).selection, []⟩ := by rw [hselection, hwarnings]

end Narrow

/-- Three lists on the command line leave nothing of the request below them. -/
theorem override_given (o : WatchOptions) (base : Request) (loads windows kinds : String) :
    { o with loadWindows := some loads, windows := some windows, kinds := some kinds }.override base =
      ⟨splitList loads, splitList windows, splitList kinds⟩ := rfl

section Texts
variable (plan : WatchPlan)

theorem loadText_eq : plan.loadText =
    joinList ((plan.selection.loadWindows.toList.map windowOfLoad).map fun w => "avg" ++ w.text) := by
  rw [List.map_map]
  rfl

theorem splitList_loadText : splitList (blankIfNone plan.loadText) = (requestOf plan.selection).loadWindows := by
  rw [loadText_eq]
  exact splitList_blankIfNone isItem_window Window.ofText?_text ofText?_none _

theorem splitList_windowsText : splitList (blankIfNone plan.windowsText) = (requestOf plan.selection).windows :=
  splitList_blankIfNone isItem_window Window.ofText?_text ofText?_none _

theorem splitList_kindsText : splitList (blankIfNone plan.kindsText) = (requestOf plan.selection).kinds :=
  splitList_blankIfNone isItem_kind Kind.ofText?_text (by decide +kernel) _

end Texts

/-- **The header can be passed back.** The three lists that it shows select the same on the same platform. -/
theorem header_passed_back (r base : Request) (p : Platform) (exportEvery : Duration) (duration : Option Duration)
    (o : WatchOptions) :
    let plan : WatchPlan := ⟨(r.narrow p).selection, exportEvery, duration⟩
    let shown : WatchOptions :=
      { o with loadWindows := some plan.loadText, windows := some plan.windowsText, kinds := some plan.kindsText }
    let blank : WatchOptions :=
      { o with
        loadWindows := some (blankIfNone plan.loadText), windows := some (blankIfNone plan.windowsText)
        kinds := some (blankIfNone plan.kindsText) }
    ((shown.override base).narrow p).selection = plan.selection ∧
    (blank.override base).narrow p = ⟨plan.selection, []⟩ := by
  intro plan shown blank
  constructor
  · have hwindows := names_joinList isItem_window Window.ofText?_text ofText?_none
    have hkinds := names_joinList isItem_kind Kind.ofText?_text (by decide +kernel)
    rw [override_given, loadText_eq]
    exact selection_narrow_eq (hwindows _) (hwindows _) (hkinds _)
  · rw [override_given, splitList_loadText, splitList_windowsText, splitList_kindsText]
    exact narrow_requestOf r p

end CpuMonitor.CommandLine
