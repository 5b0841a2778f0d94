import CpuMonitor.Proofs.Metric.Spelling
import CpuMonitor.Request.Selection
import Mathlib.Data.List.Basic

/-!
# Narrowing a request

What a selection holds, and which warnings there are, in terms of the entries as they are given.

* `FirstSeen` : the normal forms of entries, each where it comes first; `firstSeen_distinct`.
* `mem_accepted_distinct` : what is accepted of a list does not depend on the spelling of its entries.
* `mem_kinds_narrow`, `mem_windows_narrow`, `mem_loadWindows_narrow` : what is selected.
* `loadWarning?`, `windowWarning?`, `kindWarning?` : the warning that an entry gives, if it names nothing to collect.
* `narrow_exact` : a selection and its warnings.
-/

set_option autoImplicit false

namespace CpuMonitor.Request

/-! ## Normal forms in order -/

/-- The normal forms of the entries, each where it comes first. -/
structure FirstSeen (entries forms : List String) : Prop where
  mem_iff : ∀ f, f ∈ forms ↔ ∃ e ∈ entries, Text.normalize e = f
  inOrder : forms.Pairwise fun f g =>
    (entries.map Text.normalize).idxOf f < (entries.map Text.normalize).idxOf g

theorem pairwise_idxOf_eraseDups (l : List String) : l.eraseDups.Pairwise fun x y => l.idxOf x < l.idxOf y := by
  induction l using List.reverseRecOn with
  | nil => exact List.Pairwise.nil
  | append_singleton l z ih =>
    have hold : l.eraseDups.Pairwise fun x y => (l ++ [z]).idxOf x < (l ++ [z]).idxOf y :=
      ih.imp_of_mem fun {x y} hx hy h => by
        rw [List.idxOf_append_of_mem (List.mem_eraseDups.1 hx), List.idxOf_append_of_mem (List.mem_eraseDups.1 hy)]
        exact h
    rw [List.eraseDups_append]
    refine List.pairwise_append.2 ⟨hold, ?_, fun x hx y hy => ?_⟩
    · by_cases hz : z ∈ l <;> simp [List.removeAll, hz, List.eraseDups_cons]
    · have hx' : x ∈ l := List.mem_eraseDups.1 hx
      have hy' : y = z ∧ y ∉ l := by simpa [List.removeAll] using hy
      rw [List.idxOf_append_of_mem hx', List.idxOf_append_of_notMem hy'.2]
      exact Nat.lt_of_lt_of_le (List.idxOf_lt_length_of_mem hx') (Nat.le_add_right _ _)

theorem mem_distinct {entries : List String} {f : String} :
    f ∈ distinct entries ↔ ∃ e ∈ entries, Text.normalize e = f := by
  rw [distinct, List.mem_eraseDups, List.mem_map]

theorem firstSeen_distinct (entries : List String) : FirstSeen entries (distinct entries) where
  mem_iff _ := mem_distinct
  inOrder := pairwise_idxOf_eraseDups _

/-! ## What is selected -/

section Readings
variable {α : Type} {read : String → Except Warning α}

theorem mem_accepted {readings : List (Except Warning α)} {a : α} : a ∈ accepted readings ↔ .ok a ∈ readings := by
  rw [accepted, List.mem_filterMap]
  constructor
  · rintro ⟨x, hx, ha⟩
    cases x with
    | ok b => exact Option.some.inj ha ▸ hx
    | error w => cases ha
  · intro h
    exact ⟨.ok a, h, rfl⟩

/-- An entry is accepted for what it is read as, whatever its spelling. -/
theorem mem_accepted_distinct (hread : ∀ e a, read (Text.normalize e) = .ok a ↔ read e = .ok a)
    {entries : List String} {a : α} :
    a ∈ accepted ((distinct entries).map read) ↔ ∃ e ∈ entries, read e = .ok a := by
  rw [mem_accepted, List.mem_map]
  constructor
  · rintro ⟨f, hf, ha⟩
    obtain ⟨e, he, rfl⟩ := mem_distinct.1 hf
    exact ⟨e, he, (hread e a).1 ha⟩
  · rintro ⟨e, he, ha⟩
    exact ⟨Text.normalize e, mem_distinct.2 ⟨e, he, rfl⟩, (hread e a).2 ha⟩

end Readings

section Entries
variable {p : Platform} {e : String}

theorem windowOf_eq_ok {w : Window} : windowOf e = .ok w ↔ Window.ofText? e = some w := by
  unfold windowOf
  cases Window.ofText? e <;> simp

theorem loadWindowOf_eq_ok {l : LoadWindow} :
    loadWindowOf e = .ok l ↔ ∃ w, Window.ofText? e = some w ∧ w.minutes = l.minutes := by
  unfold loadWindowOf
  cases Window.ofText? e with
  | none => simp
  | some w =>
    simp only [Option.some.injEq, exists_eq_left', ← LoadWindow.ofMinutes?_eq_some_iff]
    cases LoadWindow.ofMinutes? w.minutes <;> simp

theorem kindOf_eq_ok {k : Kind} : kindOf p e = .ok k ↔ p.supports k = true ∧ Kind.ofText? e = some k := by
  unfold kindOf
  cases Kind.ofText? e with
  | none => simp
  | some k' =>
    by_cases h : p.supports k' = true
    · simp only [h, if_true, Except.ok.injEq, Option.some.injEq]
      exact ⟨fun hk => ⟨hk ▸ h, hk⟩, fun hk => hk.2⟩
    · simp only [h, Bool.false_eq_true, if_false, reduceCtorEq, Option.some.injEq, false_iff, not_and]
      rintro hs rfl
      exact h hs

end Entries

section Narrow
variable (r : Request) (p : Platform)

theorem mem_kinds_narrow (k : Kind) :
    k ∈ (r.narrow p).selection.kinds ↔ p.supports k = true ∧ ∃ e ∈ r.kinds, Kind.ofText? e = some k := by
  have hread : ∀ e k, kindOf p (Text.normalize e) = .ok k ↔ kindOf p e = .ok k := fun e k => by
    rw [kindOf_eq_ok, kindOf_eq_ok, Kind.ofText?_normalize]
  show k ∈ OrderedSet.ofList (accepted ((distinct r.kinds).map (kindOf p))) ↔ _
  rw [OrderedSet.mem_ofList, mem_accepted_distinct hread]
  simp only [kindOf_eq_ok]
  exact ⟨fun ⟨e, he, hs, hk⟩ => ⟨hs, e, he, hk⟩, fun ⟨hs, e, he, hk⟩ => ⟨e, he, hs, hk⟩⟩

theorem mem_windows_narrow (w : Window) :
    w ∈ (r.narrow p).selection.windows ↔ ∃ e ∈ r.windows, Window.ofText? e = some w := by
  have hread : ∀ e w, windowOf (Text.normalize e) = .ok w ↔ windowOf e = .ok w := fun e w => by
    rw [windowOf_eq_ok, windowOf_eq_ok, Window.ofText?_normalize]
  show w ∈ OrderedSet.ofList (accepted ((distinct r.windows).map windowOf)) ↔ _
  rw [OrderedSet.mem_ofList, mem_accepted_distinct hread]
  simp only [windowOf_eq_ok]

theorem mem_loadWindows_narrow (l : LoadWindow) : l ∈ (r.narrow p).selection.loadWindows ↔
    p.loadAverage = true ∧ ∃ e ∈ r.loadWindows, ∃ w, Window.ofText? e = some w ∧ w.minutes = l.minutes := by
  have hread : ∀ e l, loadWindowOf (Text.normalize e) = .ok l ↔ loadWindowOf e = .ok l := fun e l => by
    rw [loadWindowOf_eq_ok, loadWindowOf_eq_ok, Window.ofText?_normalize]
  show l ∈ OrderedSet.ofList (accepted (loadReadings p r.loadWindows)) ↔ _
  rw [OrderedSet.mem_ofList, loadReadings]
  cases p.loadAverage with
  | true =>
    rw [if_pos rfl, mem_accepted_distinct hread]
    simp only [loadWindowOf_eq_ok, true_and]
  | false =>
    rw [if_neg Bool.false_ne_true, mem_accepted]
    split <;> simp

end Narrow

/-! ## Warnings -/

/-- The warning that an entry of the list of windows gives, if it is none. -/
def windowWarning? (entry : String) : Option Warning :=
  if (Window.ofText? entry).isSome then none else some (.invalidWindow entry)

def loadWarning? (entry : String) : Option Warning :=
  match Window.ofText? entry with
  | none => some (.invalidWindow entry)
  | some w => if w.minutes ∈ [1, 5, 15] then none else some (.unsupportedLoadWindow w.minutes)

def kindWarning? (p : Platform) (entry : String) : Option Warning :=
  match Kind.ofText? entry with
  | none => some (.unknownKind entry)
  | some k => if p.supports k then none else some (.unsupportedKind k p.name)

def loadWarnings (p : Platform) (entries forms : List String) : List Warning :=
  if entries = [] then []
  else if p.loadAverage then forms.filterMap loadWarning?
  else [.loadAverageUnavailable p.name]

def refusal? {α : Type} : Except Warning α → Option Warning
  | .ok _ => none
  | .error w => some w

theorem refusal?_windowOf (e : String) : refusal? (windowOf e) = windowWarning? e := by
  unfold windowWarning? windowOf
  cases Window.ofText? e <;> rfl

theorem refusal?_loadWindowOf (e : String) : refusal? (loadWindowOf e) = loadWarning? e := by
  unfold loadWarning? loadWindowOf
  cases Window.ofText? e with
  | none => rfl
  | some w =>
    cases h : LoadWindow.ofMinutes? w.minutes with
    | none =>
      obtain ⟨h1, h5, h15⟩ := LoadWindow.ofMinutes?_eq_none_iff.1 h
      simp [h, h1, h5, h15, refusal?]
    | some l =>
      have hmem : w.minutes ∈ [1, 5, 15] := by
        rw [LoadWindow.ofMinutes?_eq_some_iff.1 h]
        cases l <;> decide
      simp only [h, hmem, if_true, refusal?]

theorem refusal?_kindOf (p : Platform) (e : String) : refusal? (kindOf p e) = kindWarning? p e := by
  unfold kindWarning? kindOf
  cases Kind.ofText? e with
  | none => rfl
  | some k => by_cases h : p.supports k = true <;> simp [h, refusal?]

theorem rejected_map {α : Type} {read : String → Except Warning α} {warning? : String → Option Warning}
    (h : ∀ e, refusal? (read e) = warning? e) (entries : List String) :
    rejected (entries.map read) = entries.filterMap warning? := by
  rw [rejected, List.filterMap_map]
  refine List.filterMap_congr fun e _ => ?_
  rw [← h e, Function.comp_apply]
  cases read e <;> rfl

theorem rejected_loadReadings (p : Platform) (entries : List String) :
    rejected (loadReadings p entries) = loadWarnings p entries (distinct entries) := by
  unfold loadReadings loadWarnings
  by_cases hnil : entries = []
  · rw [hnil, if_pos rfl]
    cases p.loadAverage <;> rfl
  · rw [if_neg hnil]
    cases p.loadAverage with
    | true =>
      rw [if_pos rfl, if_pos rfl]
      exact rejected_map refusal?_loadWindowOf _
    | false =>
      rw [if_neg Bool.false_ne_true, if_neg Bool.false_ne_true, if_neg (by simpa using hnil)]
      rfl

theorem warnings_narrow (r : Request) (p : Platform) :
    (r.narrow p).warnings = loadWarnings p r.loadWindows (distinct r.loadWindows) ++
      (distinct r.windows).filterMap windowWarning? ++ (distinct r.kinds).filterMap (kindWarning? p) := by
  show rejected (loadReadings p r.loadWindows) ++ rejected ((distinct r.windows).map windowOf) ++
    rejected ((distinct r.kinds).map (kindOf p)) = _
  rw [rejected_loadReadings, rejected_map refusal?_windowOf, rejected_map (refusal?_kindOf p)]

section Spellings
variable (e : String)

/-- An entry of the list of windows warns unless it, as given, names a window. -/
theorem windowWarning?_eq_none : windowWarning? (Text.normalize e) = none ↔ ∃ w, Window.ofText? e = some w := by
  rw [windowWarning?, Window.ofText?_normalize]
  cases Window.ofText? e <;> simp

theorem loadWarning?_eq_none : loadWarning? (Text.normalize e) = none ↔
    ∃ w, Window.ofText? e = some w ∧ w.minutes ∈ [1, 5, 15] := by
  rw [loadWarning?, Window.ofText?_normalize]
  cases Window.ofText? e with
  | none => simp
  | some w => by_cases h : w.minutes ∈ [1, 5, 15] <;> simp only [h, Option.some.injEq, exists_eq_left', if_true,
      if_false, reduceCtorEq]

theorem kindWarning?_eq_none (p : Platform) : kindWarning? p (Text.normalize e) = none ↔
    ∃ k, Kind.ofText? e = some k ∧ p.supports k = true := by
  rw [kindWarning?, Kind.ofText?_normalize]
  cases Kind.ofText? e with
  | none => simp
  | some k => simp

end Spellings

/-- **Narrowing is exact.** What is named and can be measured is selected, and each normal form that names nothing to
collect gives one warning. -/
theorem narrow_exact (r : Request) (p : Platform) :
    let n := r.narrow p
    (∀ k, k ∈ n.selection.kinds ↔ p.supports k = true ∧ ∃ e ∈ r.kinds, Kind.ofText? e = some k) ∧
    (∀ w, w ∈ n.selection.windows ↔ ∃ e ∈ r.windows, Window.ofText? e = some w) ∧
    (∀ l, l ∈ n.selection.loadWindows ↔ p.loadAverage = true ∧
      ∃ e ∈ r.loadWindows, ∃ w, Window.ofText? e = some w ∧ w.minutes = l.minutes) ∧
    (∃ loads windows kinds, FirstSeen r.loadWindows loads ∧ FirstSeen r.windows windows ∧ FirstSeen r.kinds kinds ∧
      n.warnings = loadWarnings p r.loadWindows loads ++ windows.filterMap windowWarning? ++
        kinds.filterMap (kindWarning? p)) ∧
    (∀ e, loadWarning? (Text.normalize e) = none ↔ ∃ w, Window.ofText? e = some w ∧ w.minutes ∈ [1, 5, 15]) ∧
    (∀ e, windowWarning? (Text.normalize e) = none ↔ ∃ w, Window.ofText? e = some w) ∧
    (∀ e, kindWarning? p (Text.normalize e) = none ↔ ∃ k, Kind.ofText? e = some k ∧ p.supports k = true) ∧
    r.configure p = ⟨n, n.warnings.map fun w => ⟨.warn, "[CPU] " ++ w.message⟩⟩ :=
  ⟨r.mem_kinds_narrow p, r.mem_windows_narrow p, r.mem_loadWindows_narrow p,
    ⟨_, _, _, firstSeen_distinct _, firstSeen_distinct _, firstSeen_distinct _, r.warnings_narrow p⟩,
    loadWarning?_eq_none, windowWarning?_eq_none, fun e => kindWarning?_eq_none e p, rfl⟩

/-- Two spellings of one window and one of none, a kind that the platform lacks and a window without load average. -/
example :
    let p : Platform := ⟨"bsd", .ofList [.user, .system], true⟩
    let r : Request := ⟨["AVG2", "5"], [" avg5 ", "Avg5", "Weekly"], ["IOWAIT", "User", "iowait "]⟩
    (r.narrow p).selection = ⟨.ofList [.five], .ofList [⟨5, by decide, by decide⟩], .ofList [.user]⟩ ∧
    (r.narrow p).warnings =
      [.unsupportedLoadWindow 2, .invalidWindow "weekly", .unsupportedKind .iowait "bsd"] := by
  decide +kernel

end CpuMonitor.Request
