import CpuMonitor.Proofs.Host.StatLines

/-!
# The faults of `/proc/stat`

Why a text tells no cores, and which of several reasons is told.

* `Offends line e` : the line of a core for which a text is refused with `e`.
* `FirstOffence lines e` : the first of some lines that offends does so with `e`.
* `exists_offends_iff` : a line of a core offends by a word that is no number, or by too few words.
* `refusal_of_text` : a text is refused for its first line that offends, or because it has no line of a core; else all of
  its cores are told.
-/

set_option autoImplicit false

namespace CpuMonitor.ProcStat

/-! ## Lines that offend -/

/-- A word that is no number counts before a missing one. -/
inductive Offends (line : List Char) : HostError → Prop where
  | invalidField {label : List Char} {index : Nat} {fields : List (List Char)}
      (core : CoreLine line label index fields) (invalid : ∃ word ∈ fields, Binary64.read? word = none) :
      Offends line (.parse "/proc/stat" (String.ofList label ++ ": invalid float literal"))
  | tooFewFields {label : List Char} {index : Nat} {fields : List (List Char)}
      (core : CoreLine line label index fields) (valid : ∀ word ∈ fields, Binary64.read? word ≠ none)
      (few : fields.length < 4) : Offends line (.parse "/proc/stat"
        (String.ofList label ++ " has " ++ toString fields.length ++ " fields, expected at least 4"))

/-- The first of these lines that offends does so with `e`. -/
def FirstOffence (lines : List (List Char)) (e : HostError) : Prop :=
  ∃ before line after, lines = before ++ line :: after ∧ (∀ l ∈ before, ∀ e', ¬ Offends l e') ∧ Offends line e

section Offends
variable {line : List Char} {lines : List (List Char)} {e : HostError} (frequency : Binary64)

theorem Offends.isCoreLine (h : Offends line e) : IsCoreLine line := by
  cases h with
  | invalidField core => exact ⟨_, _, _, core⟩
  | tooFewFields core => exact ⟨_, _, _, core⟩

theorem exists_offends_iff : (∃ e, Offends line e) ↔ ∃ label index fields, CoreLine line label index fields ∧
    ((∃ word ∈ fields, Binary64.read? word = none) ∨ fields.length < 4) := by
  constructor
  · rintro ⟨e, h⟩
    cases h with
    | invalidField core invalid => exact ⟨_, _, _, core, .inl invalid⟩
    | tooFewFields core _ few => exact ⟨_, _, _, core, .inr few⟩
  · rintro ⟨label, index, fields, core, h⟩
    by_cases invalid : ∃ word ∈ fields, Binary64.read? word = none
    · exact ⟨_, .invalidField core invalid⟩
    · exact ⟨_, .tooFewFields core (fun word hword hnone => invalid ⟨word, hword, hnone⟩) (h.resolve_left invalid)⟩

theorem Offends.lineOf (h : Offends line e) :
    ∃ fault, ProcStat.lineOf frequency line = some (.error fault) ∧ fault.toHostError = e := by
  cases h with
  | invalidField core invalid => exact ⟨_, core.lineOf_of_invalid frequency invalid, rfl⟩
  | @tooFewFields label index fields core valid few =>
    rcases valid_or_invalid fields with ⟨ticks, hticks⟩ | ⟨word, hword, hnone⟩
    · exact ⟨_, core.lineOf_of_few frequency hticks few, rfl⟩
    · exact absurd hnone (valid word hword)

theorem lineOf_of_not_offends (core : IsCoreLine line) (h : ∀ e, ¬ Offends line e) :
    ∃ told, lineOf frequency line = some (.ok told) := by
  obtain ⟨label, index, fields, core⟩ := core
  rcases valid_or_invalid fields with ⟨ticks, hticks⟩ | hinvalid
  · have hlength := length_of_valid hticks
    have henough : ¬ fields.length < 4 := fun few =>
      have ⟨e, he⟩ := exists_offends_iff.2 ⟨label, index, fields, core, .inr few⟩
      h e he
    exact ⟨_, core.lineOf_of_valid frequency hticks (by omega)⟩
  · exact absurd (.invalidField core hinvalid) (h _)

/-! ## Lines of a text -/

theorem gather_of_not_offends (h : ∀ line ∈ lines, ∀ e, ¬ Offends line e) :
    ∃ cores, gather frequency lines = .ok cores ∧ cores.length = lines.countP (IsCoreLine ·) := by
  induction lines with
  | nil => exact ⟨[], rfl, rfl⟩
  | cons line lines ih =>
    obtain ⟨hline, hlines⟩ := List.forall_mem_cons.1 h
    obtain ⟨cores, hcores, hlength⟩ := ih hlines
    by_cases hcore : IsCoreLine line
    · obtain ⟨told, htold⟩ := lineOf_of_not_offends frequency hcore hline
      refine ⟨told :: cores, ?_, ?_⟩
      · rw [gather_cons_of_ok frequency lines htold, hcores]
        rfl
      · rw [List.length_cons, hlength, List.countP_cons_of_pos (by simpa using hcore)]
    · refine ⟨cores, ?_, ?_⟩
      · rw [gather_cons_of_none frequency lines ((lineOf_eq_none_iff frequency).2 hcore), hcores]
      · rw [hlength, List.countP_cons_of_neg (by simpa using hcore)]

/-- What stands behind a line that offends does not matter. -/
theorem FirstOffence.gather (h : FirstOffence lines e) :
    ∃ fault, ProcStat.gather frequency lines = .error fault ∧ fault.toHostError = e := by
  obtain ⟨before, line, after, rfl, hbefore, hoffends⟩ := h
  obtain ⟨fault, hfault, he⟩ := hoffends.lineOf frequency
  refine ⟨fault, ?_, he⟩
  clear hoffends he
  induction before with
  | nil => exact gather_cons_of_error frequency after hfault
  | cons l before ih =>
    obtain ⟨hl, hbefore⟩ := List.forall_mem_cons.1 hbefore
    by_cases hcore : IsCoreLine l
    · obtain ⟨told, htold⟩ := lineOf_of_not_offends frequency hcore hl
      rw [List.cons_append, gather_cons_of_ok frequency _ htold, ih hbefore]
      rfl
    · rw [List.cons_append, gather_cons_of_none frequency _ ((lineOf_eq_none_iff frequency).2 hcore), ih hbefore]

theorem FirstOffence.exists_offends (h : FirstOffence lines e) : ∃ line ∈ lines, Offends line e := by
  obtain ⟨before, line, after, rfl, -, hoffends⟩ := h
  exact ⟨line, by simp, hoffends⟩

theorem exists_firstOffence_or : ∀ lines : List (List Char),
    (∃ e, FirstOffence lines e) ∨ ∀ line ∈ lines, ∀ e, ¬ Offends line e
  | [] => .inr nofun
  | line :: lines => by
    by_cases hline : ∃ e, Offends line e
    · obtain ⟨e, he⟩ := hline
      exact .inl ⟨e, [], line, lines, rfl, nofun, he⟩
    · have hnone : ∀ e, ¬ Offends line e := fun e he => hline ⟨e, he⟩
      rcases exists_firstOffence_or lines with ⟨e, before, line', after, rfl, hbefore, he⟩ | hlines
      · exact .inl ⟨e, line :: before, line', after, rfl, List.forall_mem_cons.2 ⟨hnone, hbefore⟩, he⟩
      · exact .inr (List.forall_mem_cons.2 ⟨hnone, hlines⟩)

end Offends

/-! ## Refusals -/

def told (text : String) (frequency : Binary64) : Except HostError (List CpuTimes) :=
  (read text frequency).mapError Fault.toHostError

section Told
variable (text : String) (frequency : Binary64) {e : HostError}

theorem told_of_firstOffence (h : FirstOffence (text.toList.splitOn '\n') e) : told text frequency = .error e := by
  obtain ⟨fault, hfault, he⟩ := h.gather frequency
  unfold told
  rw [read_eq, hfault]
  exact congrArg Except.error he

theorem told_of_no_core (h : ∀ line ∈ text.toList.splitOn '\n', ¬ IsCoreLine line) :
    told text frequency = .error (.parse "/proc/stat" "no per-core cpu lines") := by
  obtain ⟨cores, hcores, hlength⟩ := gather_of_not_offends frequency fun line hline e he => h line hline he.isCoreLine
  rw [List.countP_eq_zero.2 (by simpa using h)] at hlength
  unfold told
  rw [read_eq, hcores, List.length_eq_zero_iff.1 hlength]
  rfl

theorem told_of_not_offends (h : ∀ line ∈ text.toList.splitOn '\n', ∀ e, ¬ Offends line e)
    (hcore : ∃ line ∈ text.toList.splitOn '\n', IsCoreLine line) :
    ∃ times, told text frequency = .ok times ∧ times.length = (text.toList.splitOn '\n').countP (IsCoreLine ·) := by
  obtain ⟨cores, hcores, hlength⟩ := gather_of_not_offends frequency h
  have hpos : 0 < cores.length := by
    rw [hlength, List.countP_pos_iff]
    simpa using hcore
  have hne : ¬ cores.isEmpty = true := by simpa using List.ne_nil_of_length_pos hpos
  refine ⟨inOrder cores, ?_, (length_inOrder cores).trans hlength⟩
  unfold told
  rw [read_eq, hcores]
  exact congrArg (Except.mapError Fault.toHostError) (if_neg hne)

/-- A text is refused for a line, or for having none of a core, or it tells all cores. -/
theorem told_cases : (∃ e, FirstOffence (text.toList.splitOn '\n') e ∧ told text frequency = .error e) ∨
    ((∀ line ∈ text.toList.splitOn '\n', ¬ IsCoreLine line) ∧
      told text frequency = .error (.parse "/proc/stat" "no per-core cpu lines")) ∨
    ∃ times, told text frequency = .ok times ∧ times.length = (text.toList.splitOn '\n').countP (IsCoreLine ·) := by
  rcases exists_firstOffence_or (text.toList.splitOn '\n') with ⟨e, he⟩ | hnone
  · exact .inl ⟨e, he, told_of_firstOffence text frequency he⟩
  · by_cases hcore : ∃ line ∈ text.toList.splitOn '\n', IsCoreLine line
    · exact .inr (.inr (told_of_not_offends text frequency hnone hcore))
    · have hcores : ∀ line ∈ text.toList.splitOn '\n', ¬ IsCoreLine line := fun line hline h => hcore ⟨line, hline, h⟩
      exact .inr (.inl ⟨hcores, told_of_no_core text frequency hcores⟩)

theorem told_eq_error_iff : told text frequency = .error e ↔ FirstOffence (text.toList.splitOn '\n') e ∨
    (e = .parse "/proc/stat" "no per-core cpu lines" ∧ ∀ line ∈ text.toList.splitOn '\n', ¬ IsCoreLine line) := by
  constructor
  · intro h
    rcases told_cases text frequency with ⟨e', hfirst, htold⟩ | ⟨hcores, htold⟩ | ⟨times, htold, -⟩
    · rw [htold] at h
      cases h
      exact .inl hfirst
    · rw [htold] at h
      cases h
      exact .inr ⟨rfl, hcores⟩
    · rw [htold] at h
      cases h
  · rintro (hfirst | ⟨rfl, hcores⟩)
    · exact told_of_firstOffence text frequency hfirst
    · exact told_of_no_core text frequency hcores

end Told

/-- **Refusals.** A text is refused just for its first line of a core that offends, or for having no such line. -/
theorem refusal_of_text (text : String) (frequency : Binary64) :
    let lines := text.toList.splitOn '\n'
    (∀ e, told text frequency = .error e ↔ FirstOffence lines e ∨
      (e = .parse "/proc/stat" "no per-core cpu lines" ∧ ∀ line ∈ lines, ¬ IsCoreLine line)) ∧
    ((∃ e, told text frequency = .error e) ↔
      (∃ line ∈ lines, ∃ label index fields, CoreLine line label index fields ∧
        ((∃ word ∈ fields, Binary64.read? word = none) ∨ fields.length < 4)) ∨ ∀ line ∈ lines, ¬ IsCoreLine line) ∧
    ((∃ e, told text frequency = .error e) ∨
      ∃ times, told text frequency = .ok times ∧ times.length = lines.countP (IsCoreLine ·)) := by
  intro lines
  refine ⟨fun e => told_eq_error_iff text frequency, ⟨?_, ?_⟩, ?_⟩
  · rintro ⟨e, h⟩
    rcases (told_eq_error_iff text frequency).1 h with hfirst | ⟨-, hcores⟩
    · obtain ⟨line, hline, hoffends⟩ := hfirst.exists_offends
      exact .inl ⟨line, hline, exists_offends_iff.1 ⟨e, hoffends⟩⟩
    · exact .inr hcores
  · rintro (⟨line, hline, hcore⟩ | hcores)
    · obtain ⟨e, hoffends⟩ := exists_offends_iff.2 hcore
      rcases exists_firstOffence_or lines with ⟨e', hfirst⟩ | hnone
      · exact ⟨e', told_of_firstOffence text frequency hfirst⟩
      · exact absurd hoffends (hnone line hline e)
    · exact ⟨_, told_of_no_core text frequency hcores⟩
  · rcases told_cases text frequency with ⟨e, -, h⟩ | ⟨-, h⟩ | h
    · exact .inl ⟨e, h⟩
    · exact .inl ⟨_, h⟩
    · exact .inr h

/-- A line that is too short and has a word that is no number. -/
theorem refusal_of_text_of_two :
    told "cpu  1 x\ncpu1 1 2 y\ncpu0 1 2\n" (.ofNat 100) =
      .error (.parse "/proc/stat" "cpu1: invalid float literal") := by
  have core : CoreLine "cpu1 1 2 y".toList "cpu1".toList 1 (["1", "2", "y"].map String.toList) :=
    ⟨Text.words_eq_iff.1 (by decide +kernel), coreOf?_eq_some_iff.1 (by decide +kernel)⟩
  have offends : Offends "cpu1 1 2 y".toList (.parse "/proc/stat" "cpu1: invalid float literal") :=
    .invalidField core ⟨"y".toList, by decide, by decide +kernel⟩
  refine ((refusal_of_text _ (.ofNat 100)).1 _).2 (.inl ?_)
  refine ⟨["cpu  1 x".toList], _, ["cpu0 1 2".toList, []], by decide +kernel, fun l hl e he => ?_, offends⟩
  rw [List.mem_singleton.1 hl] at he
  exact absurd he.isCoreLine (by decide +kernel)

end CpuMonitor.ProcStat
