import CpuMonitor.Host.ProcStat
import CpuMonitor.Proofs.Host.Fields
import CpuMonitor.Proofs.Text.Numerals
import CpuMonitor.Proofs.Text.Words

/-!
# The lines of `/proc/stat`

What makes a line one of a core, and what a reader makes of it.

* `Labels`, `CoreLine` : the labels of cores, and the lines that begin with one.
* `lineOf_eq_none_iff` : all other lines are skipped.
* `lineOf_of_valid`, `lineOf_of_invalid`, `lineOf_of_few` : the line of a core, by its words.
* `gather` : what the lines of a text tell together, line by line (`gather_cons_of_none`, `_ok`, `_error`); `read_eq` reads
  it off a text.
-/

set_option autoImplicit false

namespace CpuMonitor.ProcStat

/-! ## Lines of cores -/

/-- The label of a core is `cpu` and its number, which has 64 bits. -/
def Labels (label : List Char) (index : Nat) : Prop :=
  ∃ number, label = 'c' :: 'p' :: 'u' :: number ∧ Text.IsNumeral number index ∧ index < 1 <<< 64

theorem coreOf?_eq_some_iff {label : List Char} {index : Nat} : coreOf? label = some index ↔ Labels label index := by
  constructor
  · intro h
    unfold coreOf? at h
    split at h
    · exact ⟨_, rfl, Text.readNat?_eq_some_iff.1 h⟩
    · cases h
  · rintro ⟨number, rfl, h⟩
    exact Text.readNat?_eq_some_iff.2 h

/-- A line whose first word is the label of a core, and its other words. -/
structure CoreLine (line label : List Char) (index : Nat) (fields : List (List Char)) : Prop where
  worded : Text.Worded (label :: fields) line
  labels : Labels label index

def IsCoreLine (line : List Char) : Prop := ∃ label index fields, CoreLine line label index fields

section CoreLine
variable (frequency : Binary64) {line label : List Char} {index : Nat} {fields : List (List Char)}

theorem CoreLine.lineOf_eq (h : CoreLine line label index fields) : lineOf frequency line = some
    (match fields.mapM Binary64.read? with
      | none => .error (.invalidField (String.ofList label))
      | some ticks =>
        if ticks.length < 4 then .error (.tooFewFields (String.ofList label) ticks.length)
        else .ok (index, timesOf frequency ticks)) := by
  unfold lineOf
  rw [h.worded.words_eq]
  show (coreOf? label).map _ = _
  rw [coreOf?_eq_some_iff.2 h.labels]
  rfl

theorem lineOf_eq_none_iff : lineOf frequency line = none ↔ ¬ IsCoreLine line := by
  constructor
  · rintro h ⟨label, index, fields, hcore⟩
    rw [hcore.lineOf_eq frequency] at h
    cases h
  · intro h
    unfold lineOf
    split
    · rfl
    · next label fields hwords =>
      refine Option.map_eq_none_iff.2 (Option.eq_none_iff_forall_ne_some.2 fun index hindex => h ?_)
      exact ⟨label, index, fields, Text.words_eq_iff.1 hwords, coreOf?_eq_some_iff.1 hindex⟩

instance : DecidablePred IsCoreLine := fun line =>
  decidable_of_iff (lineOf (.zero false) line ≠ none) (by rw [Ne, lineOf_eq_none_iff, Classical.not_not])

/-! ## What the words of a line tell -/

theorem CoreLine.lineOf_of_valid (h : CoreLine line label index fields) {ticks : List Binary64}
    (valid : fields.map Binary64.read? = ticks.map some) (enough : 4 ≤ ticks.length) :
    lineOf frequency line = some (.ok (index, timesOf frequency ticks)) := by
  rw [h.lineOf_eq, mapM_eq_some_iff.2 valid]
  exact congrArg some (if_neg (Nat.not_lt.2 enough))

theorem CoreLine.lineOf_of_invalid (h : CoreLine line label index fields)
    (invalid : ∃ word ∈ fields, Binary64.read? word = none) :
    lineOf frequency line = some (.error (.invalidField (String.ofList label))) := by
  rw [h.lineOf_eq, mapM_eq_none_iff.2 invalid]

theorem CoreLine.lineOf_of_few (h : CoreLine line label index fields) {ticks : List Binary64}
    (valid : fields.map Binary64.read? = ticks.map some) (few : fields.length < 4) :
    lineOf frequency line = some (.error (.tooFewFields (String.ofList label) fields.length)) := by
  have hlength := length_of_valid valid
  rw [h.lineOf_eq, mapM_eq_some_iff.2 valid, hlength]
  exact congrArg some (if_pos (hlength ▸ few))

end CoreLine

/-! ## Texts -/

/-- What the lines of cores among some lines tell, up to the first one with a fault. -/
def gather (frequency : Binary64) (lines : List (List Char)) : Except Fault (List (Nat × CpuTimes)) :=
  (lines.filterMap (lineOf frequency)).mapM id

theorem read_eq (text : String) (frequency : Binary64) : read text frequency =
    (gather frequency (text.toList.splitOn '\n')).bind fun cores =>
      if cores.isEmpty then .error .noCores else .ok (inOrder cores) := rfl

theorem length_inOrder (cores : List (Nat × CpuTimes)) : (inOrder cores).length = cores.length := by
  unfold inOrder
  rw [List.length_map, List.length_mergeSort]

section Gather
variable (frequency : Binary64) {line : List Char} (lines : List (List Char))

theorem gather_cons_of_none (h : lineOf frequency line = none) :
    gather frequency (line :: lines) = gather frequency lines := by
  unfold gather
  rw [List.filterMap_cons_none h]

theorem gather_cons_of_ok {core : Nat × CpuTimes} (h : lineOf frequency line = some (.ok core)) :
    gather frequency (line :: lines) = (gather frequency lines).map (core :: ·) := by
  unfold gather
  rw [List.filterMap_cons_some h, List.mapM_cons]
  cases (lines.filterMap (lineOf frequency)).mapM id <;> rfl

theorem gather_cons_of_error {fault : Fault} (h : lineOf frequency line = some (.error fault)) :
    gather frequency (line :: lines) = .error fault := by
  unfold gather
  rw [List.filterMap_cons_some h, List.mapM_cons]
  rfl

end Gather

end CpuMonitor.ProcStat
