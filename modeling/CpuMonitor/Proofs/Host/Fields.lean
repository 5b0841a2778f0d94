import CpuMonitor.Decimal.Reader

/-!
# Words that are numbers

The fields of a host's texts are words, each of which is to be a number.

* `mapM_eq_some_iff`, `mapM_eq_none_iff` : a partial function at all elements of a list.
* `valid_or_invalid` : the words are all numbers, or there is one that is none.
-/

set_option autoImplicit false

namespace CpuMonitor

section MapM
variable {α β : Type} {g : α → Option β}

theorem map_eq_of_mapM : ∀ {l : List α} {r : List β}, l.mapM g = some r → l.map g = r.map some
  | [], r, h => by
    cases h
    rfl
  | a :: l, r, h => by
    rw [List.mapM_cons] at h
    obtain ⟨b, hb, h⟩ := Option.bind_eq_some_iff.1 h
    obtain ⟨r', hr, h⟩ := Option.bind_eq_some_iff.1 h
    cases h
    rw [List.map_cons, List.map_cons, hb, map_eq_of_mapM hr]

theorem mapM_eq_some_iff {l : List α} {r : List β} : l.mapM g = some r ↔ l.map g = r.map some := by
  refine ⟨map_eq_of_mapM, fun h => ?_⟩
  induction l generalizing r with
  | nil =>
    rw [List.map_eq_nil_iff.1 h.symm]
    rfl
  | cons a l ih =>
    obtain ⟨b, r, rfl, hb, hr⟩ := List.map_eq_cons_iff.1 h.symm
    rw [List.mapM_cons, ← hb, ih hr.symm]
    rfl

theorem mapM_eq_none_iff {l : List α} : l.mapM g = none ↔ ∃ a ∈ l, g a = none := by
  induction l with
  | nil => exact iff_of_false nofun fun ⟨a, ha, _⟩ => List.not_mem_nil ha
  | cons a l ih =>
    rw [List.mapM_cons]
    cases hb : g a with
    | none => exact iff_of_true rfl ⟨a, List.mem_cons_self, hb⟩
    | some b =>
      have hrest : (∃ a' ∈ a :: l, g a' = none) ↔ ∃ a' ∈ l, g a' = none := by simp [hb]
      rw [hrest, ← ih]
      cases l.mapM g <;> simp

end MapM

section Fields
variable {fields : List (List Char)} {ticks : List Binary64}

/-- Words that are all numbers are as many as these. -/
theorem length_of_valid (valid : fields.map Binary64.read? = ticks.map some) : fields.length = ticks.length := by
  rw [← List.length_map Binary64.read?, valid, List.length_map]

theorem ne_none_of_valid (valid : fields.map Binary64.read? = ticks.map some) :
    ∀ word ∈ fields, Binary64.read? word ≠ none := by
  intro word hword hnone
  have hmem : none ∈ ticks.map some := valid ▸ hnone ▸ List.mem_map_of_mem hword
  simp at hmem

theorem exists_word_of_valid (valid : fields.map Binary64.read? = ticks.map some) {i : Nat} {tick : Binary64}
    (h : ticks[i]? = some tick) : ∃ word, fields[i]? = some word ∧ Binary64.read? word = some tick := by
  have hi : (fields.map Binary64.read?)[i]? = some (some tick) := by
    rw [valid, List.getElem?_map, h]
    rfl
  rw [List.getElem?_map] at hi
  exact Option.map_eq_some_iff.1 hi

/-- The words are all numbers, or there is one that is none. -/
theorem valid_or_invalid (fields : List (List Char)) :
    (∃ ticks : List Binary64, fields.map Binary64.read? = ticks.map some) ∨
      ∃ word ∈ fields, Binary64.read? word = none := by
  cases h : fields.mapM Binary64.read? with
  | none => exact .inr (mapM_eq_none_iff.1 h)
  | some ticks => exact .inl ⟨ticks, mapM_eq_some_iff.1 h⟩

end Fields

end CpuMonitor
