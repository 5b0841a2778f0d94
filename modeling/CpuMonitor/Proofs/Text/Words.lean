import CpuMonitor.Text.Blank

/-!
# The words of a text

A text with words has blanks between any two of them, and maybe at its ends; the words themselves have none.

* `Worded ws s` : the text `s` has the words `ws`.
* `words_append_blank` : a text falls apart at each blank.
* `words_eq_iff` : the words of a text are those that it has in this sense.
-/

set_option autoImplicit false

namespace CpuMonitor.Text

/-- A text that has these words, with blanks between them and around them. -/
inductive Worded : List (List Char) → List Char → Prop where
  | blanks {b : List Char} (hb : ∀ c ∈ b, isBlank c = true) : Worded [] b
  | word {b word rest : List Char} {ws : List (List Char)} (hb : ∀ c ∈ b, isBlank c = true) (hne : word ≠ [])
      (hword : ∀ c ∈ word, isBlank c = false) (hrest : ∀ c ∈ rest.head?, isBlank c = true) (h : Worded ws rest) :
      Worded (word :: ws) (b ++ word ++ rest)

/-! ## Words are read -/

/-- At a blank, a text falls apart. -/
theorem words_append_blank {c : Char} (hc : isBlank c = true) (s t : List Char) :
    words (s ++ c :: t) = words s ++ words t := by
  unfold words
  rw [List.splitOnP_append_cons s t hc, List.filter_append]

theorem words_nil : words [] = [] := rfl

theorem words_cons_blank {c : Char} (hc : isBlank c = true) (s : List Char) : words (c :: s) = words s :=
  words_append_blank hc [] s

theorem words_blanks {b : List Char} (h : ∀ c ∈ b, isBlank c = true) (s : List Char) :
    words (b ++ s) = words s := by
  induction b with
  | nil => rfl
  | cons c b ih =>
    obtain ⟨hc, hb⟩ := List.forall_mem_cons.1 h
    rw [List.cons_append, words_cons_blank hc, ih hb]

theorem words_word {word : List Char} (hne : word ≠ []) (h : ∀ c ∈ word, isBlank c = false) :
    words word = [word] := by
  unfold words
  rw [List.splitOnP_eq_singleton h, List.filter_cons_of_pos (by simpa using hne), List.filter_nil]

theorem words_word_append {word rest : List Char} (hne : word ≠ []) (h : ∀ c ∈ word, isBlank c = false)
    (hrest : ∀ c ∈ rest.head?, isBlank c = true) : words (word ++ rest) = word :: words rest := by
  cases rest with
  | nil => rw [List.append_nil, words_word hne h, words_nil]
  | cons c rest =>
    have hc := hrest c rfl
    rw [words_append_blank hc, words_word hne h, words_cons_blank hc, List.singleton_append]

theorem Worded.words_eq {ws : List (List Char)} {s : List Char} (h : Worded ws s) : words s = ws := by
  induction h with
  | @blanks b hb =>
    rw [← List.append_nil b, words_blanks hb, words_nil]
  | word hb hne hword hrest _ ih =>
    rw [List.append_assoc, words_blanks hb, words_word_append hne hword hrest, ih]

/-! ## Every text has words -/

theorem Worded.cons_blank {ws : List (List Char)} {s : List Char} (h : Worded ws s) {c : Char}
    (hc : isBlank c = true) : Worded ws (c :: s) := by
  cases h with
  | blanks hb => exact .blanks (List.forall_mem_cons.2 ⟨hc, hb⟩)
  | @word b word rest ws hb hne hword hrest h =>
    exact .word (b := c :: b) (List.forall_mem_cons.2 ⟨hc, hb⟩) hne hword hrest h

theorem Worded.cons_letter {ws : List (List Char)} {s : List Char} (h : Worded ws s) {c : Char}
    (hc : isBlank c = false) : ∃ ws', Worded ws' (c :: s) := by
  have hsingle : ∀ d ∈ [c], isBlank d = false := by simpa using hc
  by_cases hs : ∀ d ∈ s.head?, isBlank d = true
  · exact ⟨_, .word (b := []) nofun (List.cons_ne_nil c []) hsingle hs h⟩
  · cases h with
    | blanks hb => exact absurd (fun d hd => hb d (List.mem_of_mem_head? hd)) hs
    | @word b word rest ws hb hne hword hrest h =>
      cases b with
      | nil =>
        exact ⟨_, .word (b := []) nofun (List.cons_ne_nil c word) (List.forall_mem_cons.2 ⟨hc, hword⟩) hrest h⟩
      | cons d b =>
        refine absurd (fun e he => ?_) hs
        obtain rfl : d = e := Option.some.inj he
        exact hb d List.mem_cons_self

theorem exists_worded (s : List Char) : ∃ ws, Worded ws s := by
  induction s with
  | nil => exact ⟨[], .blanks nofun⟩
  | cons c s ih =>
    obtain ⟨ws, h⟩ := ih
    cases hc : isBlank c with
    | true => exact ⟨ws, h.cons_blank hc⟩
    | false => exact h.cons_letter hc

/-- **The words of a text** are those that it has. -/
theorem words_eq_iff {ws : List (List Char)} {s : List Char} : words s = ws ↔ Worded ws s := by
  refine ⟨?_, Worded.words_eq⟩
  rintro rfl
  obtain ⟨ws, h⟩ := exists_worded s
  rw [h.words_eq]
  exact h

end CpuMonitor.Text
