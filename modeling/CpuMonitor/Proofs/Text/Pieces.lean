import CpuMonitor.Text.Blank

/-!
# Texts in pieces

A text falls apart at each separator. The pieces have no separator in them, and one stands between any two of them.

* `Pieces c ps s` : the text `s` has the pieces `ps` between the separators `c`.
* `byPieces` : induction on the pieces of a text, from the front.
* `splitOn_eq_iff` : a text is split into the pieces that it has; `Pieces.unique`.
-/

set_option autoImplicit false

namespace CpuMonitor.Text

/-- A text with these pieces, and a separator between any two of them. -/
structure Pieces (c : Char) (ps : List (List Char)) (s : List Char) : Prop where
  ne_nil : ps ≠ []
  no_separator : ∀ p ∈ ps, c ∉ p
  eq : s = [c].intercalate ps

@[elab_as_elim]
theorem byPieces {motive : List Char → Prop} (c : Char) (last : ∀ p, c ∉ p → motive p)
    (next : ∀ p s, c ∉ p → motive s → motive (p ++ c :: s)) (s : List Char) : motive s := by
  induction hn : s.length using Nat.strongRecOn generalizing s with
  | _ n ih =>
    by_cases hc : c ∈ s
    · obtain ⟨p, r, rfl, hp⟩ := List.eq_append_cons_of_mem hc
      apply next p r hp
      apply ih r.length _ r rfl
      rw [← hn, List.length_append, List.length_cons]
      omega
    · exact last s hc

theorem not_mem_of_mem_splitOn {c : Char} {s p : List Char} (h : p ∈ s.splitOn c) : c ∉ p := by
  induction s using byPieces c with
  | last s hs =>
    rw [List.splitOn_eq_singleton hs, List.mem_singleton] at h
    exact h ▸ hs
  | next q s hq ih =>
    rw [List.splitOn_append_cons_self_of_not_mem hq] at h
    rcases List.mem_cons.1 h with rfl | h
    · exact hq
    · exact ih h

/-- **A text is split into its pieces.** -/
theorem splitOn_eq_iff {c : Char} {ps : List (List Char)} {s : List Char} : s.splitOn c = ps ↔ Pieces c ps s := by
  constructor
  · rintro rfl
    exact ⟨List.splitOn_ne_nil c s, fun _ => not_mem_of_mem_splitOn, (List.intercalate_splitOn c).symm⟩
  · rintro ⟨hne, hc, rfl⟩
    exact List.splitOn_intercalate c hc hne

theorem Pieces.unique {c : Char} {ps ps' : List (List Char)} {s : List Char} (h : Pieces c ps s) (h' : Pieces c ps' s) :
    ps = ps' := (splitOn_eq_iff.2 h).symm.trans (splitOn_eq_iff.2 h')

theorem not_mem_intercalate {c d : Char} (hne : c ≠ d) {ps : List (List Char)} (h : ∀ p ∈ ps, c ∉ p) :
    c ∉ [d].intercalate ps := by
  induction ps with
  | nil => exact List.not_mem_nil
  | cons p ps ih =>
    obtain ⟨hp, hps⟩ := List.forall_mem_cons.1 h
    by_cases hnil : ps = []
    · rw [hnil, List.intercalate_singleton]
      exact hp
    · rw [List.intercalate_cons_of_ne_nil hnil]
      simp [hp, hne, ih hps]

end CpuMonitor.Text
