import CpuMonitor.Json.Skip
import CpuMonitor.Proofs.Json.Reading

/-!
# Skipping what is written

A value that nobody looks at is skipped whole, whatever it holds and however deep it nests.

* `Skips` : what it means, for each part of a document, that it is skipped: the reader comes to the place behind it, with
  the brackets open that were open before it.
* `Writes.skips` : each part is skipped, by induction on its text.
* `leaves_skipValue` : a value with the blanks in front of it is skipped.
-/

set_option autoImplicit false

namespace CpuMonitor.Json

/-! ## Single steps -/

theorem leaves_expect {s rest : List Char} {c : Char} (h : NextIs s c rest) : Leaves (expect c s) rest := by
  obtain ⟨_, hnext⟩ := h
  rw [Leaves, expect, hnext]
  simp only [if_true]
  rfl

theorem leaves_skipKey {a s b : List Char} {k : String} (ha : Blanks a) (hk : Spells k.toList s) (hb : Blanks b)
    (rest : List Char) : Leaves (skipKey (a ++ '"' :: (s ++ '"' :: (b ++ ':' :: rest)))) rest := by
  obtain ⟨_, hquote⟩ := (leaves_expect (nextIs ha (c := '"') (by decide) (s ++ '"' :: (b ++ ':' :: rest)))).eq
  obtain ⟨_, hkey⟩ := (leaves_skipString hk (b ++ ':' :: rest)).eq
  obtain ⟨_, hcolon⟩ := (leaves_expect (nextIs hb (c := ':') (by decide) rest)).eq
  rw [Leaves, skipKey, hquote]
  simp only [hkey, hcolon]
  rfl

section Steps
variable {around : List Bracket} {b : Bracket} {a r : List Char} {c : Char} (ha : Blanks a)
include ha

theorem skip_behind_comma :
    skip .behind (b :: around) (a ++ ',' :: r) = skip (.item b) around r := by
  obtain ⟨_, hnext⟩ := nextIs ha (c := ',') (by decide) r
  rw [skip, hnext]
  simp only [if_true]

theorem skip_behind_close :
    skip .behind (b :: around) (a ++ b.close :: r) = skip .behind around r := by
  obtain ⟨_, hnext⟩ := nextIs ha (c := b.close) (by cases b <;> decide) r
  have hcomma : b.close ≠ ',' := by cases b <;> decide
  rw [skip, hnext]
  simp only [if_neg hcomma, if_true]

theorem skip_behind_blanks (s : List Char) : skip .behind (b :: around) (a ++ s) = skip .behind (b :: around) s := by
  rcases next?_append ha s with ⟨hblanks, hnext⟩ | ⟨c, r, _, _, hblanks, hnext⟩
  · unfold skip
    rw [hblanks, hnext]
  · unfold skip
    rw [hblanks, hnext]

theorem skip_first_close :
    skip (.first b) around (a ++ b.close :: r) = skip .behind around r := by
  obtain ⟨_, hnext⟩ := nextIs ha (c := b.close) (by cases b <;> decide) r
  rw [skip, hnext]
  simp only [if_true]

theorem skip_first_item (hc : c ∉ blankChars) (hclose : c ≠ b.close) :
    skip (.first b) around (a ++ c :: r) = skip (.item b) around (c :: r) := by
  obtain ⟨_, hnext⟩ := nextIs ha hc r
  rw [skip, hnext]
  simp only [if_neg hclose]

theorem skip_value_square : skip .value around (a ++ '[' :: r) = skip (.first .square) around r := by
  obtain ⟨_, hnext⟩ := nextIs ha (c := '[') (by decide) r
  rw [skip, hnext]
  rfl

theorem skip_value_curly : skip .value around (a ++ '\x7b' :: r) = skip (.first .curly) around r := by
  obtain ⟨_, hnext⟩ := nextIs ha (c := '\x7b') (by decide) r
  rw [skip, hnext]
  rfl

theorem skip_value_other (hc : c ∉ blankChars) (hsquare : c ≠ '[') (hcurly : c ≠ '\x7b') :
    skip .value around (a ++ c :: r) =
      match skipScalar c r with
      | .error f => .error f
      | .ok t => skip .behind around t.val := by
  obtain ⟨_, hnext⟩ := nextIs ha hc r
  rw [skip, hnext]
  split
  · rename_i h
    cases h
  · rename_i h
    cases h
    exact absurd rfl hsquare
  · rename_i h
    cases h
    exact absurd rfl hcurly
  · rename_i h
    cases h
    dsimp only
    cases skipScalar c r <;> rfl

theorem skip_value_blanks (hc : c ∉ blankChars) :
    skip .value around (a ++ c :: r) = skip .value around (c :: r) := by
  by_cases hsquare : c = '['
  · subst hsquare
    rw [skip_value_square ha]
    exact (skip_value_square Blanks.nil).symm
  · by_cases hcurly : c = '\x7b'
    · subst hcurly
      rw [skip_value_curly ha]
      exact (skip_value_curly Blanks.nil).symm
    · rw [skip_value_other ha hc hsquare hcurly]
      exact (skip_value_other Blanks.nil hc hsquare hcurly).symm

theorem skip_item_quote : skip (.item .curly) around (a ++ '"' :: r) =
    match skipString r with
    | .error f => .error f
    | .ok t =>
      match expect ':' t.val with
      | .error f => .error f
      | .ok u => skip .value (.curly :: around) u.val := by
  obtain ⟨_, hquote⟩ := (leaves_expect (nextIs ha (c := '"') (by decide) r)).eq
  rw [skip, skipKey, hquote]
  dsimp only
  cases skipString r with
  | error f => rfl
  | ok t =>
    dsimp only
    cases expect ':' t.val <;> rfl

end Steps

theorem skip_value_scalar {around : List Bracket} {c : Char} {r t : List Char} (hc : c ∉ blankChars)
    (hsquare : c ≠ '[') (hcurly : c ≠ '\x7b') (h : Leaves (skipScalar c r) t) :
    skip .value around (c :: r) = skip .behind around t := by
  obtain ⟨_, h⟩ := h.eq
  have hother : skip .value around (c :: r) = _ := skip_value_other Blanks.nil hc hsquare hcurly
  rw [h] at hother
  exact hother

theorem skip_item_curly {around : List Bracket} {s t : List Char} (h : Leaves (skipKey s) t) :
    skip (.item .curly) around s = skip .value (.curly :: around) t := by
  obtain ⟨_, h⟩ := h.eq
  conv => lhs; rw [skip, h]

theorem skip_item_square (around : List Bracket) (s : List Char) :
    skip (.item .square) around s = skip .value (.square :: around) s := by
  conv => lhs; rw [skip]

/-! ## Scalars -/

theorem leaves_skipScalar_word {c : Char} {w : List Char} (rest : List Char)
    (h : (c, w) ∈ [('n', ['u', 'l', 'l']), ('t', ['r', 'u', 'e']), ('f', ['a', 'l', 's', 'e'])]) :
    Leaves (skipScalar c (w ++ rest)) rest := by
  obtain ⟨_, hw⟩ := (leaves_literal w rest).eq
  simp only [List.mem_cons, Prod.mk.injEq, List.not_mem_nil, or_false] at h
  rcases h with ⟨rfl, rfl⟩ | ⟨rfl, rfl⟩ | ⟨rfl, rfl⟩ <;>
  · simp only [Leaves, skipScalar, hw, Char.reduceEq, if_true, if_false]
    rfl

theorem leaves_skipScalar_string {cs s : List Char} (h : Spells cs s) (rest : List Char) :
    Leaves (skipScalar '"' (s ++ '"' :: rest)) rest := by
  obtain ⟨_, hs⟩ := (leaves_skipString h rest).eq
  rw [Leaves, skipScalar, if_pos rfl, hs]
  rfl

theorem leaves_skipScalar_number {n : Numeral} {c : Char} {r : List Char} (h : WritesNumeral n (c :: r))
    (hc : c = '-' ∨ c.isDigit = true) {rest : List Char} (hrest : Ends rest) :
    Leaves (skipScalar c (r ++ rest)) rest := by
  have hread := reads_numeral h hrest
  rw [List.cons_append] at hread
  obtain ⟨_, hn⟩ := hread.eq
  have hne : c ≠ '"' ∧ c ≠ 'n' ∧ c ≠ 't' ∧ c ≠ 'f' := by
    refine ⟨?_, ?_, ?_, ?_⟩ <;> (rintro rfl; exact absurd hc (by decide))
  rw [Leaves, skipScalar, if_neg hne.1, if_neg hne.2.1, if_neg hne.2.2.1, if_neg hne.2.2.2, if_pos hc, hn]
  rfl

/-! ## Documents -/

/-- An item of a bracket is skipped. -/
def SkipsItem (b : Bracket) (s : List Char) : Prop :=
  ∀ around rest, Ends rest → skip (.item b) around (s ++ rest) = skip .behind (b :: around) rest

/-- The items of a bracket are skipped with the closing bracket. -/
def SkipsAll (b : Bracket) (s : List Char) : Prop :=
  ∀ around rest, skip (.item b) around (s ++ b.close :: rest) = skip .behind around rest

section Items
variable {b : Bracket} {s t : List Char}

theorem ends_close (b : Bracket) (rest : List Char) : Ends (b.close :: rest) := Ends.cons (by cases b <;> decide) rest

theorem SkipsItem.last (h : SkipsItem b s) : SkipsAll b s := fun around rest => by
  rw [h around _ (ends_close b rest)]
  exact skip_behind_close Blanks.nil

theorem SkipsItem.next (h : SkipsItem b s) (ht : SkipsAll b t) : SkipsAll b (s ++ ',' :: t) := fun around rest => by
  rw [List.append_assoc, List.cons_append, h around _ (Ends.cons (by decide) _), ← ht around rest]
  exact skip_behind_comma Blanks.nil

/-- Blanks in front of an item do not count. -/
theorem skip_item_blanks {around : List Bracket} {a r : List Char} {c : Char} (ha : Blanks a)
    (hc : c ∉ blankChars) (hquote : b = .curly → c = '"') :
    skip (.item b) around (a ++ c :: r) = skip (.item b) around (c :: r) := by
  cases b with
  | square => rw [skip_item_square, skip_item_square, skip_value_blanks ha hc]
  | curly =>
    obtain rfl := hquote rfl
    exact (skip_item_quote ha).trans (skip_item_quote Blanks.nil).symm

/-- The items of a bracket are skipped behind the opening bracket. -/
theorem SkipsAll.first (h : SkipsAll b s) {c : Char} (hfirst : FirstIs c s) (hc : c ∉ delimiters)
    (hquote : b = .curly → c = '"') (around : List Bracket) (rest : List Char) :
    skip (.first b) around (s ++ b.close :: rest) = skip .behind around rest := by
  have hblank := not_blank_of_not_delimiter hc
  have hclose : c ≠ b.close := by
    rintro rfl
    exact hc (by cases b <;> decide)
  obtain ⟨a, r, ha, rfl⟩ := hfirst
  rw [← h around rest, List.append_assoc, List.cons_append, skip_first_item ha hblank hclose,
    skip_item_blanks ha hblank hquote]

end Items

/-- A part of a document is skipped. -/
def Skips : Part → List Char → Prop
  | .value _, s => ∀ around rest, Ends rest → skip .value around (s ++ rest) = skip .behind around rest
  | .item _, s => ∀ b around rest, Ends rest → skip .value (b :: around) (s ++ rest) = skip .behind (b :: around) rest
  | .items _, s => SkipsAll .square s
  | .member _ _, s => SkipsItem .curly s
  | .members _, s => SkipsAll .curly s

/-- Each part of a document is skipped in each of its spellings. -/
theorem Writes.skips {p : Part} {s : List Char} (h : Writes p s) : Skips p s := by
  induction h with
  | nullWord | trueWord | falseWord =>
    intro around rest _
    exact skip_value_scalar (by decide) (by decide) (by decide) (leaves_skipScalar_word rest (by decide))
  | number hn =>
    intro around rest hrest
    obtain ⟨c, r, rfl, hc⟩ := (Writes.number hn).begins
    have hne : ∀ d, ¬(d = '-' ∨ d.isDigit = true) → c ≠ d := by
      rintro d hd rfl
      exact hd hc
    exact skip_value_scalar (Value.Begins.not_blank (v := .number _) hc) (hne _ (by decide)) (hne _ (by decide))
      (leaves_skipScalar_number hn hc hrest)
  | string hs =>
    intro around rest _
    rw [List.cons_append, List.append_assoc]
    exact skip_value_scalar (by decide) (by decide) (by decide) (leaves_skipScalar_string hs rest)
  | emptyArray ha =>
    intro around rest _
    rw [List.cons_append, List.append_assoc]
    exact (skip_value_square Blanks.nil).trans (skip_first_close ha)
  | array hl ih =>
    intro around rest _
    obtain ⟨c, hfirst, hc⟩ := hl.firstIs_items
    rw [List.cons_append, List.append_assoc]
    exact (skip_value_square Blanks.nil).trans (SkipsAll.first ih hfirst hc (fun h => by cases h) around rest)
  | emptyObject ha =>
    intro around rest _
    rw [List.cons_append, List.append_assoc]
    exact (skip_value_curly Blanks.nil).trans (skip_first_close ha)
  | object hl ih =>
    intro around rest _
    rw [List.cons_append, List.append_assoc]
    exact (skip_value_curly Blanks.nil).trans
      (SkipsAll.first ih hl.firstIs_members (by decide) (fun _ => rfl) around rest)
  | item ha hv hb ih =>
    intro b around rest hrest
    obtain ⟨c, r, rfl, hc⟩ := hv.begins
    -- The blanks behind the value are passed on the way to the comma or the bracket, so a bracket has to be open.
    rw [List.append_assoc, List.append_assoc, List.cons_append, skip_value_blanks ha hc.not_blank]
    exact (ih (b :: around) _ (hrest.append hb)).trans (skip_behind_blanks hb rest)
  | lastItem _ ih =>
    exact SkipsItem.last fun around rest hrest => by rw [skip_item_square, ih .square around rest hrest]
  | nextItem _ _ ihv ihl =>
    exact SkipsItem.next (fun around rest hrest => by rw [skip_item_square, ihv .square around rest hrest]) ihl
  | member ha hk hb _ ih =>
    intro around rest hrest
    rw [List.append_assoc, List.cons_append, List.append_assoc, List.cons_append, List.append_assoc, List.cons_append,
      skip_item_curly (leaves_skipKey ha hk hb _), ih .curly around rest hrest]
  | lastMember _ ih => exact SkipsItem.last ih
  | nextMember _ _ ihm ihl => exact SkipsItem.next ihm ihl

/-- A value is skipped with the blanks in front of it. -/
theorem leaves_skipValue {v : Value} {s rest : List Char} (h : Writes (.item v) s) (hrest : Ends rest) :
    ∃ b, Blanks b ∧ Leaves (skipValue (s ++ rest)) (b ++ rest) := by
  cases h with
  | @item _ a s b ha hv hb =>
    obtain ⟨c, r, rfl, hc⟩ := hv.begins
    have hskip : skip .value [] (a ++ (c :: r ++ b) ++ rest) = .ok (b ++ rest) := by
      rw [List.append_assoc, List.append_assoc, List.cons_append, skip_value_blanks ha hc.not_blank]
      exact (hv.skips [] _ (hrest.append hb)).trans (by rw [skip])
    refine ⟨b, hb, ?_⟩
    unfold Leaves skipValue
    split
    · rename_i heq
      rw [hskip] at heq
      cases heq
    · rename_i heq
      rw [hskip] at heq
      cases heq
      rfl

end CpuMonitor.Json
