import CpuMonitor.CommandLine.Lists
import CpuMonitor.Proofs.Text.Normal
import CpuMonitor.Proofs.Text.Pieces

/-!
# Texts of lists

The items of a text are what is between its commas, and texts are made of items in many ways.

* `IsItem` : the texts that can be an item; `isItem_iff`.
* `ItemsOf pieces items` : the items that pieces between commas leave; `itemsOf_eq_iff` finds them.
* `splitList_eq_iff` : the items of a text are those that its pieces leave.
* `splitList_intercalate`, `splitList_joinList` : items that are joined come back.
* `items_of_text` : which items a text has, and which texts have given items.
-/

set_option autoImplicit false

namespace CpuMonitor.CommandLine

/-! ## Items -/

/-- A text that is read back as one item. -/
structure IsItem (s : String) : Prop where
  ne_nil : s.toList ≠ []
  no_comma : ',' ∉ s.toList
  trimmed : Text.trim s.toList = s.toList

theorem IsItem.tight {s : String} (h : IsItem s) : Text.Tight s.toList := h.trimmed ▸ Text.tight_trim s.toList

theorem isItem_iff {s : String} : IsItem s ↔ s.toList ≠ [] ∧ ',' ∉ s.toList ∧ Text.Tight s.toList :=
  ⟨fun h => ⟨h.ne_nil, h.no_comma, h.tight⟩, fun ⟨hne, hcomma, tight⟩ =>
    ⟨hne, hcomma, Text.trim_eq_self tight.head tight.last⟩⟩

/-! ## Pieces and items -/

/-- A blank piece leaves no item, and any other one leaves what it has between blanks. -/
inductive ItemsOf : List (List Char) → List String → Prop where
  | nil : ItemsOf [] []
  | blank {p : List Char} {ps : List (List Char)} {items : List String} (hp : ∀ c ∈ p, Text.isBlank c = true)
      (h : ItemsOf ps items) : ItemsOf (p :: ps) items
  | item {p : List Char} {ps : List (List Char)} {i : String} {items : List String} (hp : Text.Padded i.toList p)
      (h : ItemsOf ps items) : ItemsOf (p :: ps) (i :: items)

def itemsOf (ps : List (List Char)) : List String :=
  ((ps.map Text.trim).filter fun item => !item.isEmpty).map String.ofList

theorem splitList_eq (s : String) : splitList s = itemsOf (s.toList.splitOn ',') := rfl

theorem itemsOf_cons_of_blank {p : List Char} (hp : ∀ c ∈ p, Text.isBlank c = true) (ps : List (List Char)) :
    itemsOf (p :: ps) = itemsOf ps := by
  unfold itemsOf
  rw [List.map_cons, Text.trim_eq_nil_iff.2 hp]
  rfl

theorem itemsOf_cons_of_ne {p : List Char} (hne : Text.trim p ≠ []) (ps : List (List Char)) :
    itemsOf (p :: ps) = String.ofList (Text.trim p) :: itemsOf ps := by
  unfold itemsOf
  rw [List.map_cons, List.filter_cons_of_pos (by simpa using hne), List.map_cons]

theorem ItemsOf.eq {ps : List (List Char)} {items : List String} (h : ItemsOf ps items)
    (hitems : ∀ i ∈ items, i.toList ≠ [] ∧ Text.Tight i.toList) : itemsOf ps = items := by
  induction h with
  | nil => rfl
  | blank hp _ ih => rw [itemsOf_cons_of_blank hp, ih hitems]
  | item hp _ ih =>
    obtain ⟨⟨hne, tight⟩, hitems⟩ := List.forall_mem_cons.1 hitems
    have htrim := Text.trim_of_padded hp tight
    rw [itemsOf_cons_of_ne (htrim ▸ hne), htrim, String.ofList_toList, ih hitems]

theorem itemsOf_itemsOf (ps : List (List Char)) : ItemsOf ps (itemsOf ps) := by
  induction ps with
  | nil => exact .nil
  | cons p ps ih =>
    by_cases hp : Text.trim p = []
    · have hblank := Text.trim_eq_nil_iff.1 hp
      rw [itemsOf_cons_of_blank hblank]
      exact .blank hblank ih
    · rw [itemsOf_cons_of_ne hp]
      apply ItemsOf.item _ ih
      rw [String.toList_ofList]
      exact Text.padded_trim p

theorem isItem_of_mem_itemsOf {ps : List (List Char)} (hcomma : ∀ p ∈ ps, ',' ∉ p) {i : String}
    (hi : i ∈ itemsOf ps) : IsItem i := by
  obtain ⟨t, ht, rfl⟩ := List.mem_map.1 hi
  obtain ⟨htrim, hne⟩ := List.mem_filter.1 ht
  obtain ⟨p, hp, rfl⟩ := List.mem_map.1 htrim
  apply isItem_iff.2
  rw [String.toList_ofList]
  exact ⟨by simpa using hne, fun hmem => hcomma p hp ((Text.padded_trim p).mem hmem), Text.tight_trim p⟩

theorem ItemsOf.no_comma {ps : List (List Char)} {items : List String} (h : ItemsOf ps items)
    (hitems : ∀ i ∈ items, ',' ∉ i.toList) : ∀ p ∈ ps, ',' ∉ p := by
  induction h with
  | nil => exact nofun
  | blank hp _ ih => exact List.forall_mem_cons.2 ⟨fun hmem => absurd (hp _ hmem) (by decide), ih hitems⟩
  | item hp _ ih =>
    obtain ⟨hi, hitems⟩ := List.forall_mem_cons.1 hitems
    refine List.forall_mem_cons.2 ⟨fun hmem => ?_, ih hitems⟩
    exact (hp.mem_cases hmem).elim hi (fun hblank => absurd hblank (by decide))

/-! ## Texts -/

/-- The items of a text are those that its pieces leave. -/
theorem splitList_eq_iff {s : String} {items : List String} : splitList s = items ↔
    (∀ i ∈ items, i.toList ≠ [] ∧ Text.Tight i.toList) ∧ ∃ ps, Text.Pieces ',' ps s.toList ∧ ItemsOf ps items := by
  constructor
  · rintro rfl
    have hpieces := Text.splitOn_eq_iff.1 (rfl : s.toList.splitOn ',' = _)
    refine ⟨fun i hi => ?_, _, hpieces, itemsOf_itemsOf _⟩
    have hitem := isItem_of_mem_itemsOf hpieces.no_separator hi
    exact ⟨hitem.ne_nil, hitem.tight⟩
  · rintro ⟨hitems, ps, hpieces, h⟩
    rw [splitList_eq, Text.splitOn_eq_iff.2 hpieces]
    exact h.eq hitems

theorem isItem_of_mem_splitList {s i : String} (h : i ∈ splitList s) : IsItem i :=
  isItem_of_mem_itemsOf (fun _ => Text.not_mem_of_mem_splitOn) h

theorem splitList_empty : splitList "" = [] := by decide +kernel

theorem splitList_intercalate {ps : List (List Char)} {items : List String} (h : ItemsOf ps items)
    (hitems : ∀ i ∈ items, IsItem i) : splitList (String.ofList ([','].intercalate ps)) = items := by
  by_cases hps : ps = []
  · subst hps
    cases h
    exact splitList_empty
  · refine splitList_eq_iff.2 ⟨fun i hi => ⟨(hitems i hi).ne_nil, (hitems i hi).tight⟩, ps, ?_, h⟩
    exact ⟨hps, h.no_comma fun i hi => (hitems i hi).no_comma, String.toList_ofList⟩

/-! ## Joined items -/

theorem intercalate_comma_space (s : List Char) (r : List (List Char)) :
    [',', ' '].intercalate (s :: r) = [','].intercalate (s :: r.map (' ' :: ·)) := by
  induction r generalizing s with
  | nil => rfl
  | cons t r ih =>
    rw [List.intercalate_cons_cons, ih, List.map_cons, List.intercalate_cons_cons, List.intercalate_cons_cons_left]
    simp

theorem itemsOf_map_cons_space (items : List String) : ItemsOf (items.map fun i => ' ' :: i.toList) items := by
  induction items with
  | nil => exact .nil
  | cons i items ih =>
    apply ItemsOf.item _ ih
    exact ⟨[' '], [], by simp, List.forall_mem_singleton.2 (by decide), nofun⟩

/-- Items that are joined come back. -/
theorem splitList_comma_space {items : List String} (h : ∀ i ∈ items, IsItem i) :
    splitList (", ".intercalate items) = items := by
  cases items with
  | nil => exact splitList_empty
  | cons i items =>
    have hjoined : (", ".intercalate (i :: items)).toList =
        [','].intercalate (i.toList :: items.map fun j => ' ' :: j.toList) := by
      rw [String.toList_intercalate, List.map_cons]
      exact (intercalate_comma_space _ _).trans (by rw [List.map_map]; rfl)
    rw [← String.ofList_toList (s := ", ".intercalate (i :: items)), hjoined]
    exact splitList_intercalate (.item (.refl _) (itemsOf_map_cons_space items)) h

theorem splitList_joinList {items : List String} (hne : items ≠ []) (h : ∀ i ∈ items, IsItem i) :
    splitList (joinList items) = items := by
  rw [joinList, if_neg (by simpa using hne), splitList_comma_space h]

/-- **The items of a text** are what the pieces between its commas leave, and they come back when they are joined. -/
theorem items_of_text :
    (∀ s items, splitList s = items ↔ (∀ i ∈ items, i.toList ≠ [] ∧ Text.Tight i.toList) ∧
      ∃ ps, Text.Pieces ',' ps s.toList ∧ ItemsOf ps items) ∧
    (∀ s, ∀ i ∈ splitList s, i.toList ≠ [] ∧ ',' ∉ i.toList ∧ Text.Tight i.toList) ∧
    (∀ ps items, ItemsOf ps items → (∀ i ∈ items, i.toList ≠ [] ∧ ',' ∉ i.toList ∧ Text.Tight i.toList) →
      splitList (String.ofList ([','].intercalate ps)) = items) ∧
    ∀ s, splitList (", ".intercalate (splitList s)) = splitList s := by
  refine ⟨fun s items => splitList_eq_iff, fun s i hi => ?_, fun ps items h hitems => ?_, fun s => ?_⟩
  · exact isItem_iff.1 (isItem_of_mem_splitList hi)
  · exact splitList_intercalate h fun i hi => isItem_iff.2 (hitems i hi)
  · exact splitList_comma_space fun i => isItem_of_mem_splitList

/-- Blank pieces leave no item, and a space of no width is no blank. -/
theorem items_of_text_of_blank_pieces :
    let ps := ["\u3000".toList, " a b\u0085".toList, [], "a b".toList, "\u200bx\t".toList]
    let items := ["a b", "a b", "\u200bx"]
    ItemsOf ps items ∧ (∀ i ∈ items, i.toList ≠ [] ∧ ',' ∉ i.toList ∧ Text.Tight i.toList) ∧
      splitList (String.ofList ([','].intercalate ps)) = items ∧
      "\u200bx" ∈ splitList "\u3000, a b\u0085,,a b,\u200bx\t" ∧ Text.Tight "\u200bx".toList := by
  intro ps items
  obtain ⟨-, hitem, hjoin, -⟩ := items_of_text
  have hblank : ∀ c ∈ "\u3000".toList, Text.isBlank c = true := List.forall_mem_singleton.2 (by decide)
  have hleaves : ItemsOf ps items :=
    .blank hblank <| .item ⟨[' '], ['\u0085'], rfl, List.forall_mem_singleton.2 (by decide),
      List.forall_mem_singleton.2 (by decide)⟩ <| .blank nofun <| .item (.refl _) <|
      .item ⟨[], ['\t'], rfl, nofun, List.forall_mem_singleton.2 (by decide)⟩ .nil
  have hfound : splitList "\u3000, a b\u0085,,a b,\u200bx\t" = items := by decide +kernel
  have hitems : ∀ i ∈ items, i.toList ≠ [] ∧ ',' ∉ i.toList ∧ Text.Tight i.toList := hfound ▸ hitem _
  have hmem : "\u200bx" ∈ splitList "\u3000, a b\u0085,,a b,\u200bx\t" := by
    rw [hfound]
    decide
  exact ⟨hleaves, hitems, hjoin ps items hleaves hitems, hmem, (hitem _ _ hmem).2.2⟩

end CpuMonitor.CommandLine
