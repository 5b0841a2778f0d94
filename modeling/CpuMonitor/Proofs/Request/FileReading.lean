import CpuMonitor.Proofs.Json.Skipping
import CpuMonitor.Proofs.Request.FileFormat

/-!
# Reading request files

Of each text of a document, the reader of request files takes just what the document gives.

* `Yields` : the outcome of a reader at a part of a document.
* `yields_readString`, `yields_readList`, `yields_readMembers`, `yields_readLists` : the readers, part by part.
* `ofFile_exact` : a file is accepted just when its document stands for a request, and then gives this request.

The steps of each reader come first, over any texts. At the parts of a document only the texts have to be put together.
-/

set_option autoImplicit false

namespace CpuMonitor.Request
open Json (Value Writes Blanks Plain Spells SpellsUnit Reads Leaves Ends NextIs nextIs delimiters)

/-! ## Outcomes -/

section Outcomes
variable {ε α β : Type} {p q : List Char → Prop}

/-- A reader fails. -/
def Fails (x : Except ε α) : Prop := ∃ e, x = .error e

/-- A reader gives what is there and leaves `rest`; if nothing is there, it fails. -/
def Yields (x : Except ε (α × { t // p t })) (a? : Option α) (rest : List Char) : Prop :=
  match a? with
  | some a => Reads x a rest
  | none => Fails x

/-- A reader gives what is there, and leaves `rest` or some blanks before it. -/
def YieldsUpTo (x : Except ε (α × { t // p t })) (a? : Option α) (rest : List Char) : Prop :=
  ∃ b, Blanks b ∧ Yields x a? (b ++ rest)

/-- The outcome of a reader, without its proof that something was taken. -/
def outcome (x : Except ε (α × { t // p t })) : Except ε (α × List Char) := x.map fun y => (y.1, y.2.val)

theorem Yields.of_outcome {x : Except ε (α × { t // p t })} {y : Except ε (α × { t // q t })}
    (h : outcome x = outcome y) {a? : Option α} {rest : List Char} (hy : Yields y a? rest) : Yields x a? rest := by
  cases a? with
  | none =>
    obtain ⟨e, rfl⟩ := hy
    cases x with
    | error e' => exact ⟨e', rfl⟩
    | ok z => cases h
  | some a => exact h.trans hy

/-- A reader that ends with another one fails with it, and packs up what it reads. -/
theorem Yields.map {x : Except ε (α × { t // p t })} {y : Except ε (β × { t // q t })} {a? : Option α} {f : α → β}
    {rest : List Char} (h : Yields x a? rest) (herror : ∀ e, x = .error e → Fails y)
    (hok : ∀ a t, x = .ok (a, t) → Reads y (f a) t.val) : Yields y (a?.map f) rest := by
  cases a? with
  | none =>
    obtain ⟨e, h⟩ := h
    exact herror e h
  | some a =>
    obtain ⟨_, h⟩ := Reads.eq h
    exact hok a _ h

end Outcomes

/-! ## Single steps -/

section Steps
variable {g g' : Given} {s t u v rest : List Char} {c : Char}

theorem reads_readString {cs : List Char} (hquote : NextIs s '"' t) (h : Reads (Json.string t) cs rest) :
    Reads (readString s) (String.ofList cs) rest := by
  obtain ⟨_, hquote⟩ := hquote
  obtain ⟨_, h⟩ := h.eq
  rw [Reads, readString, hquote]
  simp only [h]
  rfl

theorem fails_readString (hnext : NextIs s c t) (hc : c ≠ '"') : Fails (readString s) := by
  obtain ⟨_, hnext⟩ := hnext
  unfold readString Fails
  rw [hnext]
  split
  · exact ⟨_, rfl⟩
  · rename_i h
    cases h
    exact absurd rfl hc
  · exact ⟨_, rfl⟩

theorem fails_readStrings (h : Fails (readString s)) : Fails (readStrings s) := by
  obtain ⟨e, h⟩ := h
  exact ⟨e, by rw [readStrings, h]⟩

theorem reads_readStrings_last {a : String} (h : Reads (readString s) a t) (hclose : NextIs t ']' rest) :
    Reads (readStrings s) [a] rest := by
  obtain ⟨_, h⟩ := h.eq
  obtain ⟨_, hclose⟩ := hclose
  rw [Reads, readStrings, h]
  simp only [hclose]
  rfl

theorem yields_readStrings_next {a : String} {l? : Option (List String)} (h : Reads (readString s) a t)
    (hcomma : NextIs t ',' u) (hl : Yields (readStrings u) l? rest) :
    Yields (readStrings s) (l?.map (a :: ·)) rest := by
  obtain ⟨_, h⟩ := h.eq
  obtain ⟨_, hcomma⟩ := hcomma
  refine hl.map (fun e he => ⟨e, ?_⟩) fun l v hv => ?_
  · rw [readStrings, h]
    simp only [hcomma, he]
  · rw [Reads, readStrings, h]
    simp only [hcomma, hv]
    rfl

theorem reads_readList_nil (hopen : NextIs s '[' t) (hclose : NextIs t ']' rest) : Reads (readList s) [] rest := by
  obtain ⟨_, hopen⟩ := hopen
  obtain ⟨_, hclose⟩ := hclose
  rw [Reads, readList, hopen]
  simp only [hclose]
  rfl

theorem outcome_readList (hopen : NextIs s '[' t) (hnext : NextIs t c u) (hc : c ≠ ']') :
    outcome (readList s) = outcome (readStrings t) := by
  obtain ⟨_, hopen⟩ := hopen
  obtain ⟨_, hnext⟩ := hnext
  rw [readList, hopen]
  simp only [hnext]
  split
  · rename_i h
    cases h
    exact absurd rfl hc
  · cases readStrings t <;> rfl

theorem fails_readList (hnext : NextIs s c t) (hc : c ≠ '[') : Fails (readList s) := by
  obtain ⟨_, hnext⟩ := hnext
  unfold readList Fails
  rw [hnext]
  split
  · exact ⟨_, rfl⟩
  · rename_i h
    cases h
    exact absurd rfl hc
  · exact ⟨_, rfl⟩

section Lists
variable {f : Field} {fields : List Field} {l : List String}

theorem fails_readLists (h : Fails (readList s)) : Fails (readLists g f fields s) := by
  obtain ⟨e, h⟩ := h
  exact ⟨e, by rw [readLists, h]⟩

theorem reads_readLists_last (h : Reads (readList s) l t) (hclose : NextIs t ']' rest) :
    Reads (readLists g f fields s) (g.set f l) rest := by
  obtain ⟨_, h⟩ := h.eq
  obtain ⟨_, hclose⟩ := hclose
  rw [Reads, readLists, h]
  simp only [hclose]
  cases fields <;> rfl

theorem outcome_readLists_next {f' : Field} (h : Reads (readList s) l t) (hcomma : NextIs t ',' u) :
    outcome (readLists g f (f' :: fields) s) = outcome (readLists (g.set f l) f' fields u) := by
  obtain ⟨_, h⟩ := h.eq
  obtain ⟨_, hcomma⟩ := hcomma
  conv => lhs; rw [readLists, h]
  simp only [hcomma]
  cases readLists (g.set f l) f' fields u <;> rfl

/-- There are no more than three lists. -/
theorem fails_readLists_long (h : Reads (readList s) l t) (hcomma : NextIs t ',' u) : Fails (readLists g f [] s) := by
  obtain ⟨_, h⟩ := h.eq
  obtain ⟨_, hcomma⟩ := hcomma
  refine ⟨.fault .malformed, ?_⟩
  rw [readLists, h]
  simp only [hcomma]
  rfl

end Lists

theorem reads_readArray_nil (hclose : NextIs s ']' rest) : Reads (readArray s) .nothing rest := by
  obtain ⟨_, hclose⟩ := hclose
  rw [Reads, readArray, hclose]
  rfl

theorem readArray_eq (hnext : NextIs s c t) (hc : c ≠ ']') :
    readArray s = readLists .nothing .loadWindows [.windows, .kinds] s := by
  obtain ⟨_, hnext⟩ := hnext
  rw [readArray, hnext]
  split
  · rename_i h
    cases h
    exact absurd rfl hc
  · rfl

section Values
variable {k : String} {f : Field}

theorem fails_readValue_twice (hk : Field.ofKey? k = some f) (hgiven : (g.get? f).isSome = true) :
    Fails (readValue g k s) :=
  ⟨.givenTwice f, by simp only [readValue, hk, if_pos hgiven]⟩

theorem yields_readValue_list (hk : Field.ofKey? k = some f) (hgiven : (g.get? f).isSome = false)
    (hcolon : NextIs s ':' t) {l? : Option (List String)} (hl : Yields (readList t) l? rest) :
    Yields (readValue g k s) (l?.map (g.set f)) rest := by
  obtain ⟨_, hcolon⟩ := (Json.leaves_expect hcolon).eq
  refine hl.map (fun e he => ⟨e, ?_⟩) fun l v hv => ?_
  · simp only [readValue, hk, hgiven, Bool.false_eq_true, if_false, hcolon, he]
  · simp only [Reads, readValue, hk, hgiven, Bool.false_eq_true, if_false, hcolon, hv]
    rfl

theorem reads_readValue_other (hk : Field.ofKey? k = none) (hcolon : NextIs s ':' t)
    (h : Leaves (Json.skipValue t) rest) : Reads (readValue g k s) g rest := by
  obtain ⟨_, hcolon⟩ := (Json.leaves_expect hcolon).eq
  obtain ⟨_, h⟩ := h.eq
  simp only [Reads, readValue, hk, hcolon, h]
  rfl

end Values

section Members
variable {cs : List Char} (hquote : NextIs s '"' t) (hkey : Reads (Json.string t) cs u)
include hquote hkey

theorem fails_readMembers (h : Fails (readValue g (String.ofList cs) u)) : Fails (readMembers g s) := by
  obtain ⟨_, hquote⟩ := (Json.leaves_expect hquote).eq
  obtain ⟨_, hkey⟩ := hkey.eq
  obtain ⟨e, h⟩ := h
  refine ⟨e, ?_⟩
  rw [readMembers, hquote]
  simp only [hkey, h]

theorem reads_readMembers_last (h : Reads (readValue g (String.ofList cs) u) g' v) (hclose : NextIs v '\x7d' rest) :
    Reads (readMembers g s) g' rest := by
  obtain ⟨_, hquote⟩ := (Json.leaves_expect hquote).eq
  obtain ⟨_, hkey⟩ := hkey.eq
  obtain ⟨_, h⟩ := h.eq
  obtain ⟨_, hclose⟩ := hclose
  rw [Reads, readMembers, hquote]
  simp only [hkey, h, hclose]
  rfl

theorem outcome_readMembers_next {w : List Char} (h : Reads (readValue g (String.ofList cs) u) g' v)
    (hcomma : NextIs v ',' w) : outcome (readMembers g s) = outcome (readMembers g' w) := by
  obtain ⟨_, hquote⟩ := (Json.leaves_expect hquote).eq
  obtain ⟨_, hkey⟩ := hkey.eq
  obtain ⟨_, h⟩ := h.eq
  obtain ⟨_, hcomma⟩ := hcomma
  conv => lhs; rw [readMembers, hquote]
  simp only [hkey, h, hcomma]
  cases readMembers g' w <;> rfl

end Members

theorem reads_readObject_nil (hclose : NextIs s '\x7d' rest) : Reads (readObject s) .nothing rest := by
  obtain ⟨_, hclose⟩ := hclose
  rw [Reads, readObject, hclose]
  rfl

theorem readObject_eq (hnext : NextIs s c t) (hc : c ≠ '\x7d') : readObject s = readMembers .nothing s := by
  obtain ⟨_, hnext⟩ := hnext
  rw [readObject, hnext]
  split
  · rename_i h
    cases h
    exact absurd rfl hc
  · rfl

theorem outcome_readGiven_array (hopen : NextIs s '[' t) : outcome (readGiven s) = outcome (readArray t) := by
  obtain ⟨_, hopen⟩ := hopen
  rw [readGiven, hopen]
  simp only
  cases readArray t <;> rfl

theorem outcome_readGiven_object (hopen : NextIs s '\x7b' t) : outcome (readGiven s) = outcome (readObject t) := by
  obtain ⟨_, hopen⟩ := hopen
  rw [readGiven, hopen]
  simp only
  cases readObject t <;> rfl

theorem fails_readGiven (hnext : NextIs s c t) (hsquare : c ≠ '[') (hcurly : c ≠ '\x7b') : Fails (readGiven s) := by
  obtain ⟨_, hnext⟩ := hnext
  unfold readGiven Fails
  rw [hnext]
  split
  · exact ⟨_, rfl⟩
  · rename_i h
    cases h
    exact absurd rfl hsquare
  · rename_i h
    cases h
    exact absurd rfl hcurly
  · exact ⟨_, rfl⟩

end Steps

/-! ## Parts of documents -/

theorem yields_readString {v : Value} {s : List Char} (h : Writes (.item v) s) (rest : List Char) :
    YieldsUpTo (readString (s ++ rest)) (stringOf? v) rest := by
  cases h with
  | @item _ a s b ha hv hb =>
    refine ⟨b, hb, ?_⟩
    rw [List.append_assoc, List.append_assoc]
    by_cases hstring : ∃ x, v = .string x
    · obtain ⟨x, rfl⟩ := hstring
      cases hv with
      | string hs =>
        have hread := reads_readString (nextIs ha (by decide) _) (Json.reads_string hs (b ++ rest))
        rw [String.ofList_toList] at hread
        rw [List.cons_append, List.append_assoc]
        exact hread
    · obtain ⟨c, r, rfl, hc⟩ := hv.begins
      have hnone : stringOf? v = none :=
        Option.eq_none_iff_forall_ne_some.2 fun x hx => hstring ⟨x, stringOf?_eq_some_iff.1 hx⟩
      rw [hnone]
      exact fails_readString (nextIs ha hc.not_blank _) (mt hc.shape.1 hstring)

theorem yields_readStrings {l : List Value} {s : List Char} (h : Writes (.items l) s) (rest : List Char) :
    Yields (readStrings (s ++ ']' :: rest)) (stringsOf? l) rest := by
  induction l generalizing s with
  | nil => cases h
  | cons v l ih =>
    obtain ⟨t, u, rfl, hv, hl⟩ := h.items_cons
    rw [List.append_assoc, stringsOf?]
    obtain ⟨b, hb, hread⟩ := yields_readString hv (u ++ ']' :: rest)
    cases hx : stringOf? v with
    | none =>
      rw [hx] at hread
      exact fails_readStrings hread
    | some x =>
      rw [hx] at hread
      obtain ⟨rfl, rfl⟩ | ⟨w, rfl, hl⟩ := hl
      · exact reads_readStrings_last hread (nextIs hb (by decide) rest)
      · exact yields_readStrings_next hread (nextIs hb (by decide) _) (ih hl)

theorem yields_readList {v : Value} {s : List Char} (h : Writes (.item v) s) (rest : List Char) :
    YieldsUpTo (readList (s ++ rest)) (listOf? v) rest := by
  cases h with
  | @item _ a s b ha hv hb =>
    refine ⟨b, hb, ?_⟩
    rw [List.append_assoc, List.append_assoc]
    by_cases harray : ∃ l, v = .array l
    · obtain ⟨l, rfl⟩ := harray
      cases hv with
      | emptyArray ha' =>
        rw [List.cons_append, List.append_assoc]
        exact reads_readList_nil (nextIs ha (by decide) _) (nextIs ha' (by decide) _)
      | array hl =>
        rw [List.cons_append, List.append_assoc]
        obtain ⟨c, hfirst, hc⟩ := hl.firstIs_items
        obtain ⟨r, hnext⟩ := hfirst.nextIs hc (']' :: (b ++ rest))
        have hclose : c ≠ ']' := fun h => hc (h ▸ by decide)
        exact (yields_readStrings hl _).of_outcome (outcome_readList (nextIs ha (by decide) _) hnext hclose)
    · obtain ⟨c, r, rfl, hc⟩ := hv.begins
      have hnone : listOf? v = none :=
        Option.eq_none_iff_forall_ne_some.2 fun l hl => harray ⟨_, listOf?_eq_some_iff.1 hl⟩
      rw [hnone]
      exact fails_readList (nextIs ha hc.not_blank _) (mt hc.shape.2.1 harray)

theorem yields_readLists {l : List Value} {s : List Char} (h : Writes (.items l) s) (g : Given) (f : Field)
    (fields : List Field) (rest : List Char) :
    Yields (readLists g f fields (s ++ ']' :: rest)) (g.place? (f :: fields) l) rest := by
  induction l generalizing s g f fields with
  | nil => cases h
  | cons v l ih =>
    obtain ⟨t, u, rfl, hv, hl⟩ := h.items_cons
    rw [List.append_assoc, Given.place?]
    obtain ⟨b, hb, hread⟩ := yields_readList hv (u ++ ']' :: rest)
    cases hx : listOf? v with
    | none =>
      rw [hx] at hread
      exact fails_readLists hread
    | some x =>
      rw [hx] at hread
      obtain ⟨rfl, rfl⟩ | ⟨w, rfl, hl⟩ := hl
      · rw [Option.bind_some, Given.place?]
        exact reads_readLists_last hread (nextIs hb (by decide) rest)
      · have hcomma := nextIs hb (c := ',') (by decide) (w ++ ']' :: rest)
        cases fields with
        | nil =>
          cases l with
          | nil => cases hl
          | cons v' l => exact fails_readLists_long hread hcomma
        | cons f' fields => exact (ih hl (g.set f x) f' fields).of_outcome (outcome_readLists_next hread hcomma)

theorem yields_readValue {v : Value} {b t : List Char} (hb : Blanks b) (hv : Writes (.item v) t) (g : Given) (k : String)
    {rest : List Char} (hrest : Ends rest) : YieldsUpTo (readValue g k (b ++ ':' :: (t ++ rest))) (g.add? k v) rest := by
  have hcolon := nextIs hb (c := ':') (by decide) (t ++ rest)
  cases hk : Field.ofKey? k with
  | none =>
    obtain ⟨b', hb', hskip⟩ := Json.leaves_skipValue hv hrest
    refine ⟨b', hb', ?_⟩
    simp only [Given.add?, hk]
    exact reads_readValue_other hk hcolon hskip
  | some f =>
    obtain ⟨b', hb', hread⟩ := yields_readList hv rest
    refine ⟨b', hb', ?_⟩
    cases hgiven : (g.get? f).isSome with
    | true =>
      simp only [Given.add?, hk, hgiven, if_true]
      exact fails_readValue_twice hk hgiven
    | false =>
      simp only [Given.add?, hk, hgiven, Bool.false_eq_true, if_false]
      exact yields_readValue_list hk hgiven hcolon hread

theorem yields_readMembers {l : List (String × Value)} {s : List Char} (h : Writes (.members l) s) (g : Given)
    (rest : List Char) : Yields (readMembers g (s ++ '\x7d' :: rest)) (g.addAll? l) rest := by
  induction l generalizing s g with
  | nil => cases h
  | cons m l ih =>
    obtain ⟨k, v⟩ := m
    obtain ⟨t, u, rfl, hm, hl⟩ := h.members_cons
    cases hm with
    | @member _ _ a s b t ha hk hb hv =>
      have hends : Ends (u ++ '\x7d' :: rest) := by
        obtain ⟨-, rfl⟩ | ⟨w, rfl, -⟩ := hl
        · exact Ends.cons (by decide) _
        · exact Ends.cons (by decide) _
      have hquote := nextIs ha (c := '"') (by decide) (s ++ '"' :: (b ++ ':' :: (t ++ (u ++ '\x7d' :: rest))))
      have hkey := Json.reads_string hk (b ++ ':' :: (t ++ (u ++ '\x7d' :: rest)))
      obtain ⟨b', hb', hread⟩ := yields_readValue hb hv g (String.ofList k.toList) hends
      have hadd : g.add? (String.ofList k.toList) v = g.add? k v := by rw [String.ofList_toList]
      have htext : a ++ '"' :: (s ++ '"' :: (b ++ ':' :: t)) ++ u ++ '\x7d' :: rest =
          a ++ '"' :: (s ++ '"' :: (b ++ ':' :: (t ++ (u ++ '\x7d' :: rest)))) := by simp
      rw [htext, Given.addAll?, ← hadd]
      cases hg : g.add? (String.ofList k.toList) v with
      | none =>
        rw [hg] at hread
        exact fails_readMembers hquote hkey hread
      | some g' =>
        rw [hg] at hread
        obtain ⟨rfl, rfl⟩ | ⟨w, rfl, hl⟩ := hl
        · exact reads_readMembers_last hquote hkey hread (nextIs hb' (by decide) rest)
        · exact (ih hl g').of_outcome (outcome_readMembers_next hquote hkey hread (nextIs hb' (by decide) _))

theorem yields_readArray {l : List Value} {s : List Char} (h : Writes (.value (.array l)) ('[' :: s))
    (rest : List Char) : Yields (readArray (s ++ rest)) (Given.nothing.place? Field.all l) rest := by
  cases h with
  | emptyArray ha =>
    rw [List.append_assoc]
    exact reads_readArray_nil (nextIs ha (by decide) rest)
  | array hl =>
    obtain ⟨c, hfirst, hc⟩ := hl.firstIs_items
    obtain ⟨r, hnext⟩ := hfirst.nextIs hc (']' :: rest)
    have hclose : c ≠ ']' := fun h => hc (h ▸ by decide)
    rw [List.append_assoc, List.singleton_append, readArray_eq hnext hclose]
    exact yields_readLists hl .nothing .loadWindows [.windows, .kinds] rest

theorem yields_readObject {l : List (String × Value)} {s : List Char} (h : Writes (.value (.object l)) ('\x7b' :: s))
    (rest : List Char) : Yields (readObject (s ++ rest)) (Given.nothing.addAll? l) rest := by
  cases h with
  | emptyObject ha =>
    rw [List.append_assoc]
    exact reads_readObject_nil (nextIs ha (by decide) rest)
  | object hl =>
    obtain ⟨r, hnext⟩ := hl.firstIs_members.nextIs (by decide) ('\x7d' :: rest)
    rw [List.append_assoc, List.singleton_append, readObject_eq hnext (by decide)]
    exact yields_readMembers hl .nothing rest

/-- The reader of request files gives what the document gives, and leaves blanks only. -/
theorem yields_readGiven {v : Value} {s : List Char} (h : Writes (.item v) s) :
    ∃ b, Blanks b ∧ Yields (readGiven s) (given? v) b := by
  cases h with
  | @item _ a s b ha hv hb =>
    refine ⟨b, hb, ?_⟩
    obtain ⟨c, r, rfl, hc⟩ := hv.begins
    rw [List.cons_append]
    have hnext := nextIs ha hc.not_blank (r ++ b)
    cases v with
    | array l =>
      cases hc
      exact (yields_readArray hv b).of_outcome (outcome_readGiven_array hnext)
    | object l =>
      cases hc
      exact (yields_readObject hv b).of_outcome (outcome_readGiven_object hnext)
    | _ =>
      refine fails_readGiven hnext (fun hsquare => ?_) fun hcurly => ?_
      · obtain ⟨_, h⟩ := hc.shape.2.1 hsquare
        cases h
      · obtain ⟨_, h⟩ := hc.shape.2.2 hcurly
        cases h

/-! ## Files -/

section Files
variable {v : Value} {s : String} (h : Writes (.item v) s.toList)
include h

end Files

theorem fromUTF8?_toUTF8 (s : String) : String.fromUTF8? s.toUTF8 = some s := dif_pos s.isValidUTF8

/-- An unknown member with values of several kinds, a list under its second key, and an empty list. -/
def mixedDocument : Value :=
  .object
    [("x", .array [.object [("x", .null), ("x", .number ⟨true, ['1'], ['5'], some 3⟩)], .boolean true]),
      ("cpu_utilisation_types", .array [.string "user", .string "😀"]), ("utilization_windows", .array [])]

def mixedText : String :=
  " \x7b\"x\": [\x7b\"x\":null,\"x\":-1.5E+3\x7d,\ttrue],\"cpu_utilisation_types\"\n:[\"us\\u0065r\"," ++
    "\"\\uD83d\\uDe00\"],\"utilization_windows\":[ ]\x7d\n"

theorem writes_mixedDocument : Writes (.item mixedDocument) mixedText.toList := by
  have hnumber : Writes (.value (.number ⟨true, ['1'], ['5'], some 3⟩)) _ :=
    .number (.negative rfl ⟨by decide, by decide, _, _, .point (by decide),
      .plus (s := ['3']) (.inr rfl) (by decide), rfl⟩)
  have hinner : Writes (.value (.object [("x", .null), ("x", .number ⟨true, ['1'], ['5'], some 3⟩)])) _ :=
    .object (.nextMember (.bareMember (by decide) Writes.nullWord.bare)
      (.lastMember (.bareMember (by decide) hnumber.bare)))
  have htrue : Writes (.item (.boolean true)) _ := .item (a := ['\t']) (b := []) (by decide) .trueWord (by decide)
  have hignored : Writes (.member "x" _) _ := .bareMember (by decide)
    (.item (a := [' ']) (b := []) (by decide) (.array (.nextItem hinner.bare (.lastItem htrue))) (by decide))
  have hletter : SpellsUnit 'e'.toNat ['\\', 'u', '0', '0', '6', '5'] :=
    .mk (i := 0) (j := 0) (k := 6) (l := 5) (by decide) (by decide) (by decide) (by decide)
  have hhigh : SpellsUnit (0xD800 + 0x3D) ['\\', 'u', 'D', '8', '3', 'd'] :=
    .mk (i := 13) (j := 8) (k := 3) (l := 13) (by decide) (by decide) (by decide) (by decide)
  have hlow : SpellsUnit (0xDC00 + 0x200) ['\\', 'u', 'D', 'e', '0', '0'] :=
    .mk (i := 13) (j := 14) (k := 0) (l := 0) (by decide) (by decide) (by decide) (by decide)
  have huser : Spells ['u', 's', 'e', 'r'] _ :=
    .plain (by decide) (by decide) (by decide) (.plain (by decide) (by decide) (by decide)
      (.unit hletter (.plain (by decide) (by decide) (by decide) .nil)))
  have hface : Spells ['😀'] _ := .pair (by decide) (by decide) (by decide) hhigh hlow .nil
  have hkinds : Writes (.member "cpu_utilisation_types" (.array [.string "user", .string "😀"])) _ :=
    .member (a := []) (b := ['\n']) (by decide) (Plain.spells (by decide)) (by decide)
      (Writes.array (.nextItem (Writes.string (x := "user") huser).bare
        (.lastItem (Writes.string (x := "😀") hface).bare))).bare
  have hwindows : Writes (.member "utilization_windows" (.array [])) _ :=
    .bareMember (by decide) (Writes.emptyArray (a := [' ']) (by decide)).bare
  have hdocument : Writes (.item mixedDocument) _ :=
    .item (a := [' ']) (b := ['\n']) (by decide)
      (.object (.nextMember hignored (.nextMember hkinds (.lastMember hwindows)))) (by decide)
  refine Eq.mp (congrArg (Writes _) ?_) hdocument
  decide +kernel

/-- An object that gives one list under both of its keys. -/
def twiceDocument : Value := .object [("utilization_windows", .array []), ("cpu_utilisation_gathering_mode", .array [])]

def twiceText : String := "\x7b\"utilization_windows\":[],\"cpu_utilisation_gathering_mode\":[]\x7d"

theorem writes_twiceDocument : Writes (.item twiceDocument) twiceText.toList := by
  have hempty : Writes (.item (.array [])) _ := (Writes.emptyArray (a := []) (by decide)).bare
  have hdocument : Writes (.item twiceDocument) _ := (Writes.object
    (.nextMember (.bareMember (by decide) hempty) (.lastMember (.bareMember (by decide) hempty)))).bare
  refine Eq.mp (congrArg (Writes _) ?_) hdocument
  decide +kernel

end CpuMonitor.Request
