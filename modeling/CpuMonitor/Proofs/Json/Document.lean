import CpuMonitor.Json.Numeral

/-!
# JSON documents and their texts

A document is a value, and there are many texts of it: blanks may stand between all parts of it, a character of a string
may be escaped or not, and an escape may be written in several ways. Nothing here mentions a reader.

* `Value` : the values; an object may have several members of one key.
* `Spells` : the ways to write the characters of a string; `WritesNumeral` : the ways to write a number.
* `Writes` : the ways to write a part of a document.
* `Value.Begins` : the characters that the texts of a value begin with.
-/

set_option autoImplicit false

namespace CpuMonitor.Json

inductive Value where
  | null
  | boolean (b : Bool)
  | number (n : Numeral)
  | string (s : String)
  | array (items : List Value)
  | object (members : List (String × Value))

/-! ## Texts of strings -/

/-- The characters that have an escape of one letter, behind this letter. -/
def escapes : List (Char × Char) :=
  [('"', '"'), ('\\', '\\'), ('/', '/'), ('b', '\x08'), ('f', '\x0c'), ('n', '\n'), ('r', '\r'), ('t', '\t')]

def IsHexDigit (n : Nat) (c : Char) : Prop :=
  "0123456789abcdef".toList[n]? = some c ∨ "0123456789ABCDEF".toList[n]? = some c

instance (n : Nat) (c : Char) : Decidable (IsHexDigit n c) := inferInstanceAs (Decidable (_ ∨ _))

inductive SpellsUnit : Nat → List Char → Prop
  | mk {i j k l : Nat} {a b c d : Char} (ha : IsHexDigit i a) (hb : IsHexDigit j b) (hc : IsHexDigit k c)
      (hd : IsHexDigit l d) : SpellsUnit (((i * 16 + j) * 16 + k) * 16 + l) ['\\', 'u', a, b, c, d]

/-- A character beyond the basic plane that is escaped takes two code units. -/
inductive Spells : List Char → List Char → Prop
  | nil : Spells [] []
  | plain {c : Char} {cs s : List Char} (hc : ' ' ≤ c) (hquote : c ≠ '"') (hslash : c ≠ '\\') (h : Spells cs s) :
      Spells (c :: cs) (c :: s)
  | letter {l c : Char} {cs s : List Char} (hl : (l, c) ∈ escapes) (h : Spells cs s) : Spells (c :: cs) ('\\' :: l :: s)
  | unit {c : Char} {cs u s : List Char} (hu : SpellsUnit c.toNat u) (h : Spells cs s) : Spells (c :: cs) (u ++ s)
  | pair {c : Char} {i j : Nat} {cs u v s : List Char} (hi : i < 0x400) (hj : j < 0x400)
      (hc : c.toNat = 0x10000 + i * 0x400 + j) (hu : SpellsUnit (0xD800 + i) u) (hv : SpellsUnit (0xDC00 + j) v)
      (h : Spells cs s) : Spells (c :: cs) (u ++ (v ++ s))

/-- Characters that may stand for themselves: no quotes, backslashes and controls. -/
def Plain (cs : List Char) : Prop := ∀ c ∈ cs, ' ' ≤ c ∧ c ≠ '"' ∧ c ≠ '\\'

instance (cs : List Char) : Decidable (Plain cs) := List.decidableBAll _ cs

theorem Plain.spells {cs : List Char} (h : Plain cs) : Spells cs cs := by
  induction cs with
  | nil => exact .nil
  | cons c cs ih =>
    obtain ⟨⟨hc, hquote, hslash⟩, hcs⟩ := List.forall_mem_cons.1 h
    exact .plain hc hquote hslash (ih hcs)

/-! ## Texts of numbers -/

structure IsDigits (s : List Char) : Prop where
  ne_nil : s ≠ []
  digit : ∀ c ∈ s, c.isDigit = true

instance (s : List Char) : Decidable (IsDigits s) :=
  decidable_of_iff (s ≠ [] ∧ s.all Char.isDigit = true)
    ⟨fun h => ⟨h.1, List.all_eq_true.1 h.2⟩, fun h => ⟨h.ne_nil, List.all_eq_true.2 h.digit⟩⟩

inductive WritesFraction : List Char → List Char → Prop
  | absent : WritesFraction [] []
  | point {s : List Char} (h : IsDigits s) : WritesFraction s ('.' :: s)

inductive WritesExponent : Option Int → List Char → Prop
  | absent : WritesExponent none []
  | unsigned {e : Char} {s : List Char} (he : e = 'e' ∨ e = 'E') (h : IsDigits s) :
      WritesExponent (some (Nat.ofDigitChars 10 s 0)) (e :: s)
  | plus {e : Char} {s : List Char} (he : e = 'e' ∨ e = 'E') (h : IsDigits s) :
      WritesExponent (some (Nat.ofDigitChars 10 s 0)) (e :: '+' :: s)
  | minus {e : Char} {s : List Char} (he : e = 'e' ∨ e = 'E') (h : IsDigits s) :
      WritesExponent (some (-(Nat.ofDigitChars 10 s 0 : Int))) (e :: '-' :: s)

structure WritesUnsigned (n : Numeral) (s : List Char) : Prop where
  whole : IsDigits n.whole
  /-- A zero does not stand in front of other digits. -/
  zero : n.whole.head? = some '0' → n.whole = ['0']
  tail : ∃ f e, WritesFraction n.fraction f ∧ WritesExponent n.exponent e ∧ s = n.whole ++ (f ++ e)

inductive WritesNumeral : Numeral → List Char → Prop
  | positive {n : Numeral} {s : List Char} (hn : n.negative = false) (h : WritesUnsigned n s) : WritesNumeral n s
  | negative {n : Numeral} {s : List Char} (hn : n.negative = true) (h : WritesUnsigned n s) : WritesNumeral n ('-' :: s)

/-! ## Texts of documents -/

def blankChars : List Char := [' ', '\n', '\t', '\r']

def Blanks (s : List Char) : Prop := ∀ c ∈ s, c ∈ blankChars

instance (s : List Char) : Decidable (Blanks s) := List.decidableBAll _ s

/-- A value, without and with the blanks around it; a member; and what stands between the brackets of an array or
object that is not empty. -/
inductive Part where
  | value (v : Value)
  | item (v : Value)
  | items (l : List Value)
  | member (k : String) (v : Value)
  | members (l : List (String × Value))

/-- The ways to write a part of a document. -/
inductive Writes : Part → List Char → Prop
  | nullWord : Writes (.value .null) ['n', 'u', 'l', 'l']
  | trueWord : Writes (.value (.boolean true)) ['t', 'r', 'u', 'e']
  | falseWord : Writes (.value (.boolean false)) ['f', 'a', 'l', 's', 'e']
  | number {n : Numeral} {s : List Char} (h : WritesNumeral n s) : Writes (.value (.number n)) s
  | string {x : String} {s : List Char} (h : Spells x.toList s) : Writes (.value (.string x)) ('"' :: (s ++ ['"']))
  | emptyArray {a : List Char} (ha : Blanks a) : Writes (.value (.array [])) ('[' :: (a ++ [']']))
  | array {l : List Value} {s : List Char} (h : Writes (.items l) s) : Writes (.value (.array l)) ('[' :: (s ++ [']']))
  | emptyObject {a : List Char} (ha : Blanks a) : Writes (.value (.object [])) ('\x7b' :: (a ++ ['\x7d']))
  | object {l : List (String × Value)} {s : List Char} (h : Writes (.members l) s) :
      Writes (.value (.object l)) ('\x7b' :: (s ++ ['\x7d']))
  | item {v : Value} {a s b : List Char} (ha : Blanks a) (h : Writes (.value v) s) (hb : Blanks b) :
      Writes (.item v) (a ++ (s ++ b))
  | lastItem {v : Value} {s : List Char} (h : Writes (.item v) s) : Writes (.items [v]) s
  | nextItem {v : Value} {l : List Value} {s t : List Char} (h : Writes (.item v) s) (hl : Writes (.items l) t) :
      Writes (.items (v :: l)) (s ++ ',' :: t)
  | member {k : String} {v : Value} {a s b t : List Char} (ha : Blanks a) (hk : Spells k.toList s) (hb : Blanks b)
      (h : Writes (.item v) t) : Writes (.member k v) (a ++ '"' :: (s ++ '"' :: (b ++ ':' :: t)))
  | lastMember {k : String} {v : Value} {s : List Char} (h : Writes (.member k v) s) : Writes (.members [(k, v)]) s
  | nextMember {k : String} {v : Value} {l : List (String × Value)} {s t : List Char} (h : Writes (.member k v) s)
      (hl : Writes (.members l) t) : Writes (.members ((k, v) :: l)) (s ++ ',' :: t)

theorem Writes.bare {v : Value} {s : List Char} (h : Writes (.value v) s) : Writes (.item v) s := by
  have hpadded := Writes.item (a := []) (b := []) (by decide) h (by decide)
  rwa [List.append_nil] at hpadded

theorem Writes.bareMember {k : String} {v : Value} {t : List Char} (hk : Plain k.toList) (h : Writes (.item v) t) :
    Writes (.member k v) ('"' :: (k.toList ++ '"' :: ':' :: t)) :=
  .member (a := []) (b := []) (by decide) hk.spells (by decide) h

/-! ## How texts begin -/

/-- The characters that the texts of a value begin with. -/
def Value.Begins : Value → Char → Prop
  | .null, c => c = 'n'
  | .boolean true, c => c = 't'
  | .boolean false, c => c = 'f'
  | .number _, c => c = '-' ∨ c.isDigit = true
  | .string _, c => c = '"'
  | .array _, c => c = '['
  | .object _, c => c = '\x7b'

theorem Writes.begins {v : Value} {s : List Char} (h : Writes (.value v) s) : ∃ c r, s = c :: r ∧ v.Begins c := by
  cases h with
  | number hn =>
    cases hn with
    | positive _ hu =>
      obtain ⟨f, e, -, -, rfl⟩ := hu.tail
      obtain ⟨c, r, hw⟩ := List.exists_cons_of_ne_nil hu.whole.ne_nil
      exact ⟨c, r ++ (f ++ e), by rw [hw, List.cons_append], .inr (hu.whole.digit c (by simp [hw]))⟩
    | negative => exact ⟨_, _, rfl, .inl rfl⟩
  | _ => exact ⟨_, _, rfl, rfl⟩

/-- A quote or an opening bracket tells what a value is. -/
theorem Value.Begins.shape {v : Value} {c : Char} (h : v.Begins c) :
    (c = '"' → ∃ x, v = .string x) ∧ (c = '[' → ∃ l, v = .array l) ∧ (c = '\x7b' → ∃ l, v = .object l) := by
  cases v with
  | boolean b => cases b <;> (cases h; simp)
  | number n => refine ⟨?_, ?_, ?_⟩ <;> (rintro rfl; exact absurd h (by simp [Value.Begins]))
  | _ => cases h; simp

/-- What may stand behind a value, and no value begins with. -/
def delimiters : List Char := blankChars ++ [',', ']', '\x7d']

theorem Value.Begins.not_delimiter {v : Value} {c : Char} (h : v.Begins c) : c ∉ delimiters := by
  intro hc
  simp only [delimiters, blankChars, List.cons_append, List.nil_append, List.mem_cons, List.not_mem_nil, or_false] at hc
  cases v with
  | boolean b => cases b <;> (cases h; exact absurd hc (by decide))
  | number n =>
    rcases hc with rfl | rfl | rfl | rfl | rfl | rfl | rfl <;> exact absurd h (by simp [Value.Begins])
  | _ => cases h; exact absurd hc (by decide)

theorem not_blank_of_not_delimiter {c : Char} (h : c ∉ delimiters) : c ∉ blankChars := fun hc =>
  h (List.mem_append_left _ hc)

theorem Value.Begins.not_blank {v : Value} {c : Char} (h : v.Begins c) : c ∉ blankChars :=
  not_blank_of_not_delimiter h.not_delimiter

/-- The first character of a text behind blanks. -/
def FirstIs (c : Char) (s : List Char) : Prop := ∃ a r, Blanks a ∧ s = a ++ c :: r

theorem FirstIs.append {c : Char} {s : List Char} (h : FirstIs c s) (t : List Char) : FirstIs c (s ++ t) := by
  obtain ⟨a, r, ha, rfl⟩ := h
  exact ⟨a, r ++ t, ha, by rw [List.append_assoc, List.cons_append]⟩

theorem Writes.firstIs_item {v : Value} {s : List Char} (h : Writes (.item v) s) : ∃ c, FirstIs c s ∧ v.Begins c := by
  cases h with
  | item ha hv _ =>
    obtain ⟨c, r, rfl, hc⟩ := hv.begins
    exact ⟨c, ⟨_, _, ha, rfl⟩, hc⟩

theorem Writes.firstIs_items {l : List Value} {s : List Char} (h : Writes (.items l) s) :
    ∃ c, FirstIs c s ∧ c ∉ delimiters := by
  cases h with
  | lastItem hv =>
    obtain ⟨c, hc, hv⟩ := hv.firstIs_item
    exact ⟨c, hc, hv.not_delimiter⟩
  | nextItem hv _ =>
    obtain ⟨c, hc, hv⟩ := hv.firstIs_item
    exact ⟨c, hc.append _, hv.not_delimiter⟩

theorem Writes.items_cons {v : Value} {l : List Value} {s : List Char} (h : Writes (.items (v :: l)) s) :
    ∃ t u, s = t ++ u ∧ Writes (.item v) t ∧ (l = [] ∧ u = [] ∨ ∃ w, u = ',' :: w ∧ Writes (.items l) w) := by
  cases h with
  | lastItem hv => exact ⟨s, [], (List.append_nil s).symm, hv, .inl ⟨rfl, rfl⟩⟩
  | nextItem hv hl => exact ⟨_, _, rfl, hv, .inr ⟨_, rfl, hl⟩⟩

theorem Writes.members_cons {k : String} {v : Value} {l : List (String × Value)} {s : List Char}
    (h : Writes (.members ((k, v) :: l)) s) :
    ∃ t u, s = t ++ u ∧ Writes (.member k v) t ∧ (l = [] ∧ u = [] ∨ ∃ w, u = ',' :: w ∧ Writes (.members l) w) := by
  cases h with
  | lastMember hm => exact ⟨s, [], (List.append_nil s).symm, hm, .inl ⟨rfl, rfl⟩⟩
  | nextMember hm hl => exact ⟨_, _, rfl, hm, .inr ⟨_, rfl, hl⟩⟩

theorem Writes.firstIs_member {k : String} {v : Value} {s : List Char} (h : Writes (.member k v) s) : FirstIs '"' s := by
  cases h with
  | member ha _ _ _ => exact ⟨_, _, ha, rfl⟩

theorem Writes.firstIs_members {l : List (String × Value)} {s : List Char} (h : Writes (.members l) s) :
    FirstIs '"' s := by
  cases h with
  | lastMember hm => exact hm.firstIs_member
  | nextMember hm _ => exact hm.firstIs_member.append _

end CpuMonitor.Json
