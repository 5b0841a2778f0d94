import CpuMonitor.Host.TickTable
import CpuMonitor.Proofs.Binary64.Sign
import CpuMonitor.Proofs.Text.Normal
import CpuMonitor.Proofs.Text.Pieces
import Mathlib.Data.List.Forall2
import Mathlib.Data.List.TakeDrop

/-!
# The frequency in `kern.clockrate`

What is read of names and values in braces, in any order and with any blanks around them.

* `Written pairs s` : the text `s` has these names and values.
* `entries` : the names and values between the commas of a text; `Written.entries_eq` : what is dropped at the ends of such a
  text is no part of them.
* `FirstNamed name pairs value` : the first value of this name.
* `frequency_of_pairs` : the frequency is the first value that is named `stathz`, if this is a number above zero.
-/

set_option autoImplicit false

namespace CpuMonitor.TickTable

/-! ## Pairs in writing -/

abbrev Pair := List Char × List Char

/-- None of the characters that hold names and values together is in this text. -/
def IsPlain (s : List Char) : Prop := '\x7b' ∉ s ∧ '\x7d' ∉ s ∧ ',' ∉ s ∧ '=' ∉ s

instance : DecidablePred IsPlain := fun s =>
  inferInstanceAs (Decidable ('\x7b' ∉ s ∧ '\x7d' ∉ s ∧ ',' ∉ s ∧ '=' ∉ s))

/-- A text of a name and a value, with blanks anywhere around them. -/
def WritesPair (p : Pair) (s : List Char) : Prop :=
  ∃ name value, Text.Padded p.1 name ∧ Text.Padded p.2 value ∧ s = name ++ '=' :: value

/-- Names and values in braces, with commas between them and blanks anywhere. -/
structure Written (pairs : List Pair) (s : List Char) : Prop where
  plain : ∀ p ∈ pairs, IsPlain p.1 ∧ IsPlain p.2
  text : ∃ texts body, List.Forall₂ WritesPair pairs texts ∧ Text.Padded ([','].intercalate texts) body ∧
    Text.Padded ('\x7b' :: body ++ ['\x7d']) s

/-- A value is the first one of this name. -/
def FirstNamed (name : List Char) (pairs : List Pair) (value : List Char) : Prop :=
  ∃ before n after, pairs = before ++ (n, value) :: after ∧ Text.Padded name n ∧
    ∀ p ∈ before, ¬ Text.Padded name p.1

/-! ## Entries -/

def trimmed (p : Pair) : Pair := (Text.trim p.1, Text.trim p.2)

def pairOf? (piece : List Char) : Option Pair := (assignment? piece).map trimmed

/-- The names and values between the commas of a text. -/
def entries (s : List Char) : List Pair := (s.splitOn ',').filterMap pairOf?

theorem assignment?_append {name : List Char} (h : '=' ∉ name) (value : List Char) :
    assignment? (name ++ '=' :: value) = some (name, value) := by
  have hname : ∀ c ∈ name, (c != '=') = true := fun c hc => bne_iff_ne.2 fun heq => h (heq ▸ hc)
  have hspan : (name ++ '=' :: value).span (· != '=') = (name, '=' :: value) := by
    rw [List.span_eq_takeWhile_dropWhile, List.takeWhile_append_of_pos hname, List.dropWhile_append_of_pos hname,
      List.takeWhile_cons_of_neg (by decide), List.dropWhile_cons_of_neg (by decide), List.append_nil]
  unfold assignment?
  simp only [hspan]

theorem assignment?_eq_none {s : List Char} (h : '=' ∉ s) : assignment? s = none := by
  have hs : ∀ c ∈ s, (c != '=') = true := fun c hc => bne_iff_ne.2 fun heq => h (heq ▸ hc)
  have hspan : s.span (· != '=') = (s, []) := by
    rw [List.span_eq_takeWhile_dropWhile, List.takeWhile_eq_self_iff.2 hs, List.dropWhile_eq_nil_iff.2 hs]
  unfold assignment?
  simp only [hspan]

theorem not_mem_blanks {c : Char} (hc : Text.isBlank c = false) {b : List Char}
    (h : ∀ d ∈ b, Text.isBlank d = true) : c ∉ b := by
  intro hmem
  rw [h c hmem] at hc
  cases hc

/-- Blanks around a piece are no part of its name or value. -/
theorem pairOf?_of_padded {t s : List Char} (h : Text.Padded t s) : pairOf? s = pairOf? t := by
  obtain ⟨b, b', rfl, hb, hb'⟩ := h
  have hequals : '=' ∉ b := not_mem_blanks (by decide) hb
  unfold pairOf?
  by_cases ht : '=' ∈ t
  · obtain ⟨name, value, rfl, hname⟩ := List.eq_append_cons_of_mem ht
    have hsplit : b ++ (name ++ '=' :: value) ++ b' = (b ++ name) ++ '=' :: (value ++ b') := by simp
    have hname' : Text.trim (b ++ name) = Text.trim name := Text.Padded.trim_eq ⟨b, [], by simp, hb, nofun⟩
    have hvalue : Text.trim (value ++ b') = Text.trim value := Text.Padded.trim_eq ⟨[], b', by simp, nofun, hb'⟩
    rw [hsplit, assignment?_append (by simp [hequals, hname]), assignment?_append hname, Option.map_some,
      Option.map_some, trimmed, trimmed, hname', hvalue]
  · have hequals' : '=' ∉ b' := not_mem_blanks (by decide) hb'
    rw [assignment?_eq_none (by simp [hequals, ht, hequals']), assignment?_eq_none ht]

theorem entries_piece {p : List Char} (hp : ',' ∉ p) : entries p = (pairOf? p).toList := by
  unfold entries
  rw [List.splitOn_eq_singleton hp, List.filterMap_cons]
  cases pairOf? p <;> rfl

theorem entries_append_cons {p : List Char} (hp : ',' ∉ p) (s : List Char) :
    entries (p ++ ',' :: s) = (pairOf? p).toList ++ entries s := by
  unfold entries
  rw [List.splitOn_append_cons_self_of_not_mem hp, List.filterMap_cons]
  cases pairOf? p <;> rfl

theorem entries_blanks_append {b : List Char} (hb : ∀ c ∈ b, Text.isBlank c = true) (s : List Char) :
    entries (b ++ s) = entries s := by
  have hcomma : ',' ∉ b := not_mem_blanks (by decide) hb
  have hfirst (p : List Char) : pairOf? (b ++ p) = pairOf? p := pairOf?_of_padded ⟨b, [], by simp, hb, nofun⟩
  induction s using Text.byPieces ',' with
  | last p hp => rw [entries_piece (by simp [hcomma, hp]), entries_piece hp, hfirst]
  | next p s hp _ =>
    rw [← List.append_assoc, entries_append_cons (by simp [hcomma, hp]), entries_append_cons hp, hfirst]

theorem entries_append_blanks {b : List Char} (hb : ∀ c ∈ b, Text.isBlank c = true) (s : List Char) :
    entries (s ++ b) = entries s := by
  have hcomma : ',' ∉ b := not_mem_blanks (by decide) hb
  have hlast (p : List Char) : pairOf? (p ++ b) = pairOf? p := pairOf?_of_padded ⟨[], b, by simp, nofun, hb⟩
  induction s using Text.byPieces ',' with
  | last p hp => rw [entries_piece (by simp [hcomma, hp]), entries_piece hp, hlast]
  | next p s hp ih => rw [List.append_assoc, List.cons_append, entries_append_cons hp, entries_append_cons hp, ih]

theorem entries_of_padded {t s : List Char} (h : Text.Padded t s) : entries s = entries t := by
  obtain ⟨b, b', rfl, hb, hb'⟩ := h
  rw [entries_append_blanks hb', entries_blanks_append hb]

/-! ## Pairs are read -/

section WritesPair
variable {p : Pair} {s : List Char} (h : WritesPair p s)
include h

theorem WritesPair.pairOf?_eq (hname : '=' ∉ p.1) : pairOf? s = some (trimmed p) := by
  obtain ⟨name, value, hpadded, hvalue, rfl⟩ := h
  have hequals : '=' ∉ name := fun hmem =>
    (hpadded.mem_cases hmem).elim hname (fun hblank => absurd hblank (by decide))
  unfold pairOf? trimmed
  rw [assignment?_append hequals, Option.map_some, hpadded.trim_eq, hvalue.trim_eq]

/-- What is in a pair in writing is in its name or value, but for a `=` and blanks. -/
theorem WritesPair.not_mem {c : Char} (hequals : c ≠ '=') (hblank : Text.isBlank c = false) (hname : c ∉ p.1)
    (hvalue : c ∉ p.2) : c ∉ s := by
  obtain ⟨name, value, hpadded, hpadded', rfl⟩ := h
  intro hc
  rcases List.mem_append.1 hc with hc | hc
  · exact (hpadded.mem_cases hc).elim hname (by simp [hblank])
  · rcases List.mem_cons.1 hc with hc | hc
    · exact hequals hc
    · exact (hpadded'.mem_cases hc).elim hvalue (by simp [hblank])

end WritesPair

section Pairs
variable {pairs : List Pair} {texts : List (List Char)} (h : List.Forall₂ WritesPair pairs texts)
include h

theorem not_mem_texts {c : Char} (hequals : c ≠ '=') (hblank : Text.isBlank c = false)
    (hplain : ∀ p ∈ pairs, c ∉ p.1 ∧ c ∉ p.2) : ∀ t ∈ texts, c ∉ t := by
  induction h with
  | nil => exact nofun
  | cons hpair _ ih =>
    obtain ⟨⟨hname, hvalue⟩, hplain⟩ := List.forall_mem_cons.1 hplain
    exact List.forall_mem_cons.2 ⟨hpair.not_mem hequals hblank hname hvalue, ih hplain⟩

theorem filterMap_pairOf?_texts (hname : ∀ p ∈ pairs, '=' ∉ p.1) : texts.filterMap pairOf? = pairs.map trimmed := by
  induction h with
  | nil => rfl
  | cons hpair _ ih =>
    obtain ⟨hp, hname⟩ := List.forall_mem_cons.1 hname
    rw [List.filterMap_cons_some (hpair.pairOf?_eq hp), ih hname, List.map_cons]

theorem entries_intercalate (plain : ∀ p ∈ pairs, IsPlain p.1 ∧ IsPlain p.2) :
    entries ([','].intercalate texts) = pairs.map trimmed := by
  have hcomma := not_mem_texts h (by decide) (by decide) fun p hp => ⟨(plain p hp).1.2.2.1, (plain p hp).2.2.2.1⟩
  have hfound := filterMap_pairOf?_texts h fun p hp => (plain p hp).1.2.2.2
  by_cases hne : texts = []
  · subst hne
    rw [← hfound]
    rfl
  · rw [entries, List.splitOn_intercalate ',' hcomma hne, hfound]

end Pairs

/-! ## The ends of a text -/

theorem isEdge_iff {c : Char} : isEdge c = true ↔ c = '\x7b' ∨ c = '\x7d' ∨ Text.isBlank c = true := by
  simp [isEdge, or_assoc]

/-- What stands at the ends of a text and is dropped there does not matter. -/
theorem dropEdges_append {e e' : List Char} (he : ∀ c ∈ e, isEdge c = true) (he' : ∀ c ∈ e', isEdge c = true)
    (t : List Char) : dropEdges (e ++ t ++ e') = dropEdges t := by
  unfold dropEdges
  rw [List.append_assoc, List.dropWhile_append_of_pos he, List.dropWhile_append]
  by_cases ht : t.dropWhile isEdge = []
  · rw [ht, List.dropWhile_eq_nil_iff.2 he']
    rfl
  · rw [if_neg (by simpa using ht), List.reverse_append,
      List.dropWhile_append_of_pos fun c hc => he' c (List.mem_reverse.1 hc)]

theorem exists_edges (s : List Char) : ∃ e e', s = e ++ dropEdges s ++ e' ∧
    (∀ c ∈ e, isEdge c = true) ∧ ∀ c ∈ e', isEdge c = true := by
  refine ⟨s.takeWhile isEdge, ((s.dropWhile isEdge).reverse.takeWhile isEdge).reverse, ?_,
    fun c => List.mem_takeWhile_imp, fun c hc => List.mem_takeWhile_imp (List.mem_reverse.1 hc)⟩
  have hend : dropEdges s ++ ((s.dropWhile isEdge).reverse.takeWhile isEdge).reverse = s.dropWhile isEdge := by
    rw [dropEdges, ← List.reverse_append, List.takeWhile_append_dropWhile, List.reverse_reverse]
  rw [List.append_assoc, hend, List.takeWhile_append_dropWhile]

theorem entries_dropEdges {s : List Char} (hopen : '\x7b' ∉ s) (hclose : '\x7d' ∉ s) :
    entries (dropEdges s) = entries s := by
  obtain ⟨e, e', hs, he, he'⟩ := exists_edges s
  have hblank : ∀ c ∈ s, isEdge c = true → Text.isBlank c = true := by
    intro c hc hedge
    rcases isEdge_iff.1 hedge with rfl | rfl | hblank
    · exact absurd hc hopen
    · exact absurd hc hclose
    · exact hblank
  refine (entries_of_padded ⟨e, e', hs, fun c hc => hblank c ?_ (he c hc), fun c hc => hblank c ?_ (he' c hc)⟩).symm
  · rw [hs, List.append_assoc]
    exact List.mem_append_left _ hc
  · rw [hs]
    exact List.mem_append_right _ hc

/-- The entries of a text of pairs are these pairs, wherever its blanks are. -/
theorem Written.entries_eq {pairs : List Pair} {s : List Char} (h : Written pairs s) :
    entries (dropEdges s) = pairs.map trimmed := by
  obtain ⟨texts, body, hpairs, hbody, b, b', rfl, hb, hb'⟩ := h.text
  have hno {c : Char} (hequals : c ≠ '=') (hcomma : c ≠ ',') (hblank : Text.isBlank c = false)
      (hplain : ∀ p ∈ pairs, c ∉ p.1 ∧ c ∉ p.2) : c ∉ body := fun hc =>
    (hbody.mem_cases hc).elim (Text.not_mem_intercalate hcomma (not_mem_texts hpairs hequals hblank hplain)) (by simp [hblank])
  have hopen : '\x7b' ∉ body :=
    hno (by decide) (by decide) (by decide) fun p hp => ⟨(h.plain p hp).1.1, (h.plain p hp).2.1⟩
  have hclose : '\x7d' ∉ body :=
    hno (by decide) (by decide) (by decide) fun p hp => ⟨(h.plain p hp).1.2.1, (h.plain p hp).2.2.1⟩
  have hfront : ∀ c ∈ b ++ ['\x7b'], isEdge c = true := fun c hc =>
    isEdge_iff.2 ((List.mem_append.1 hc).elim (fun hc => .inr (.inr (hb c hc))) fun hc => .inl (List.mem_singleton.1 hc))
  have hback : ∀ c ∈ '\x7d' :: b', isEdge c = true := fun c hc =>
    isEdge_iff.2 (.inr ((List.mem_cons.1 hc).imp_right (hb' c)))
  have hsplit : b ++ ('\x7b' :: body ++ ['\x7d']) ++ b' = (b ++ ['\x7b']) ++ body ++ ('\x7d' :: b') := by simp
  rw [hsplit, dropEdges_append hfront hback, entries_dropEdges hopen hclose, entries_of_padded hbody,
    entries_intercalate hpairs h.plain]

/-! ## The first value of a name -/

theorem trim_eq_iff_padded {name n : List Char} (tight : Text.Tight name) : Text.trim n = name ↔ Text.Padded name n := by
  rw [Text.trim_eq_iff, and_iff_left tight]

theorem find?_trimmed_eq_some_iff {name : List Char} (tight : Text.Tight name) {pairs : List Pair} {e : Pair} :
    (pairs.map trimmed).find? (fun e => e.1 == name) = some e ↔
      ∃ value, FirstNamed name pairs value ∧ e = (name, Text.trim value) := by
  rw [List.find?_map, Option.map_eq_some_iff]
  constructor
  · rintro ⟨⟨n, value⟩, hfind, rfl⟩
    obtain ⟨hn, before, after, hpairs, hbefore⟩ := List.find?_eq_some_iff_append.1 hfind
    have hname : Text.trim n = name := beq_iff_eq.1 hn
    refine ⟨value, ⟨before, n, after, hpairs, (trim_eq_iff_padded tight).1 hname, fun p hp hpadded => ?_⟩, ?_⟩
    · have hother := hbefore p hp
      rw [Function.comp_apply, trimmed, (trim_eq_iff_padded tight).2 hpadded, beq_self_eq_true] at hother
      cases hother
    · rw [trimmed, hname]
  · rintro ⟨value, ⟨before, n, after, rfl, hn, hbefore⟩, rfl⟩
    have hname := (trim_eq_iff_padded tight).2 hn
    refine ⟨(n, value), List.find?_eq_some_iff_append.2 ⟨by simp [trimmed, hname], before, after, rfl, fun p hp => ?_⟩, ?_⟩
    · simpa [trimmed, trim_eq_iff_padded tight] using hbefore p hp
    · rw [trimmed, hname]

theorem FirstNamed.trim_eq {name value value' : List Char} {pairs : List Pair} (h : FirstNamed name pairs value)
    (tight : Text.Tight name) (h' : FirstNamed name pairs value') : Text.trim value = Text.trim value' := by
  have hfind := (find?_trimmed_eq_some_iff tight).2 ⟨value, h, rfl⟩
  have hfind' := (find?_trimmed_eq_some_iff tight).2 ⟨value', h', rfl⟩
  exact congrArg Prod.snd (Option.some.inj (hfind.symm.trans hfind'))

/-! ## The frequency -/

def rateName : List Char := ['s', 't', 'a', 't', 'h', 'z']

theorem tight_rateName : Text.Tight rateName := .of_all (by decide)

theorem frequency?_eq_some_iff {text : String} {x : Binary64} : frequency? text = some x ↔
    ∃ e, (entries (dropEdges text.toList)).find? (fun e => e.1 == rateName) = some e ∧
      Binary64.read? e.2 = some x ∧ x.isPositive = true := by
  have hentries (s : List Char) : entries s = ((s.splitOn ',').filterMap assignment?).map trimmed :=
    List.map_filterMap.symm
  rw [hentries, List.find?_map]
  unfold frequency?
  simp only [Option.bind_eq_bind, Option.bind_eq_some_iff, Option.map_eq_some_iff]
  constructor
  · rintro ⟨a, hfind, y, hread, hpos⟩
    split at hpos
    · cases hpos
      exact ⟨trimmed a, ⟨a, hfind, rfl⟩, hread, ‹_›⟩
    · cases hpos
  · rintro ⟨_, ⟨a, hfind, rfl⟩, hread, hpos⟩
    exact ⟨a, hfind, x, hread, if_pos hpos⟩

theorem isPositive_of_frequency? {text : String} {x : Binary64} (h : frequency? text = some x) :
    x.isPositive = true := by
  obtain ⟨_, _, _, hpos⟩ := frequency?_eq_some_iff.1 h
  exact hpos

section Written
variable {pairs : List Pair} {text : String} (h : Written pairs text.toList) {x : Binary64}
include h

/-- The frequency is the first value of its name, if this is a number above zero. -/
theorem Written.frequency?_eq_some_iff : frequency? text = some x ↔ ∃ value, FirstNamed rateName pairs value ∧
    Binary64.read? (Text.trim value) = some x ∧ x.isPositive = true := by
  rw [TickTable.frequency?_eq_some_iff, h.entries_eq]
  constructor
  · rintro ⟨e, hfind, hread, hpos⟩
    obtain ⟨value, hfirst, rfl⟩ := (find?_trimmed_eq_some_iff tight_rateName).1 hfind
    exact ⟨value, hfirst, hread, hpos⟩
  · rintro ⟨value, hfirst, hread, hpos⟩
    exact ⟨_, (find?_trimmed_eq_some_iff tight_rateName).2 ⟨value, hfirst, rfl⟩, hread, hpos⟩

theorem Written.frequency?_of_firstNamed {value token : List Char} (hfirst : FirstNamed rateName pairs value)
    (hpadded : Text.Padded token value) : frequency? text = some x ↔
      Binary64.read? (Text.trim token) = some x ∧ x.isPositive = true := by
  rw [h.frequency?_eq_some_iff, ← hpadded.trim_eq]
  refine ⟨fun ⟨value', hfirst', hread, hpos⟩ => ⟨?_, hpos⟩, fun ⟨hread, hpos⟩ => ⟨value, hfirst, hread, hpos⟩⟩
  rwa [hfirst.trim_eq tight_rateName hfirst']

end Written

/-- **The frequency of pairs** is the first value of its name if that is a number above zero, and depends on nothing
else. -/
theorem frequency_of_pairs :
    (∀ pairs (text : String), Written pairs text.toList → ∀ x, frequency? text = some x ↔
      ∃ value token, FirstNamed "stathz".toList pairs value ∧ Text.Padded token value ∧ Text.Tight token ∧
        Binary64.read? token = some x ∧ (x = .infinite false ∨ 0 < x.signedUnits)) ∧
    (∀ pairs pairs' (text text' : String) value value' token,
      Written pairs text.toList → Written pairs' text'.toList →
      FirstNamed "stathz".toList pairs value → FirstNamed "stathz".toList pairs' value' →
      Text.Padded token value → Text.Padded token value' → frequency? text = frequency? text') ∧
    ∀ text x, frequency? text = some x → x ≠ .nan ∧ x.isZero = false ∧ x.isNegative = false := by
  have hname : "stathz".toList = rateName := rfl
  rw [hname]
  refine ⟨fun pairs text h x => ?_, fun pairs pairs' text text' value value' token h h' hfirst hfirst' hpad hpad' => ?_,
    fun text x hx => ?_⟩
  · simp only [h.frequency?_eq_some_iff, Binary64.isPositive_iff]
    constructor
    · rintro ⟨value, hfirst, hread, hpos⟩
      exact ⟨value, _, hfirst, Text.padded_trim value, Text.tight_trim value, hread, hpos⟩
    · rintro ⟨value, token, hfirst, hpadded, tight, hread, hpos⟩
      rw [← Text.trim_of_padded hpadded tight] at hread
      exact ⟨value, hfirst, hread, hpos⟩
  · apply Option.ext
    intro x
    rw [h.frequency?_of_firstNamed hfirst hpad, h'.frequency?_of_firstNamed hfirst' hpad']
  · have hpos := isPositive_of_frequency? hx
    cases x <;> simp_all [Binary64.isPositive, Binary64.isZero, Binary64.isNegative]

/-- A second value of the name is no number, and does not count. -/
theorem frequency_of_pairs_of_two_named :
    let pairs : List Pair := [("hz".toList, "100".toList), ("stathz".toList, "1.27e2".toList), ("stathz".toList, ['x'])]
    let text := "\u00a0\x7b hz = 100,stathz\t= 1.27e2 , stathz =x\x7d\n"
    let alone := "\x7bstathz=1.27e2\x7d"
    Written pairs text.toList ∧ Written [("stathz".toList, "1.27e2".toList)] alone.toList ∧
      frequency? text = some (.ofNat 127) ∧ frequency? text = frequency? alone ∧ (Binary64.ofNat 127).isZero = false := by
  intro pairs text alone
  obtain ⟨hfrequency, hsame, hpositive⟩ := frequency_of_pairs
  have hspace : ∀ c ∈ [' '], Text.isBlank c = true := List.forall_mem_singleton.2 (by decide)
  have htab : ∀ c ∈ ['\t'], Text.isBlank c = true := List.forall_mem_singleton.2 (by decide)
  have hwritten : Written pairs text.toList := by
    refine ⟨by decide, [" hz = 100".toList, "stathz\t= 1.27e2 ".toList, " stathz =x".toList], _, ?_, .refl _,
      ['\u00a0'], ['\n'], by decide +kernel, List.forall_mem_singleton.2 (by decide), List.forall_mem_singleton.2 (by decide)⟩
    refine .cons ⟨" hz ".toList, " 100".toList, ⟨[' '], [' '], rfl, hspace, hspace⟩, ⟨[' '], [], rfl, hspace, nofun⟩, rfl⟩ ?_
    refine .cons ⟨"stathz\t".toList, " 1.27e2 ".toList, ⟨[], ['\t'], rfl, nofun, htab⟩,
      ⟨[' '], [' '], rfl, hspace, hspace⟩, rfl⟩ ?_
    exact .cons ⟨" stathz ".toList, ['x'], ⟨[' '], [' '], rfl, hspace, hspace⟩, .refl _, rfl⟩ .nil
  have halone : Written [("stathz".toList, "1.27e2".toList)] alone.toList :=
    ⟨by decide, ["stathz=1.27e2".toList], _, .cons ⟨_, _, .refl _, .refl _, rfl⟩ .nil, .refl _,
      [], [], by decide +kernel, nofun, nofun⟩
  have hother : ¬ Text.Padded rateName "hz".toList := by
    rw [← trim_eq_iff_padded tight_rateName]
    decide +kernel
  have hfirst : FirstNamed "stathz".toList pairs "1.27e2".toList :=
    ⟨[("hz".toList, "100".toList)], _, _, rfl, .refl _, List.forall_mem_singleton.2 hother⟩
  have hfirst' : FirstNamed "stathz".toList [("stathz".toList, "1.27e2".toList)] "1.27e2".toList :=
    ⟨[], _, _, rfl, .refl _, nofun⟩
  have htold : frequency? text = some (.ofNat 127) := (hfrequency pairs text hwritten _).2
    ⟨_, _, hfirst, .refl _, .of_all (by decide), by decide +kernel, .inr (by decide +kernel)⟩
  refine ⟨hwritten, halone, htold, ?_, (hpositive _ _ htold).2.1⟩
  exact hsame _ _ text alone _ _ _ hwritten halone hfirst hfirst' (.refl _) (.refl _)

end CpuMonitor.TickTable
