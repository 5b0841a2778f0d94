import CpuMonitor.Proofs.Json.Document
import CpuMonitor.Request.File

/-!
# The format of request files

Which documents are request files, and for which requests.

* `Denotes` : a document stands for a request.
* `given?` : what the lists of a document give, if it is a request file, computed in the order of the document.
* `Lists` : which lists a document gives; `given?_eq_some_iff`, `denotes_iff` : all three agree.
-/

set_option autoImplicit false

namespace CpuMonitor.Request
open Json (Value)

/-! ## Documents of requests -/

def list (r : Request) : Field → List String
  | .loadWindows => r.loadWindows
  | .windows => r.windows
  | .kinds => r.kinds

def ofStrings (l : List String) : Value := .array (l.map .string)

/-- The values that an object has for a field, under either of its keys. -/
def valuesOf (f : Field) (members : List (String × Value)) : List Value :=
  (members.filter fun m => m.1 = f.key ∨ m.1 = f.secondKey).map Prod.snd

/-- A document stands for a request: it gives each list at most once, and the others are the defaults. -/
inductive Denotes : Value → Request → Prop
  | object {members : List (String × Value)} {r : Request}
      (h : ∀ f, valuesOf f members = [ofStrings (r.list f)] ∨
        valuesOf f members = [] ∧ r.list f = (defaults "linux").list f) : Denotes (.object members) r
  | array {lists : List (List String)} (h : lists.length ≤ 3) :
      Denotes (.array (lists.map ofStrings))
        ⟨lists[0]?.getD (defaults "linux").loadWindows, lists[1]?.getD (defaults "linux").windows,
          lists[2]?.getD (defaults "linux").kinds⟩

/-! ## Lists of strings -/

def stringOf? : Value → Option String
  | .string s => some s
  | _ => none

def stringsOf? : List Value → Option (List String)
  | [] => some []
  | v :: l => (stringOf? v).bind fun s => (stringsOf? l).map (s :: ·)

def listOf? : Value → Option (List String)
  | .array l => stringsOf? l
  | _ => none

theorem stringOf?_eq_some_iff {v : Value} {s : String} : stringOf? v = some s ↔ v = .string s := by
  cases v <;> simp [stringOf?]

theorem stringsOf?_eq_some_iff {l : List Value} {x : List String} : stringsOf? l = some x ↔ l = x.map .string := by
  induction l generalizing x with
  | nil => cases x <;> simp [stringsOf?]
  | cons v l ih =>
    simp only [stringsOf?, Option.bind_eq_some_iff, Option.map_eq_some_iff, stringOf?_eq_some_iff, ih]
    constructor
    · rintro ⟨s, rfl, y, rfl, rfl⟩
      rfl
    · intro h
      obtain ⟨s, y, rfl, rfl, rfl⟩ := List.map_eq_cons_iff.1 h.symm
      exact ⟨s, rfl, y, rfl, rfl⟩

theorem listOf?_eq_some_iff {v : Value} {l : List String} : listOf? v = some l ↔ v = ofStrings l := by
  cases v <;> simp [listOf?, ofStrings, stringsOf?_eq_some_iff]

/-! ## Fields and what is given -/

theorem Field.ofKey?_eq_some_iff {k : String} {f : Field} : Field.ofKey? k = some f ↔ k = f.key ∨ k = f.secondKey := by
  constructor
  · intro h
    have hkey := List.find?_some h
    rw [Bool.or_eq_true, beq_iff_eq, beq_iff_eq] at hkey
    exact hkey.imp Eq.symm Eq.symm
  · rintro (rfl | rfl) <;> (cases f <;> decide +kernel)

theorem Given.ext_get? {g h : Given} (hget : ∀ f, g.get? f = h.get? f) : g = h := by
  obtain ⟨_, _, _⟩ := g
  obtain ⟨_, _, _⟩ := h
  obtain rfl := hget .loadWindows
  obtain rfl := hget .windows
  obtain rfl := hget .kinds
  rfl

@[simp]
theorem Given.get?_set_self (g : Given) (f : Field) (l : List String) : (g.set f l).get? f = some l := by
  cases f <;> rfl

theorem Given.get?_set_of_ne (g : Given) {f f' : Field} (h : f' ≠ f) (l : List String) :
    (g.set f l).get? f' = g.get? f' := by
  cases f <;> cases f' <;> first | rfl | exact absurd rfl h

@[simp]
theorem Given.get?_nothing (f : Field) : Given.nothing.get? f = none := by cases f <;> rfl

theorem Given.list_request (g : Given) (f : Field) : g.request.list f = (g.get? f).getD ((defaults "linux").list f) := by
  cases f <;> rfl

theorem ext_list {r r' : Request} (h : ∀ f, r.list f = r'.list f) : r = r' := by
  obtain ⟨_, _, _⟩ := r
  obtain ⟨_, _, _⟩ := r'
  obtain rfl := h .loadWindows
  obtain rfl := h .windows
  obtain rfl := h .kinds
  rfl

/-! ## Members and positions -/

def Given.add? (g : Given) (k : String) (v : Value) : Option Given :=
  match Field.ofKey? k with
  | none => some g
  | some f => if (g.get? f).isSome then none else (listOf? v).map (g.set f)

def Given.addAll? (g : Given) : List (String × Value) → Option Given
  | [] => some g
  | (k, v) :: l => (g.add? k v).bind fun g' => g'.addAll? l

/-- What is given after lists for as many of `fields`. -/
def Given.place? (g : Given) : List Field → List Value → Option Given
  | _, [] => some g
  | [], _ :: _ => none
  | f :: fields, v :: l => (listOf? v).bind fun x => (g.set f x).place? fields l

def given? : Value → Option Given
  | .object members => Given.nothing.addAll? members
  | .array items => Given.nothing.place? Field.all items
  | _ => none

/-- A field is as it was, or was not given and is given just once now. -/
def Given.Extends (g g' : Given) (members : List (String × Value)) : Prop :=
  ∀ f, valuesOf f members = [] ∧ g'.get? f = g.get? f ∨
    g.get? f = none ∧ ∃ l, valuesOf f members = [ofStrings l] ∧ g'.get? f = some l

theorem valuesOf_cons_of_key {f : Field} {k : String} (h : Field.ofKey? k = some f) (v : Value)
    (l : List (String × Value)) : valuesOf f ((k, v) :: l) = v :: valuesOf f l := by
  rw [valuesOf, List.filter_cons_of_pos (by simpa using Field.ofKey?_eq_some_iff.1 h)]
  rfl

theorem valuesOf_cons_of_ne {f : Field} {k : String} (h : Field.ofKey? k ≠ some f) (v : Value)
    (l : List (String × Value)) : valuesOf f ((k, v) :: l) = valuesOf f l := by
  rw [valuesOf, List.filter_cons_of_neg (by simpa using mt Field.ofKey?_eq_some_iff.2 h)]
  rfl

section Extends
variable {g g' : Given} {k : String} {v : Value} {l : List (String × Value)}

theorem Given.extends_cons_of_none (hk : Field.ofKey? k = none) : g.Extends g' ((k, v) :: l) ↔ g.Extends g' l := by
  have hvalues : ∀ f, valuesOf f ((k, v) :: l) = valuesOf f l := fun f =>
    valuesOf_cons_of_ne (by rw [hk]; exact Option.some_ne_none f ∘ Eq.symm) v l
  simp only [Extends, hvalues]

/-- A member of a field gives its list, if it was not given. -/
theorem Given.extends_cons_of_some {f : Field} (hk : Field.ofKey? k = some f) :
    g.Extends g' ((k, v) :: l) ↔ g.get? f = none ∧ ∃ x, v = ofStrings x ∧ (g.set f x).Extends g' l := by
  have hother : ∀ f', f' ≠ f → valuesOf f' ((k, v) :: l) = valuesOf f' l := fun f' hne =>
    valuesOf_cons_of_ne (by rw [hk]; exact fun h => hne (Option.some.inj h).symm) v l
  constructor
  · intro h
    have hf := h f
    rw [valuesOf_cons_of_key hk] at hf
    obtain ⟨hnil, -⟩ | ⟨hnone, x, hvalues, hx⟩ := hf
    · cases hnil
    · obtain ⟨rfl, hrest⟩ := List.cons.inj hvalues
      refine ⟨hnone, x, rfl, fun f' => ?_⟩
      by_cases hne : f' = f
      · subst hne
        exact .inl ⟨hrest, by rw [hx, get?_set_self]⟩
      · rw [get?_set_of_ne g hne, ← hother f' hne]
        exact h f'
  · rintro ⟨hnone, x, rfl, h⟩ f'
    by_cases hne : f' = f
    · subst hne
      obtain ⟨hnil, hx⟩ | ⟨hset, -⟩ := h f'
      · exact .inr ⟨hnone, x, by rw [valuesOf_cons_of_key hk, hnil], by rw [hx, get?_set_self]⟩
      · rw [get?_set_self] at hset
        cases hset
    · have hf := h f'
      rw [get?_set_of_ne g hne, ← hother f' hne] at hf
      exact hf

end Extends

/-- Members give each field at most once, and a list. -/
theorem Given.addAll?_eq_some_iff {g g' : Given} {l : List (String × Value)} :
    g.addAll? l = some g' ↔ g.Extends g' l := by
  induction l generalizing g with
  | nil =>
    rw [addAll?, Option.some.injEq]
    constructor
    · rintro rfl f
      exact .inl ⟨rfl, rfl⟩
    · intro h
      refine ext_get? fun f => ?_
      obtain ⟨-, hf⟩ | ⟨-, _, hf, -⟩ := h f
      · exact hf.symm
      · cases hf
  | cons m l ih =>
    obtain ⟨k, v⟩ := m
    rw [addAll?, Option.bind_eq_some_iff, add?]
    cases hk : Field.ofKey? k with
    | none => simp [extends_cons_of_none hk, ih]
    | some f =>
      rw [extends_cons_of_some hk]
      cases hf : g.get? f with
      | none =>
        simp only [hf, Option.isSome_none, Bool.false_eq_true, if_false, Option.map_eq_some_iff, listOf?_eq_some_iff,
          ih, true_and]
        constructor
        · rintro ⟨_, ⟨x, rfl, rfl⟩, h⟩
          exact ⟨x, rfl, h⟩
        · rintro ⟨x, rfl, h⟩
          exact ⟨_, ⟨x, rfl, rfl⟩, h⟩
      | some x => simp [hf]

theorem Given.place?_eq_some_iff {g g' : Given} {fields : List Field} {l : List Value} :
    g.place? fields l = some g' ↔ ∃ lists : List (List String), l = lists.map ofStrings ∧ lists.length ≤ fields.length ∧
      g' = (fields.zip lists).foldl (fun g p => g.set p.1 p.2) g := by
  induction fields generalizing g l with
  | nil =>
    cases l with
    | nil => simp [place?, eq_comm]
    | cons v l =>
      refine ⟨fun h => (by cases h), ?_⟩
      rintro ⟨lists, hl, hlen, -⟩
      obtain rfl := List.length_eq_zero_iff.1 (Nat.le_zero.1 hlen)
      cases hl
  | cons f fields ih =>
    cases l with
    | nil => simp [place?, eq_comm]
    | cons v l =>
      simp only [place?, Option.bind_eq_some_iff, listOf?_eq_some_iff, ih]
      constructor
      · rintro ⟨x, rfl, lists, rfl, hlen, rfl⟩
        exact ⟨x :: lists, rfl, Nat.succ_le_succ hlen, rfl⟩
      · rintro ⟨lists, hl, hlen, rfl⟩
        obtain ⟨x, lists, rfl, rfl, rfl⟩ := List.map_eq_cons_iff.1 hl.symm
        exact ⟨x, rfl, lists, rfl, Nat.le_of_succ_le_succ hlen, rfl⟩

/-- A document gives some lists: under either of their keys, or in order. -/
inductive Lists : Value → Given → Prop
  | object {members : List (String × Value)} {g : Given}
      (h : ∀ f, valuesOf f members = [] ∧ g.get? f = none ∨
        ∃ l, valuesOf f members = [ofStrings l] ∧ g.get? f = some l) : Lists (.object members) g
  | array {lists : List (List String)} (h : lists.length ≤ 3) :
      Lists (.array (lists.map ofStrings)) ⟨lists[0]?, lists[1]?, lists[2]?⟩

theorem place?_all {lists : List (List String)} (h : lists.length ≤ 3) :
    (Field.all.zip lists).foldl (fun g p => g.set p.1 p.2) Given.nothing = ⟨lists[0]?, lists[1]?, lists[2]?⟩ := by
  obtain _ | ⟨a, _ | ⟨b, _ | ⟨c, _ | ⟨d, rest⟩⟩⟩⟩ := lists
  · rfl
  · rfl
  · rfl
  · rfl
  · simp only [List.length_cons] at h
    omega

theorem given?_eq_some_iff {v : Value} {g : Given} : given? v = some g ↔ Lists v g := by
  constructor
  · intro h
    cases v with
    | object members =>
      refine .object fun f => ?_
      simpa using Given.addAll?_eq_some_iff.1 h f
    | array items =>
      obtain ⟨lists, rfl, hlen, rfl⟩ := Given.place?_eq_some_iff.1 h
      rw [place?_all hlen]
      exact .array hlen
    | _ => cases h
  · intro h
    cases h with
    | object h =>
      refine Given.addAll?_eq_some_iff.2 fun f => ?_
      simpa using h f
    | array h => exact Given.place?_eq_some_iff.2 ⟨_, rfl, h, (place?_all h).symm⟩

def Given.ofObject (members : List (String × Value)) (r : Request) : Given where
  loadWindows := if (valuesOf .loadWindows members).isEmpty then none else some r.loadWindows
  windows := if (valuesOf .windows members).isEmpty then none else some r.windows
  kinds := if (valuesOf .kinds members).isEmpty then none else some r.kinds

theorem Given.get?_ofObject (members : List (String × Value)) (r : Request) (f : Field) :
    (ofObject members r).get? f = if (valuesOf f members).isEmpty then none else some (r.list f) := by
  cases f <;> rfl

/-- A document stands for the request of what it gives. -/
theorem denotes_iff {v : Value} {r : Request} : Denotes v r ↔ ∃ g, given? v = some g ∧ g.request = r := by
  constructor
  · intro h
    cases h with
    | @object members _ h =>
      refine ⟨.ofObject members r, given?_eq_some_iff.2 (.object fun f => ?_), ext_list fun f => ?_⟩
      · rw [Given.get?_ofObject]
        rcases h f with hvalues | ⟨hnil, -⟩
        · exact .inr ⟨r.list f, hvalues, by rw [hvalues]; rfl⟩
        · exact .inl ⟨hnil, by rw [hnil]; rfl⟩
      · rw [Given.list_request, Given.get?_ofObject]
        rcases h f with hvalues | ⟨hnil, hdefault⟩
        · rw [hvalues]
          rfl
        · rw [hnil, hdefault]
          rfl
    | array h => exact ⟨_, given?_eq_some_iff.2 (.array h), rfl⟩
  · rintro ⟨g, hg, rfl⟩
    cases given?_eq_some_iff.1 hg with
    | object h =>
      refine .object fun f => ?_
      rw [Given.list_request]
      rcases h f with ⟨hnil, hget⟩ | ⟨l, hvalues, hget⟩
      · exact .inr ⟨hnil, by rw [hget]; rfl⟩
      · exact .inl (by rw [hvalues, hget]; rfl)
    | array h => exact .array h

end CpuMonitor.Request
