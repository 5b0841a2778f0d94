import CpuMonitor.Ordered.Insertion

/-!
# Ordered sets

`OrderedSet α` : a finite set of `α`, held as the list of its elements in ascending order, so that two sets with the
same elements are equal and iteration has one order.

* `mem_ofList`, `mem_insert`, `isEmpty_iff` : what a set holds.
* `OrderedSet.ext` : a set is determined by its elements.
-/

set_option autoImplicit false

namespace CpuMonitor

structure OrderedSet (α : Type) [Ord α] where
  toList : List α
  ascending : Ascending id toList

namespace OrderedSet
variable {α : Type} [Ord α]

instance : EmptyCollection (OrderedSet α) := ⟨⟨[], List.Pairwise.nil⟩⟩

instance : Inhabited (OrderedSet α) := ⟨∅⟩

instance [DecidableEq α] : DecidableEq (OrderedSet α) := fun a b =>
  decidable_of_iff (a.toList = b.toList)
    ⟨fun h => by cases a; cases b; cases h; rfl, fun h => h ▸ rfl⟩

instance : Membership α (OrderedSet α) := ⟨fun s x => x ∈ s.toList⟩

instance [DecidableEq α] (x : α) (s : OrderedSet α) : Decidable (x ∈ s) :=
  inferInstanceAs (Decidable (x ∈ s.toList))

def isEmpty (s : OrderedSet α) : Bool := s.toList.isEmpty

def insert [Std.TransOrd α] (x : α) (s : OrderedSet α) : OrderedSet α :=
  ⟨insertBy id x s.toList, s.ascending.insertBy id x⟩

/-- The set of the elements of a list. -/
def ofList [Std.TransOrd α] (l : List α) : OrderedSet α := l.foldr insert ∅

@[simp] theorem mem_toList {x : α} {s : OrderedSet α} : x ∈ s.toList ↔ x ∈ s := Iff.rfl

@[simp] theorem not_mem_empty (x : α) : x ∉ (∅ : OrderedSet α) := List.not_mem_nil

theorem isEmpty_iff {s : OrderedSet α} : s.isEmpty = true ↔ s = ∅ := by
  constructor
  · intro h
    obtain ⟨l, hl⟩ := s
    obtain rfl : l = [] := List.isEmpty_iff.1 h
    rfl
  · rintro rfl
    rfl

@[simp] theorem mem_insert [Std.TransOrd α] [Std.LawfulEqOrd α] {x y : α} {s : OrderedSet α} :
    x ∈ s.insert y ↔ x = y ∨ x ∈ s := mem_insertBy y x s.toList

@[simp] theorem mem_ofList [Std.TransOrd α] [Std.LawfulEqOrd α] {x : α} {l : List α} : x ∈ ofList l ↔ x ∈ l := by
  induction l with
  | nil => simp [ofList]
  | cons y r ih => simpa [ofList] using or_congr_right ih

theorem ext [Std.TransOrd α] {s t : OrderedSet α} (h : ∀ x, x ∈ s ↔ x ∈ t) : s = t := by
  obtain ⟨l, hl⟩ := s
  obtain ⟨m, hm⟩ := t
  obtain rfl : l = m := Ascending.eq_of_mem_iff hl hm h
  rfl

end OrderedSet

end CpuMonitor
