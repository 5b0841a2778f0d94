import CpuMonitor.Ordered.Map
import Mathlib.Data.List.Destutter
import Mathlib.Order.Defs.Unbundled

/-!
# Arrangement by an order

* `OrderedBy r` : a type is ordered by the strict total order `r`, and elements that compare as equal are equal.
* `sortDistinct` : a list in order, without its repetitions; it ascends, and is the list of the set of its elements.
* `OrderedMap.insertAll` : entries put into a map one after the other.
* `OrderedMap.insertAll_eq_ofList`, `OrderedMap.ofList_eq_of_perm` : they give the map of their list, and with distinct keys
  the order of the entries makes no difference.
* `OrderedMap.keys_ofList` : the keys of a map are those of the entries, in order.
-/

set_option autoImplicit false

namespace CpuMonitor

section Order
variable {α : Type} [Ord α]

/-- Comparison decides a strict total order, and equality where neither element precedes. -/
structure OrderedBy (r : α → α → Prop) : Prop where
  strictTotal : IsStrictTotalOrder α r
  lt_iff (a b : α) : compare a b = .lt ↔ r a b
  eq_iff (a b : α) : compare a b = .eq ↔ a = b
  gt_iff (a b : α) : compare a b = .gt ↔ r b a

theorem OrderedBy.of_lt_iff [Std.TransOrd α] [Std.LawfulEqOrd α] {r : α → α → Prop}
    (h : ∀ a b, compare a b = .lt ↔ r a b) : OrderedBy r where
  strictTotal :=
    { trichotomous := fun a b hab hba => by
        rw [← h] at hab hba
        cases hc : compare a b with
        | lt => exact absurd hc hab
        | eq => exact Std.LawfulEqCmp.eq_of_compare hc
        | gt => exact absurd (Std.OrientedCmp.gt_iff_lt.1 hc) hba
      irrefl := fun a ha => compare_self_ne_lt a ((h a a).2 ha)
      trans := fun a b c hab hbc => (h a c).1 (Std.TransCmp.lt_trans ((h a b).2 hab) ((h b c).2 hbc)) }
  lt_iff := h
  eq_iff _ _ := Std.LawfulEqCmp.compare_eq_iff_eq
  gt_iff a b := Std.OrientedCmp.gt_iff_lt.trans (h b a)

/-! ## Sorted lists -/

def sorted (l : List α) : List α := l.mergeSort fun a b => (compare a b).isLE

/-- The list in order, without repetitions. -/
def sortDistinct [DecidableEq α] (l : List α) : List α := (sorted l).destutter (· ≠ ·)

theorem isLE_total [Std.TransOrd α] (a b : α) : ((compare a b).isLE || (compare b a).isLE) = true := by
  have hswap : compare b a = (compare a b).swap := Std.OrientedCmp.eq_swap
  rw [hswap]
  cases compare a b <;> rfl

theorem pairwise_sorted [Std.TransOrd α] (l : List α) : (sorted l).Pairwise fun a b => (compare a b).isLE = true :=
  List.pairwise_mergeSort (fun _ _ _ => Std.TransCmp.isLE_trans) isLE_total l

section Distinct
variable [Std.TransOrd α] [Std.LawfulEqOrd α] [DecidableEq α] (l : List α)

/-- In order, equal elements stand side by side. -/
theorem sortDistinct_eq_dedup : sortDistinct l = (sorted l).dedup :=
  have : Std.Antisymm fun a b : α => (compare a b).isLE = true :=
    ⟨fun _ _ h h' => Std.LawfulEqCmp.eq_of_compare (Std.OrientedCmp.isLE_antisymm h h')⟩
  (pairwise_sorted l).destutter_eq_dedup

theorem mem_sortDistinct {x : α} : x ∈ sortDistinct l ↔ x ∈ l := by
  rw [sortDistinct_eq_dedup, List.mem_dedup]
  exact (List.mergeSort_perm l _).mem_iff

theorem ascending_sortDistinct : Ascending id (sortDistinct l) := by
  have hle : (sortDistinct l).Pairwise fun a b => (compare a b).isLE = true :=
    (pairwise_sorted l).sublist (List.destutter_sublist _ _)
  have hne : (sortDistinct l).Nodup := by
    rw [sortDistinct_eq_dedup]
    exact List.nodup_dedup _
  refine (hle.and hne).imp fun {a b} h => ?_
  obtain ⟨hle, hne⟩ := h
  exact (Ordering.isLE_iff_eq_lt_or_eq_eq.1 hle).resolve_right fun heq => hne (Std.LawfulEqCmp.eq_of_compare heq)

theorem sortDistinct_eq_toList : sortDistinct l = (OrderedSet.ofList l).toList :=
  Ascending.eq_of_mem_iff (ascending_sortDistinct l) (OrderedSet.ofList l).ascending fun x => by
    rw [mem_sortDistinct, OrderedSet.mem_toList, OrderedSet.mem_ofList]

end Distinct

end Order

/-! ## Entries in any order -/

namespace OrderedMap
variable {κ β : Type} [Ord κ] [Std.TransOrd κ]

def insertAll (m : OrderedMap κ β) (entries : List (κ × β)) : OrderedMap κ β :=
  entries.foldl (fun m e => m.insert e.1 e.2) m

variable [Std.LawfulEqOrd κ]

/-- The last entry of a key counts, and without one the value from before. -/
theorem get?_insertAll (entries : List (κ × β)) (m : OrderedMap κ β) (k : κ) :
    (m.insertAll entries).get? k = ((ofList entries).get? k).or (m.get? k) := by
  induction entries generalizing m with
  | nil => rfl
  | cons e entries ih =>
    show ((m.insert e.1 e.2).insertAll entries).get? k = _
    rw [ih, get?_insert, get?_ofList_cons, Option.or_assoc]
    congr 1
    split <;> rfl

theorem insertAll_eq_ofList (entries : List (κ × β)) : insertAll ∅ entries = ofList entries :=
  ext_get? fun k => by rw [get?_insertAll, get?_empty, Option.or_none]

section Distinct
variable {entries entries' : List (κ × β)} (h : (entries.map Prod.fst).Nodup)
include h

/-- Entries with distinct keys give one map in any order. -/
theorem ofList_eq_of_perm (hperm : entries'.Perm entries) : ofList entries' = ofList entries := by
  have h' : (entries'.map Prod.fst).Nodup := (hperm.map Prod.fst).nodup_iff.2 h
  refine ext_get? fun k => Option.ext fun v => ?_
  rw [← mem_toList, ← mem_toList, (toList_ofList_perm h').mem_iff, (toList_ofList_perm h).mem_iff, hperm.mem_iff]

theorem keys_ofList [DecidableEq κ] : (ofList entries).keys = sortDistinct (entries.map Prod.fst) := by
  refine Ascending.eq_of_mem_iff (List.pairwise_map.2 (ofList entries).ascending) (ascending_sortDistinct _) fun k => ?_
  rw [mem_sortDistinct]
  exact ((toList_ofList_perm h).map Prod.fst).mem_iff

end Distinct

end OrderedMap

end CpuMonitor
