import CpuMonitor.Ordered.Map

/-!
# Merging ordered maps

* `OrderedMap.absorb step m n` : the map `m` after each entry of `n` has been worked into it by `step`.
* `get?_absorb` : what it holds: `step` of the old value and the new one where `n` has a key, and else the old value.
-/

set_option autoImplicit false

namespace CpuMonitor.OrderedMap
variable {κ α β : Type} [Ord κ]

/-- Merges two lists with ascending keys. -/
def mergeLists (step : Option α → β → α) : List (κ × α) → List (κ × β) → List (κ × α)
  | [], n => n.map fun e => (e.1, step none e.2)
  | m, [] => m
  | (k, a) :: m, (k', x) :: n =>
    match compare k k' with
    | .lt => (k, a) :: mergeLists step m ((k', x) :: n)
    | .eq => (k, step (some a) x) :: mergeLists step m n
    | .gt => (k', step none x) :: mergeLists step ((k, a) :: m) n
termination_by m n => m.length + n.length

theorem mem_keys_mergeLists (step : Option α → β → α) (m : List (κ × α)) (n : List (κ × β)) (e : κ × α)
    (h : e ∈ mergeLists step m n) : e.1 ∈ m.map Prod.fst ∨ e.1 ∈ n.map Prod.fst := by
  fun_induction mergeLists step m n with
  | case1 n =>
    obtain ⟨d, hd, rfl⟩ := List.mem_map.1 h
    exact .inr (List.mem_map.2 ⟨d, hd, rfl⟩)
  | case2 m => exact .inl (List.mem_map.2 ⟨e, h, rfl⟩)
  | case3 k a m k' x n hc ih => grind
  | case4 k a m k' x n hc ih => grind
  | case5 k a m k' x n hc ih => grind

theorem ascending_mergeLists [Std.TransOrd κ] (step : Option α → β → α) (m : List (κ × α)) (n : List (κ × β))
    (hm : Ascending Prod.fst m) (hn : Ascending Prod.fst n) : Ascending Prod.fst (mergeLists step m n) := by
  fun_induction mergeLists step m n with
  | case1 n => simpa only [Ascending, List.pairwise_map] using hn
  | case2 m => exact hm
  | case3 k a m k' x n hc ih =>
    obtain ⟨hk, hm'⟩ := List.pairwise_cons.1 hm
    obtain ⟨hk', _⟩ := List.pairwise_cons.1 hn
    refine List.pairwise_cons.2 ⟨fun e he => ?_, ih hm' hn⟩
    rcases mem_keys_mergeLists step _ _ e he with h | h
    · obtain ⟨d, hd, hde⟩ := List.mem_map.1 h
      exact hde ▸ hk d hd
    · obtain ⟨d, hd, hde⟩ := List.mem_map.1 h
      rcases List.mem_cons.1 hd with rfl | hd
      · exact hde ▸ hc
      · exact hde ▸ Std.TransCmp.lt_trans hc (hk' d hd)
  | case4 k a m k' x n hc ih =>
    obtain ⟨hk, hm'⟩ := List.pairwise_cons.1 hm
    obtain ⟨hk', hn'⟩ := List.pairwise_cons.1 hn
    refine List.pairwise_cons.2 ⟨fun e he => ?_, ih hm' hn'⟩
    rcases mem_keys_mergeLists step _ _ e he with h | h
    · obtain ⟨d, hd, hde⟩ := List.mem_map.1 h
      exact hde ▸ hk d hd
    · obtain ⟨d, hd, hde⟩ := List.mem_map.1 h
      rw [← hde, Std.TransCmp.congr_left hc]
      exact hk' d hd
  | case5 k a m k' x n hc ih =>
    obtain ⟨hk, _⟩ := List.pairwise_cons.1 hm
    obtain ⟨hk', hn'⟩ := List.pairwise_cons.1 hn
    have hlt : compare k' k = .lt := Std.OrientedCmp.gt_iff_lt.1 hc
    refine List.pairwise_cons.2 ⟨fun e he => ?_, ih hm hn'⟩
    rcases mem_keys_mergeLists step _ _ e he with h | h
    · obtain ⟨d, hd, hde⟩ := List.mem_map.1 h
      rcases List.mem_cons.1 hd with rfl | hd
      · exact hde ▸ hlt
      · exact hde ▸ Std.TransCmp.lt_trans hlt (hk d hd)
    · obtain ⟨d, hd, hde⟩ := List.mem_map.1 h
      exact hde ▸ hk' d hd

/-- The value of a key after a step, if there is something to work in. -/
def absorbed (step : Option α → β → α) (old : Option α) : Option β → Option α
  | none => old
  | some x => some (step old x)

theorem lookup_mergeLists [Std.TransOrd κ] (step : Option α → β → α) (q : κ) (m : List (κ × α)) (n : List (κ × β)) :
    lookup q (mergeLists step m n) = absorbed step (lookup q m) (lookup q n) := by
  fun_induction mergeLists step m n with
  | case1 n =>
    induction n with
    | nil => rfl
    | cons e r ih =>
      simp only [List.map_cons, lookup]
      split
      · rfl
      · rfl
      · simpa [lookup] using ih
  | case2 m => simp [lookup, absorbed]
  | case3 k a m k' x n hc ih =>
    simp only [lookup] at ih ⊢
    split <;> rename_i hq
    · rw [Std.TransCmp.lt_trans hq hc]; rfl
    · rw [Std.TransCmp.congr_left hq, hc]; rfl
    · exact ih
  | case4 k a m k' x n hc ih =>
    simp only [lookup, Std.TransCmp.congr_right hc]
    split
    · rfl
    · rfl
    · exact ih
  | case5 k a m k' x n hc ih =>
    have hlt : compare k' k = .lt := Std.OrientedCmp.gt_iff_lt.1 hc
    simp only [lookup] at ih ⊢
    split <;> rename_i hq
    · rw [Std.TransCmp.lt_trans hq hlt]; rfl
    · rw [Std.TransCmp.congr_left hq, hlt]; rfl
    · exact ih

/-- The map `m` with the value `step old x` for each entry `x` of `n`, where `old` is the value of `m` if it has one. -/
def absorb [Std.TransOrd κ] (step : Option α → β → α) (m : OrderedMap κ α) (n : OrderedMap κ β) : OrderedMap κ α :=
  ⟨mergeLists step m.toList n.toList, ascending_mergeLists step m.toList n.toList m.ascending n.ascending⟩

theorem get?_absorb [Std.TransOrd κ] (step : Option α → β → α) (m : OrderedMap κ α) (n : OrderedMap κ β) (k : κ) :
    (absorb step m n).get? k = absorbed step (m.get? k) (n.get? k) :=
  lookup_mergeLists step k m.toList n.toList

end CpuMonitor.OrderedMap
