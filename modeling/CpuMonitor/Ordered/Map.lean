import CpuMonitor.Ordered.Set

/-!
# Ordered maps

`OrderedMap κ β` : a finite map, held as the list of its entries in ascending order of keys, so that two maps with the
same entries are equal and iteration has one order.

* `get?_insert`, `get?_ofList_cons`, `get?_map`, `get?_ofSet` : what a map holds.
* `mem_toList`, `get?_ofList_eq` : look-ups as entries of a list.
* `toList_ofList_perm` : a list with distinct keys is the entries of its map, in some order.
* `keys_map`, `keys_ofSet` : which keys it has.
* `map_id`, `map_map`, `map_ofSet` : the map of a map.
* `OrderedMap.ext_get?` : a map is determined by its look-ups.
-/

set_option autoImplicit false

namespace CpuMonitor

structure OrderedMap (κ β : Type) [Ord κ] where
  toList : List (κ × β)
  ascending : Ascending Prod.fst toList

namespace OrderedMap
variable {κ β γ : Type} [Ord κ]

instance : EmptyCollection (OrderedMap κ β) := ⟨⟨[], List.Pairwise.nil⟩⟩

instance : Inhabited (OrderedMap κ β) := ⟨∅⟩

instance [DecidableEq κ] [DecidableEq β] : DecidableEq (OrderedMap κ β) := fun a b =>
  decidable_of_iff (a.toList = b.toList)
    ⟨fun h => by cases a; cases b; cases h; rfl, fun h => h ▸ rfl⟩

def keys (m : OrderedMap κ β) : List κ := m.toList.map Prod.fst

def size (m : OrderedMap κ β) : Nat := m.toList.length

def isEmpty (m : OrderedMap κ β) : Bool := m.toList.isEmpty

/-- The value beside the key `k` in a list with ascending keys. -/
def lookup (k : κ) : List (κ × β) → Option β
  | [] => none
  | (k', v) :: r =>
    match compare k k' with
    | .lt => none
    | .eq => some v
    | .gt => lookup k r

def get? (m : OrderedMap κ β) (k : κ) : Option β := lookup k m.toList

def contains (m : OrderedMap κ β) (k : κ) : Bool := (m.get? k).isSome

/-- The map with the value `v` at `k`, in the place of any other. -/
def insert [Std.TransOrd κ] (m : OrderedMap κ β) (k : κ) (v : β) : OrderedMap κ β :=
  ⟨insertBy Prod.fst (k, v) m.toList, m.ascending.insertBy Prod.fst (k, v)⟩

/-- The map of a list of entries; of two entries with one key the later one counts. -/
def ofList [Std.TransOrd κ] (l : List (κ × β)) : OrderedMap κ β :=
  l.foldr (fun e m => if m.contains e.1 then m else m.insert e.1 e.2) ∅

/-- The map that `f` makes of the elements of a set. -/
def ofSet (s : OrderedSet κ) (f : κ → β) : OrderedMap κ β :=
  ⟨s.toList.map fun k => (k, f k), List.pairwise_map.2 s.ascending⟩

/-- The map with the same keys, and `f k v` in the place of the value `v` at `k`. -/
def map (f : κ → β → γ) (m : OrderedMap κ β) : OrderedMap κ γ :=
  ⟨m.toList.map fun e => (e.1, f e.1 e.2), by simpa only [Ascending, List.pairwise_map] using m.ascending⟩

/-! ## Keys -/

@[simp] theorem keys_map (f : κ → β → γ) (m : OrderedMap κ β) : (m.map f).keys = m.keys := by
  simp [keys, map, Function.comp_def]

@[simp] theorem keys_ofSet (s : OrderedSet κ) (f : κ → β) : (ofSet s f).keys = s.toList := by
  simp [keys, ofSet, Function.comp_def]

/-! ## Maps of maps -/

theorem map_id (m : OrderedMap κ β) : m.map (fun _ v => v) = m := by
  simp [map]

theorem map_map {δ : Type} (g : κ → γ → δ) (f : κ → β → γ) (m : OrderedMap κ β) :
    (m.map f).map g = m.map fun k v => g k (f k v) := by
  simp [map]

theorem map_congr {f g : κ → β → γ} (h : ∀ k v, f k v = g k v) {m : OrderedMap κ β} : m.map f = m.map g := by
  simp only [map, h]

theorem map_ofSet (g : κ → β → γ) (s : OrderedSet κ) (f : κ → β) :
    (ofSet s f).map g = ofSet s fun k => g k (f k) := by
  simp [map, ofSet, Function.comp_def]

theorem ofSet_congr {s : OrderedSet κ} {f g : κ → β} (h : ∀ k ∈ s, f k = g k) : ofSet s f = ofSet s g := by
  unfold ofSet
  congr 1
  exact List.map_congr_left fun k hk => by rw [h k hk]

/-! ## Look-ups -/

theorem lookup_eq_none_of_lt [Std.TransOrd κ] {k k' : κ} {v : β} {r : List (κ × β)} (h : compare k k' = .lt) :
    lookup k ((k', v) :: r) = none := by
  simp [lookup, h]

theorem lookup_insertBy [Std.TransOrd κ] (k k' : κ) (v : β) :
    ∀ {l : List (κ × β)}, Ascending Prod.fst l →
      lookup k' (insertBy Prod.fst (k, v) l) = if compare k' k = .eq then some v else lookup k' l
  | [], _ => by
    simp only [insertBy, lookup]
    split <;> simp_all
  | (y, w) :: r, hl => by
    obtain ⟨_, hr⟩ := List.pairwise_cons.1 hl
    unfold insertBy
    split
    · next hc =>
      rw [lookup]
      split <;> rename_i hk
      · rw [lookup_eq_none_of_lt (Std.TransCmp.lt_trans hk hc), if_neg (by simp [hk])]
      · rw [if_pos hk]
      · rw [if_neg (by simp [hk])]
    · next hc =>
      simp only [lookup, Std.TransCmp.congr_right hc]
      split <;> simp_all
    · next hc =>
      simp only [lookup, lookup_insertBy k k' v hr]
      split <;> rename_i hk
      · rw [if_neg fun h => by rw [Std.TransCmp.congr_left h, hc] at hk; cases hk]
      · rw [if_neg fun h => by rw [Std.TransCmp.congr_left h, hc] at hk; cases hk]
      · rfl

theorem get?_insert [Std.TransOrd κ] (m : OrderedMap κ β) (k k' : κ) (v : β) :
    (m.insert k v).get? k' = if compare k' k = .eq then some v else m.get? k' :=
  lookup_insertBy k k' v m.ascending

@[simp] theorem get?_empty (k : κ) : (∅ : OrderedMap κ β).get? k = none := rfl

theorem get?_ofList_cons [Std.TransOrd κ] [Std.LawfulEqOrd κ] (k q : κ) (v : β) (l : List (κ × β)) :
    (ofList ((k, v) :: l)).get? q = ((ofList l).get? q).or (if compare q k = .eq then some v else none) := by
  show (if (ofList l).contains k then ofList l else (ofList l).insert k v).get? q = _
  by_cases hq : compare q k = .eq
  · obtain rfl : q = k := Std.LawfulEqCmp.eq_of_compare hq
    cases h : (ofList l).get? q <;> simp [contains, h, get?_insert]
  · rw [if_neg hq, Option.or_none]
    split
    · rfl
    · rw [get?_insert, if_neg hq]

theorem get?_map [Std.LawfulEqOrd κ] (f : κ → β → γ) (m : OrderedMap κ β) (k : κ) :
    (m.map f).get? k = (m.get? k).map (f k) := by
  obtain ⟨l, _⟩ := m
  simp only [get?, map]
  induction l with
  | nil => rfl
  | cons e r ih =>
    simp only [List.map_cons, lookup]
    split
    · rfl
    · next h =>
      obtain rfl : k = e.1 := Std.LawfulEqCmp.eq_of_compare h
      rfl
    · exact ih (List.pairwise_cons.1 ‹_›).2

theorem get?_ofSet [Std.TransOrd κ] [Std.LawfulEqOrd κ] [DecidableEq κ] (s : OrderedSet κ) (f : κ → β) (k : κ) :
    (ofSet s f).get? k = if k ∈ s then some (f k) else none := by
  obtain ⟨l, hl⟩ := s
  show lookup k (l.map fun x => (x, f x)) = if k ∈ l then some (f k) else none
  induction l with
  | nil => rfl
  | cons x r ih =>
    obtain ⟨hx, hr⟩ := List.pairwise_cons.1 hl
    simp only [List.map_cons, lookup, List.mem_cons]
    split <;> rename_i hk
    · rw [if_neg]
      rintro (rfl | hkr)
      · exact compare_self_ne_lt k hk
      · exact false_of_lt_of_lt hk (hx k hkr)
    · obtain rfl : k = x := Std.LawfulEqCmp.eq_of_compare hk
      rw [if_pos (.inl rfl)]
    · have hne : k ≠ x := by rintro rfl; simp at hk
      rw [ih hr]
      simp [hne]

/-! ## Entries -/

/-- In front of all keys nothing is found. -/
theorem lookup_eq_none_of_forall_lt {k : κ} :
    ∀ {l : List (κ × β)}, (∀ e ∈ l, compare k e.1 = .lt) → lookup k l = none
  | [], _ => rfl
  | e :: _, h => by rw [lookup, h e List.mem_cons_self]

theorem mem_iff_lookup [Std.TransOrd κ] [Std.LawfulEqOrd κ] (k : κ) (v : β) :
    ∀ {l : List (κ × β)}, Ascending Prod.fst l → ((k, v) ∈ l ↔ lookup k l = some v)
  | [], _ => by simp [lookup]
  | (y, w) :: r, hl => by
    obtain ⟨hy, hr⟩ := List.pairwise_cons.1 hl
    have ih := mem_iff_lookup k v hr
    have hle : (k, v) ∈ r → compare y k = .lt := fun hm => hy (k, v) hm
    rw [List.mem_cons, lookup]
    split <;> rename_i hk
    · -- the key would stand further in front
      constructor
      · rintro (he | hm)
        · rw [(Prod.mk.inj he).1] at hk
          exact (compare_self_ne_lt y hk).elim
        · exact (false_of_lt_of_lt hk (hle hm)).elim
      · intro h
        cases h
    · obtain rfl : k = y := Std.LawfulEqCmp.eq_of_compare hk
      constructor
      · rintro (he | hm)
        · rw [(Prod.mk.inj he).2]
        · exact (compare_self_ne_lt k (hle hm)).elim
      · intro h
        rw [Option.some.inj h]
        exact .inl rfl
    · rw [← ih]
      constructor
      · rintro (he | hm)
        · rw [(Prod.mk.inj he).1] at hk
          simp at hk
        · exact hm
      · exact .inr

/-- The entries of a map are what its look-ups find. -/
theorem mem_toList [Std.TransOrd κ] [Std.LawfulEqOrd κ] {m : OrderedMap κ β} {k : κ} {v : β} :
    (k, v) ∈ m.toList ↔ m.get? k = some v := mem_iff_lookup k v m.ascending

/-- What is found in the map of a list is in the list. -/
theorem mem_of_get?_ofList [Std.TransOrd κ] [Std.LawfulEqOrd κ] {q : κ} {v : β} :
    ∀ {l : List (κ × β)}, (ofList l).get? q = some v → (q, v) ∈ l
  | [], h => by cases h
  | (k, w) :: l, h => by
    rw [get?_ofList_cons, Option.or_eq_some_iff] at h
    rcases h with h | ⟨-, h⟩
    · exact List.mem_cons_of_mem _ (mem_of_get?_ofList h)
    · split at h
      · next hq =>
        obtain rfl : q = k := Std.LawfulEqCmp.eq_of_compare hq
        rw [Option.some.inj h]
        exact List.mem_cons_self
      · cases h

/-- A key of the list is a key of its map. -/
theorem get?_ofList_ne_none [Std.TransOrd κ] [Std.LawfulEqOrd κ] {q : κ} {v : β} :
    ∀ {l : List (κ × β)}, (q, v) ∈ l → (ofList l).get? q ≠ none
  | (k, w) :: l, h => by
    rw [get?_ofList_cons, ne_eq, Option.or_eq_none_iff]
    rintro ⟨hl, hk⟩
    rcases List.mem_cons.1 h with he | hm
    · rw [(Prod.mk.inj he).1, if_pos Std.ReflCmp.compare_self] at hk
      cases hk
    · exact get?_ofList_ne_none hm hl

/-- A list that tells at most one value of a key has this value in its map. -/
theorem get?_ofList_eq [Std.TransOrd κ] [Std.LawfulEqOrd κ] {q : κ} {o : Option β} {l : List (κ × β)}
    (h : ∀ v, (q, v) ∈ l ↔ o = some v) : (ofList l).get? q = o := by
  cases hg : (ofList l).get? q with
  | some v => exact ((h v).1 (mem_of_get?_ofList hg)).symm
  | none =>
    cases ho : o with
    | none => rfl
    | some v => exact absurd hg (get?_ofList_ne_none ((h v).2 ho))

/-! ## Distinct keys -/

theorem nodup_keys [Std.TransOrd κ] (m : OrderedMap κ β) : (m.toList.map Prod.fst).Nodup := by
  refine List.pairwise_map.2 (m.ascending.imp fun {a b} h heq => ?_)
  rw [heq] at h
  exact compare_self_ne_lt b.1 h

/-- The map of a list with distinct keys has the entries of the list. -/
theorem toList_ofList_perm [Std.TransOrd κ] [Std.LawfulEqOrd κ] :
    ∀ {l : List (κ × β)}, (l.map Prod.fst).Nodup → (ofList l).toList.Perm l
  | [], _ => List.Perm.refl _
  | e :: l, h => by
    obtain ⟨he, hl⟩ := List.nodup_cons.1 h
    have ih := toList_ofList_perm hl
    have hnew : (ofList l).contains e.1 = false := by
      rw [contains, Option.isSome_eq_false_iff, Option.isNone_iff_eq_none, Option.eq_none_iff_forall_ne_some]
      intro v hv
      exact he (List.mem_map.2 ⟨(e.1, v), mem_of_get?_ofList hv, rfl⟩)
    have hdistinct : ∀ y ∈ (ofList l).toList, compare e.1 y.1 ≠ .eq := by
      intro y hy heq
      rw [Std.LawfulEqCmp.eq_of_compare heq] at he
      exact he (List.mem_map_of_mem (ih.mem_iff.1 hy))
    show (if (ofList l).contains e.1 then ofList l else (ofList l).insert e.1 e.2).toList.Perm (e :: l)
    rw [hnew, if_neg Bool.false_ne_true]
    exact (insertBy_perm hdistinct).trans (ih.cons e)

/-! ## Extensionality -/

theorem eq_of_lookup_eq [Std.TransOrd κ] [Std.LawfulEqOrd κ] :
    ∀ {l m : List (κ × β)}, Ascending Prod.fst l → Ascending Prod.fst m → (∀ k, lookup k l = lookup k m) → l = m
  | [], [], _, _, _ => rfl
  | [], (y, w) :: _, _, _, h => by simpa [lookup] using h y
  | (x, v) :: _, [], _, _, h => by simpa [lookup] using h x
  | (x, v) :: l, (y, w) :: m, hl, hm, h => by
    obtain ⟨hx, hl'⟩ := List.pairwise_cons.1 hl
    obtain ⟨hy, hm'⟩ := List.pairwise_cons.1 hm
    have hxy : compare x y = .eq := by
      cases hc : compare x y with
      | lt => simpa [lookup, hc] using h x
      | eq => rfl
      | gt => simpa [lookup, Std.OrientedCmp.gt_iff_lt.1 hc] using h y
    obtain rfl : x = y := Std.LawfulEqCmp.eq_of_compare hxy
    obtain rfl : v = w := by simpa [lookup] using h x
    have tails : l = m := eq_of_lookup_eq hl' hm' fun k => by
      have hk := h k
      simp only [lookup] at hk
      split at hk <;> rename_i hc
      · rw [lookup_eq_none_of_forall_lt fun e he => Std.TransCmp.lt_trans hc (hx e he),
          lookup_eq_none_of_forall_lt fun e he => Std.TransCmp.lt_trans hc (hy e he)]
      · obtain rfl : k = x := Std.LawfulEqCmp.eq_of_compare hc
        rw [lookup_eq_none_of_forall_lt hx, lookup_eq_none_of_forall_lt hy]
      · exact hk
    rw [tails]

theorem ext_get? [Std.TransOrd κ] [Std.LawfulEqOrd κ] {m n : OrderedMap κ β} (h : ∀ k, m.get? k = n.get? k) :
    m = n := by
  obtain ⟨l, hl⟩ := m
  obtain ⟨l', hl'⟩ := n
  obtain rfl : l = l' := eq_of_lookup_eq hl hl' h
  rfl

end OrderedMap

end CpuMonitor
