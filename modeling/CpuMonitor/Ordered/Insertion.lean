/-!
# Insertion by key

Lists whose entries have strictly ascending keys, the common ground of `OrderedSet` and `OrderedMap`.

* `eq_of_compareOn` : equal in an order by key is equal of key.
* `Ascending key l` : the keys of `l` ascend strictly.
* `insertBy key x l` : `l` with `x` at its place, in the place of an entry with the same key.
* `Ascending.insertBy`, `mem_insertBy`, `insertBy_perm` : insertion keeps the order, and adds `x` only.
* `Ascending.eq_of_mem_iff` : an ascending list is determined by its elements.
* `countP_eq_of_getElem?` : the place of an element in an ascending list is the number of those before it in order.
-/

set_option autoImplicit false

namespace CpuMonitor
variable {α κ : Type} [Ord κ]

theorem eq_of_compareOn [Std.LawfulEqOrd κ] {key : α → κ} {a b : α} (h : compareOn key a b = .eq) : key a = key b :=
  Std.LawfulEqCmp.eq_of_compare h

def Ascending (key : α → κ) (l : List α) : Prop := l.Pairwise fun a b => compare (key a) (key b) = .lt

def insertBy (key : α → κ) (x : α) : List α → List α
  | [] => [x]
  | y :: r =>
    match compare (key x) (key y) with
    | .lt => x :: y :: r
    | .eq => x :: r
    | .gt => y :: insertBy key x r

theorem eq_or_mem_of_mem_insertBy (key : α → κ) (x z : α) :
    ∀ l : List α, z ∈ insertBy key x l → z = x ∨ z ∈ l
  | [], h => by simpa [insertBy] using h
  | y :: r, h => by
    unfold insertBy at h
    split at h
    · simpa using h
    · simp only [List.mem_cons] at h ⊢
      grind
    · simp only [List.mem_cons] at h ⊢
      rcases h with h | h
      · exact .inr (.inl h)
      · rcases eq_or_mem_of_mem_insertBy key x z r h with h | h
        · exact .inl h
        · exact .inr (.inr h)

theorem Ascending.insertBy [Std.TransOrd κ] (key : α → κ) (x : α) :
    ∀ {l : List α}, Ascending key l → Ascending key (insertBy key x l)
  | [], _ => List.pairwise_singleton _ _
  | y :: r, h => by
    obtain ⟨hy, hr⟩ := List.pairwise_cons.1 h
    unfold CpuMonitor.insertBy
    split
    · next hc =>
      refine List.pairwise_cons.2 ⟨fun z hz => ?_, h⟩
      rcases List.mem_cons.1 hz with rfl | hz
      · exact hc
      · exact Std.TransCmp.lt_trans hc (hy z hz)
    · next hc =>
      refine List.pairwise_cons.2 ⟨fun z hz => ?_, hr⟩
      rw [Std.TransCmp.congr_left hc]
      exact hy z hz
    · next hc =>
      refine List.pairwise_cons.2 ⟨fun z hz => ?_, Ascending.insertBy key x hr⟩
      rcases eq_or_mem_of_mem_insertBy key x z r hz with rfl | hz
      · exact Std.OrientedCmp.gt_iff_lt.1 hc
      · exact hy z hz

/-- With keys that tell entries apart, insertion adds `x` and nothing else. -/
theorem mem_insertBy [Std.TransOrd κ] [Std.LawfulEqOrd κ] (x z : κ) :
    ∀ l : List κ, z ∈ insertBy id x l ↔ z = x ∨ z ∈ l
  | [] => by simp [insertBy]
  | y :: r => by
    unfold insertBy
    split
    · simp
    · next hc =>
      obtain rfl : x = y := Std.LawfulEqCmp.eq_of_compare hc
      simp
    · simp only [List.mem_cons, mem_insertBy x z r]
      grind

/-- Without an entry of its key, `x` is one entry more. -/
theorem insertBy_perm {key : α → κ} {x : α} :
    ∀ {l : List α}, (∀ y ∈ l, compare (key x) (key y) ≠ .eq) → (insertBy key x l).Perm (x :: l)
  | [], _ => List.Perm.refl _
  | y :: r, h => by
    obtain ⟨hy, hr⟩ := List.forall_mem_cons.1 h
    unfold insertBy
    split
    · exact List.Perm.refl _
    · next heq => exact absurd heq hy
    · exact ((insertBy_perm hr).cons y).trans (List.Perm.swap x y r)

theorem compare_self_ne_lt [Std.TransOrd κ] (x : κ) : compare x x ≠ .lt := by simp

theorem false_of_lt_of_lt [Std.TransOrd κ] {x y : κ} (h : compare x y = .lt) (h' : compare y x = .lt) : False :=
  compare_self_ne_lt x (Std.TransCmp.lt_trans h h')

theorem Ascending.eq_of_mem_iff [Std.TransOrd κ] :
    ∀ {l m : List κ}, Ascending id l → Ascending id m → (∀ x, x ∈ l ↔ x ∈ m) → l = m
  | [], [], _, _, _ => rfl
  | [], y :: _, _, _, h => absurd ((h y).2 List.mem_cons_self) List.not_mem_nil
  | x :: _, [], _, _, h => absurd ((h x).1 List.mem_cons_self) List.not_mem_nil
  | x :: l, y :: m, hl, hm, h => by
    obtain ⟨hx, hl'⟩ := List.pairwise_cons.1 hl
    obtain ⟨hy, hm'⟩ := List.pairwise_cons.1 hm
    have hxy : x = y := by
      rcases List.mem_cons.1 ((h x).1 List.mem_cons_self) with hxy | hxm
      · exact hxy
      · rcases List.mem_cons.1 ((h y).2 List.mem_cons_self) with hyx | hyl
        · exact hyx.symm
        · exact (false_of_lt_of_lt (hx y hyl) (hy x hxm)).elim
    subst hxy
    have tails : l = m := Ascending.eq_of_mem_iff hl' hm' fun z => by
      have hz := h z
      simp only [List.mem_cons] at hz
      constructor
      · intro hzl
        rcases hz.1 (.inr hzl) with rfl | hzm
        · exact absurd (hx z hzl) (compare_self_ne_lt z)
        · exact hzm
      · intro hzm
        rcases hz.2 (.inr hzm) with rfl | hzl
        · exact absurd (hy z hzm) (compare_self_ne_lt z)
        · exact hzl
    rw [tails]

/-- In a list that ascends by a relation, as many elements are below one as stand in front of it. -/
theorem countP_eq_of_getElem? {r : α → α → Prop} [DecidableRel r] (asymm : ∀ {a b}, r a b → ¬ r b a) {x : α} :
    ∀ {l : List α}, l.Pairwise r → ∀ {n : Nat}, l[n]? = some x → l.countP (fun y => decide (r y x)) = n
  | y :: l, h, 0, hx => by
    obtain ⟨hy, -⟩ := List.pairwise_cons.1 h
    obtain rfl : y = x := Option.some.inj hx
    rw [List.countP_eq_zero]
    intro z hz
    rcases List.mem_cons.1 hz with rfl | hz
    · simpa using fun hr => asymm hr hr
    · simpa using asymm (hy z hz)
  | y :: l, h, n + 1, hx => by
    obtain ⟨hy, hl⟩ := List.pairwise_cons.1 h
    rw [List.getElem?_cons_succ] at hx
    rw [List.countP_cons_of_pos (by simpa using hy x (List.mem_of_getElem? hx)), countP_eq_of_getElem? asymm hl hx]

end CpuMonitor
