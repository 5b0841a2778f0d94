import CpuMonitor.Proofs.Ordered.Arrangement
import CpuMonitor.Watcher.Report

/-!
# The order of names

What comes first is said by the parts of keys and names here, without the numbers of their sort keys, and comparison is shown
to decide just this.

* `Kind.Precedes`, `Scope.Precedes`, `MetricKey.Precedes`, `MetricName.Precedes` : which one comes first.
* `compare_eq_lt_iff` in each namespace : comparison follows it.
* `text_loadAverage_lt` : texts stand in another order.
* `names_by_structure` : the orders are strict and total, and lists of names and maps by name are arranged by them.
-/

set_option autoImplicit false

namespace CpuMonitor

/-! ## Lists of numbers -/

section Front
variable {x y : Nat} {l m : List Nat}

/-- Numbers are compared from the front. -/
theorem compare_cons_eq_lt_iff : compare (x :: l) (y :: m) = .lt ↔ x < y ∨ x = y ∧ compare l m = .lt := by
  rw [List.compare_cons_cons, Ordering.then_eq_lt, Nat.compare_eq_lt, Nat.compare_eq_eq]

theorem compare_cons_of_lt (h : x < y) : compare (x :: l) (y :: m) = .lt := compare_cons_eq_lt_iff.2 (.inl h)

theorem compare_cons_of_gt (h : y < x) : compare (x :: l) (y :: m) ≠ .lt := by
  rw [ne_eq, compare_cons_eq_lt_iff]
  omega

theorem compare_cons_self : compare (x :: l) (x :: m) = .lt ↔ compare l m = .lt := by
  rw [compare_cons_eq_lt_iff]
  simp

theorem compare_singleton : compare [x] [y] = .lt ↔ x < y := by
  rw [compare_cons_eq_lt_iff]
  simp

end Front

/-! ## Parts -/

def Kind.Precedes (a b : Kind) : Prop := a.ctorIdx < b.ctorIdx

theorem Kind.rank_eq_ctorIdx (k : Kind) : k.rank = k.ctorIdx := by cases k <;> rfl

theorem Kind.rank_lt_iff {a b : Kind} : a.rank < b.rank ↔ a.Precedes b := by
  rw [rank_eq_ctorIdx, rank_eq_ctorIdx]
  rfl

theorem Window.compare_eq_lt_iff {a b : Window} : compare a b = .lt ↔ a.minutes < b.minutes := Nat.compare_eq_lt

namespace Scope

/-- Cores by number, and the total behind all of them. -/
inductive Precedes : Scope → Scope → Prop
  | core {i j : Nat} (h : i < j) : Precedes (.core i) (.core j)
  | total (i : Nat) : Precedes (.core i) .total

theorem precedes_core_iff {i j : Nat} : Precedes (.core i) (.core j) ↔ i < j := by
  constructor
  · intro h
    cases h with
    | core h => exact h
  · exact .core

theorem not_total_precedes (s : Scope) : ¬ Precedes .total s := by
  intro h
  cases h

theorem compare_eq_lt_iff {a b : Scope} : compare a b = .lt ↔ a.Precedes b := by
  show compare a.sortKey b.sortKey = .lt ↔ _
  cases a with
  | core i =>
    cases b with
    | core j => exact (compare_cons_self.trans compare_singleton).trans precedes_core_iff.symm
    | total => exact iff_of_true (compare_cons_of_lt Nat.one_pos) (.total i)
  | total =>
    refine iff_of_false ?_ (not_total_precedes b)
    cases b with
    | core j => exact compare_cons_of_gt Nat.one_pos
    | total => exact compare_self_ne_lt _

end Scope

/-! ## Keys and names -/

namespace MetricKey

/-- Keys by kind, and those of one kind by scope. -/
inductive Precedes : MetricKey → MetricKey → Prop
  | kind {k k' : Kind} {s s' : Scope} (h : k.Precedes k') : Precedes ⟨k, s⟩ ⟨k', s'⟩
  | scope {k : Kind} {s s' : Scope} (h : s.Precedes s') : Precedes ⟨k, s⟩ ⟨k, s'⟩

theorem compare_eq_lt_iff {a b : MetricKey} : compare a b = .lt ↔ a.Precedes b := by
  obtain ⟨k, s⟩ := a
  obtain ⟨k', s'⟩ := b
  show compare (k.rank :: s.sortKey) (k'.rank :: s'.sortKey) = .lt ↔ _
  rw [compare_cons_eq_lt_iff, Kind.rank_lt_iff]
  constructor
  · rintro (hkind | ⟨hrank, hscope⟩)
    · exact .kind hkind
    · obtain rfl := Kind.rank_injective hrank
      exact .scope (Scope.compare_eq_lt_iff.1 hscope)
  · intro h
    cases h with
    | kind hkind => exact .inl hkind
    | scope hscope => exact .inr ⟨rfl, Scope.compare_eq_lt_iff.2 hscope⟩

end MetricKey

namespace MetricName

/-- Utilization by kind, window and scope, and behind it load averages by window. -/
inductive Precedes : MetricName → MetricName → Prop
  | kind {k k' : Kind} {w w' : Window} {s s' : Scope} (h : k.Precedes k') :
    Precedes (.utilization k w s) (.utilization k' w' s')
  | window {k : Kind} {w w' : Window} {s s' : Scope} (h : w.minutes < w'.minutes) :
    Precedes (.utilization k w s) (.utilization k w' s')
  | scope {k : Kind} {w : Window} {s s' : Scope} (h : s.Precedes s') :
    Precedes (.utilization k w s) (.utilization k w s')
  | utilization (k : Kind) (w : Window) (s : Scope) (l : LoadWindow) : Precedes (.utilization k w s) (.loadAverage l)
  | loadAverage {l l' : LoadWindow} (h : l.minutes < l'.minutes) : Precedes (.loadAverage l) (.loadAverage l')

theorem compare_sortKey_utilization {k k' : Kind} {w w' : Window} {s s' : Scope} :
    compare (utilization k w s).sortKey (utilization k' w' s').sortKey = .lt ↔
      k.Precedes k' ∨ k = k' ∧ (w.minutes < w'.minutes ∨ w = w' ∧ s.Precedes s') := by
  have hkind : k.rank = k'.rank ↔ k = k' := ⟨Kind.rank_injective, congrArg _⟩
  have hwindow : w.minutes = w'.minutes ↔ w = w' := ⟨Window.minutes_injective, congrArg _⟩
  have hscope : compare s.sortKey s'.sortKey = .lt ↔ s.Precedes s' := Scope.compare_eq_lt_iff
  show compare (0 :: k.rank :: w.minutes :: s.sortKey) (0 :: k'.rank :: w'.minutes :: s'.sortKey) = .lt ↔ _
  simp only [compare_cons_eq_lt_iff, Kind.rank_lt_iff, hkind, hwindow, hscope, Nat.lt_irrefl, false_or, true_and]

theorem compare_sortKey_loadAverage {l l' : LoadWindow} :
    compare (loadAverage l).sortKey (loadAverage l').sortKey = .lt ↔ l.minutes < l'.minutes :=
  compare_cons_self.trans compare_singleton

theorem compare_eq_lt_iff {a b : MetricName} : compare a b = .lt ↔ a.Precedes b := by
  show compare a.sortKey b.sortKey = .lt ↔ _
  cases a with
  | utilization k w s =>
    cases b with
    | utilization k' w' s' =>
      rw [compare_sortKey_utilization]
      constructor
      · rintro (hkind | ⟨rfl, hwindow | ⟨rfl, hscope⟩⟩)
        · exact .kind hkind
        · exact .window hwindow
        · exact .scope hscope
      · intro h
        cases h with
        | kind hkind => exact .inl hkind
        | window hwindow => exact .inr ⟨rfl, .inl hwindow⟩
        | scope hscope => exact .inr ⟨rfl, .inr ⟨rfl, hscope⟩⟩
    | loadAverage l => exact iff_of_true (compare_cons_of_lt Nat.one_pos) (.utilization k w s l)
  | loadAverage l =>
    cases b with
    | utilization k' w' s' =>
      refine iff_of_false (compare_cons_of_gt Nat.one_pos) fun h => ?_
      cases h
    | loadAverage l' =>
      rw [compare_sortKey_loadAverage]
      constructor
      · exact .loadAverage
      · intro h
        cases h with
        | loadAverage h => exact h

/-- A load average comes behind all utilization, though its text comes before it. -/
theorem text_loadAverage_lt (k : Kind) (w : Window) (s : Scope) (l : LoadWindow) :
    (loadAverage l).text < (utilization k w s).text := by
  rw [String.lt_iff, text, text]
  simp only [String.toList_append]
  exact List.cons_lt_cons_iff.2 (.inl (by decide))

end MetricName

/-! ## Arrangement -/

theorem orderedBy_precedes : OrderedBy MetricName.Precedes := .of_lt_iff fun _ _ => MetricName.compare_eq_lt_iff

/-- **Names by their structure.** Names are in a strict total order of their parts, and put in order they make one
arrangement. -/
theorem names_by_structure :
    (OrderedBy MetricName.Precedes ∧ OrderedBy MetricKey.Precedes ∧ OrderedBy Scope.Precedes ∧
      OrderedBy fun a b : Window => a.minutes < b.minutes) ∧
    (∀ k w s l, (MetricName.utilization k w s).Precedes (.loadAverage l) ∧
      (MetricName.loadAverage l).text < (MetricName.utilization k w s).text) ∧
    (∀ names : List MetricName, (sortDistinct names).Pairwise MetricName.Precedes ∧
      (∀ n, n ∈ sortDistinct names ↔ n ∈ names) ∧ sortDistinct names = (OrderedSet.ofList names).toList) ∧
    (∀ entries, (OrderedMap.ofList entries : Measurements) = OrderedMap.insertAll ∅ entries) ∧
    ∀ entries entries' : List (MetricName × Option Binary64), (entries.map Prod.fst).Nodup → entries'.Perm entries →
      let m : Measurements := OrderedMap.insertAll ∅ entries
      OrderedMap.insertAll ∅ entries' = m ∧ m.toList.Perm entries ∧ m.keys = sortDistinct (entries.map Prod.fst) := by
  refine ⟨⟨orderedBy_precedes, .of_lt_iff fun _ _ => MetricKey.compare_eq_lt_iff,
      .of_lt_iff fun _ _ => Scope.compare_eq_lt_iff, .of_lt_iff fun _ _ => Window.compare_eq_lt_iff⟩,
    fun k w s l => ⟨.utilization k w s l, MetricName.text_loadAverage_lt k w s l⟩, fun names => ?_,
    fun entries => (OrderedMap.insertAll_eq_ofList entries).symm, fun entries entries' hdistinct hperm => ?_⟩
  · have hascending := (ascending_sortDistinct names).imp fun {a b} => (orderedBy_precedes.lt_iff a b).1
    exact ⟨hascending, fun n => mem_sortDistinct names, sortDistinct_eq_toList names⟩
  · simp only [OrderedMap.insertAll_eq_ofList]
    exact ⟨OrderedMap.ofList_eq_of_perm hdistinct hperm, OrderedMap.toList_ofList_perm hdistinct,
      OrderedMap.keys_ofList hdistinct⟩

/-- A window of ten minutes comes behind one of nine, and a load average behind both. -/
theorem names_by_structure_of_three :
    let nine : MetricName := .utilization .user ⟨9, by decide, by decide⟩ (.core 10)
    let ten : MetricName := .utilization .user ⟨10, by decide, by decide⟩ .total
    let load : MetricName := .loadAverage .one
    let entries : List (MetricName × Option Binary64) := [(load, none), (ten, none), (nine, none)]
    let entries' : List (MetricName × Option Binary64) := [(nine, none), (load, none), (ten, none)]
    (entries.map Prod.fst).Nodup ∧ entries'.Perm entries ∧
      (OrderedMap.insertAll ∅ entries' : Measurements) = OrderedMap.insertAll ∅ entries ∧
      (OrderedMap.insertAll ∅ entries).keys = [nine, ten, load] ∧ load.text < ten.text := by
  intro nine ten load entries entries'
  obtain ⟨-, htext, hsorted, -, hinserted⟩ := names_by_structure
  have hdistinct : (entries.map Prod.fst).Nodup := by decide
  have hperm : entries'.Perm entries := by decide
  obtain ⟨hsame, -, hkeys⟩ := hinserted entries entries' hdistinct hperm
  have hset : (OrderedSet.ofList [load, ten, nine]).toList = [nine, ten, load] := by decide
  exact ⟨hdistinct, hperm, hsame, hkeys.trans ((hsorted [load, ten, nine]).2.2.trans hset), (htext _ _ _ _).2⟩

end CpuMonitor
