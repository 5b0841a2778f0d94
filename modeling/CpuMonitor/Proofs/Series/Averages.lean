import CpuMonitor.Series.Means
import Mathlib.Data.List.Forall2

/-!
# What means are made of

* `carried l k` : the values that some snapshots have at a key, in order.
* `gathered old l` : a tally after some more values; there is none before the first one.
* `get?_tally`, `get?_foldl_tally` : what one snapshot adds to the tally of a key, and what a run of snapshots does.
* `get?_windowMeans_eq_some_iff`, `isSome_windowMeans_iff` : the mean of a key over one window, and when there is one.
* `Visit` : a snapshot as a loop meets it, with its entries in any order; `foldl_visit_eq` : this order does not show.
* `means_exact` : the one pass gives what each window and each key would have by themselves.
-/

set_option autoImplicit false

namespace CpuMonitor.TimeSeries
variable {κ : Type} [Ord κ]

/-! ## One key -/

/-- The values of a key in those of some snapshots that carry it. -/
def carried (l : List (Snapshot κ)) (k : κ) : List Binary64 := l.filterMap fun x => x.values.get? k

theorem exists_carried_iff {l : List (Snapshot κ)} {k : κ} :
    0 < (carried l k).length ↔ ∃ x ∈ l, (x.values.get? k).isSome := by
  simp only [carried, List.length_pos_iff_exists_mem, List.mem_filterMap, Option.isSome_iff_exists]
  constructor
  · rintro ⟨v, x, hx, hv⟩
    exact ⟨x, hx, v, hv⟩
  · rintro ⟨x, hx, v, hv⟩
    exact ⟨v, x, hx, hv⟩

/-- The tally of a key after some more values; `none` without any. -/
def gathered (old : Option Tally) (l : List Binary64) : Option Tally :=
  l.foldl (fun t x => some ((t.getD .nothing).add x)) old

theorem gathered_append (old : Option Tally) (l m : List Binary64) :
    gathered old (l ++ m) = gathered (gathered old l) m := List.foldl_append

theorem gathered_some (t : Tally) (l : List Binary64) :
    gathered (some t) l = some ⟨l.foldl (· + ·) t.sum, t.count + l.length⟩ := by
  induction l generalizing t with
  | nil => rfl
  | cons x l ih =>
    have hstep : gathered (some t) (x :: l) = gathered (some (t.add x)) l := rfl
    rw [hstep, ih, List.foldl_cons, List.length_cons]
    unfold Tally.add
    rw [Nat.add_assoc, Nat.add_comm 1]

theorem gathered_none_eq_some_iff {l : List Binary64} {t : Tally} :
    gathered none l = some t ↔ 0 < l.length ∧ t = ⟨l.foldl (· + ·) (.zero false), l.length⟩ := by
  cases l with
  | nil => simp [gathered]
  | cons x l =>
    have hstep : gathered none (x :: l) = gathered (some (Tally.nothing.add x)) l := rfl
    have hcount : Tally.nothing.count + 1 + l.length = l.length + 1 := by simp [Tally.nothing, Nat.add_comm]
    rw [hstep, gathered_some, List.foldl_cons, List.length_cons]
    unfold Tally.add
    rw [hcount]
    simp [Tally.nothing, eq_comm]

variable [Std.TransOrd κ]

theorem get?_tally (tallies : OrderedMap κ Tally) (x : Snapshot κ) (k : κ) :
    (tally tallies x).get? k = gathered (tallies.get? k) (x.values.get? k).toList := by
  unfold tally
  rw [OrderedMap.get?_absorb]
  cases x.values.get? k with
  | none => rfl
  | some v => rfl

theorem get?_foldl_tally (l : List (Snapshot κ)) (tallies : OrderedMap κ Tally) (k : κ) :
    (l.foldl tally tallies).get? k = gathered (tallies.get? k) (carried l k) := by
  induction l generalizing tallies with
  | nil => rfl
  | cons x l ih =>
    have hsplit : carried (x :: l) k = (x.values.get? k).toList ++ carried l k := by
      unfold carried
      cases h : x.values.get? k <;> simp [h]
    rw [List.foldl_cons, ih, get?_tally, hsplit, gathered_append]

section WindowMeans
variable [Std.LawfulEqOrd κ] {s : TimeSeries κ} {now : Instant} {w : Window} {k : κ}

/-- A mean is the sum of the values in the window, from zero on, by their number. -/
theorem get?_windowMeans_eq_some_iff {mean : Binary64} : (s.windowMeans now w).get? k = some mean ↔
    0 < (carried (s.within now w) k).length ∧
      mean = (carried (s.within now w) k).foldl (· + ·) (.zero false) / .ofNat (carried (s.within now w) k).length := by
  unfold windowMeans
  rw [OrderedMap.get?_map, get?_foldl_tally, OrderedMap.get?_empty, Option.map_eq_some_iff]
  constructor
  · rintro ⟨t, ht, rfl⟩
    obtain ⟨hpos, rfl⟩ := gathered_none_eq_some_iff.1 ht
    exact ⟨hpos, rfl⟩
  · rintro ⟨hpos, rfl⟩
    exact ⟨_, gathered_none_eq_some_iff.2 ⟨hpos, rfl⟩, rfl⟩

theorem isSome_windowMeans_iff : ((s.windowMeans now w).get? k).isSome ↔
    ∃ x ∈ s.snapshots, now.since x.time < w.duration ∧ (x.values.get? k).isSome := by
  have hcarried : ((s.windowMeans now w).get? k).isSome ↔ 0 < (carried (s.within now w) k).length := by
    simp only [Option.isSome_iff_exists, get?_windowMeans_eq_some_iff, exists_and_left, exists_eq, and_true]
  rw [hcarried, exists_carried_iff]
  constructor
  · rintro ⟨x, hx, hcarries⟩
    obtain ⟨hmem, hyoung⟩ := List.mem_filter.1 hx
    exact ⟨x, hmem, of_decide_eq_true hyoung, hcarries⟩
  · rintro ⟨x, hmem, hyoung, hcarries⟩
    exact ⟨x, List.mem_filter.2 ⟨hmem, decide_eq_true hyoung⟩, hcarries⟩

end WindowMeans

theorem count_pos_of_pass {s : TimeSeries κ} {windows : OrderedSet Window} {now : Instant} {w : Window}
    {byKey : OrderedMap κ Tally} (hw : (s.pass windows now).get? w = some byKey) {k : κ} {t : Tally}
    (hk : byKey.get? k = some t) : 0 < t.count := by
  rw [pass_eq_ofSet, OrderedMap.get?_ofSet] at hw
  split at hw
  · obtain rfl := Option.some.inj hw
    rw [get?_foldl_tally, OrderedMap.get?_empty, gathered_none_eq_some_iff] at hk
    obtain ⟨hpos, rfl⟩ := hk
    exact hpos
  · cases hw

/-! ## The order of entries -/

variable [Std.LawfulEqOrd κ]

/-- A snapshot as a loop meets it: its entries come in some order. -/
structure Visit (κ : Type) where
  time : Instant
  entries : List (κ × Binary64)

structure Visit.Of (v : Visit κ) (x : Snapshot κ) : Prop where
  time_eq : v.time = x.time
  perm : v.entries.Perm x.values.toList

def tallyEntry (tallies : OrderedMap κ Tally) (e : κ × Binary64) : OrderedMap κ Tally :=
  tallies.insert e.1 (((tallies.get? e.1).getD .nothing).add e.2)

/-- Adds the entries of one visit to the tallies of every window that it is younger than. -/
def visit (now : Instant) (tallies : Tallies κ) (v : Visit κ) : Tallies κ :=
  tallies.map fun w byKey => if now.since v.time < w.duration then v.entries.foldl tallyEntry byKey else byKey

def valuesAt (k : κ) (l : List (κ × Binary64)) : List Binary64 :=
  l.filterMap fun e => if compare k e.1 = .eq then some e.2 else none

theorem get?_foldl_tallyEntry (l : List (κ × Binary64)) (tallies : OrderedMap κ Tally) (k : κ) :
    (l.foldl tallyEntry tallies).get? k = gathered (tallies.get? k) (valuesAt k l) := by
  induction l generalizing tallies with
  | nil => rfl
  | cons e l ih =>
    rw [List.foldl_cons, ih]
    unfold tallyEntry valuesAt
    rw [OrderedMap.get?_insert]
    by_cases h : compare k e.1 = .eq
    · obtain rfl : k = e.1 := Std.LawfulEqCmp.eq_of_compare h
      simp [gathered]
    · simp [h]

theorem valuesAt_eq_toList (k : κ) (l : List (κ × Binary64)) (h : Ascending Prod.fst l) :
    valuesAt k l = (OrderedMap.lookup k l).toList := by
  induction l with
  | nil => rfl
  | cons e l ih =>
    obtain ⟨he, hl⟩ := List.pairwise_cons.1 h
    have hrest : compare k e.1 ≠ .gt → valuesAt k l = [] := by
      intro hk
      refine List.filterMap_eq_nil_iff.2 fun d hd => if_neg fun heq => ?_
      rw [Std.TransCmp.congr_left heq, Std.OrientedCmp.gt_iff_lt.2 (he d hd)] at hk
      exact hk rfl
    unfold valuesAt at ih hrest ⊢
    rw [List.filterMap_cons, OrderedMap.lookup]
    cases hk : compare k e.1 with
    | lt => simpa using hrest (by simp [hk])
    | eq => simpa using hrest (by simp [hk])
    | gt => simpa using ih hl

theorem foldl_tallyEntry {v : Visit κ} {x : Snapshot κ} (h : v.Of x) (tallies : OrderedMap κ Tally) :
    v.entries.foldl tallyEntry tallies = tally tallies x := by
  refine OrderedMap.ext_get? fun k => ?_
  have hperm : (valuesAt k v.entries).Perm (x.values.get? k).toList := by
    have hfound : valuesAt k x.values.toList = (x.values.get? k).toList := valuesAt_eq_toList k _ x.values.ascending
    rw [← hfound]
    exact h.perm.filterMap _
  have hvalues : valuesAt k v.entries = (x.values.get? k).toList := by
    generalize x.values.get? k = o at hperm ⊢
    cases o with
    | none => exact hperm.eq_nil
    | some v => exact List.perm_singleton.1 hperm
  rw [get?_foldl_tallyEntry, get?_tally, hvalues]

/-- In whatever order the entries of the snapshots are visited, the tallies are those of the pass. -/
theorem foldl_visit_eq {visits : List (Visit κ)} {l : List (Snapshot κ)} (h : List.Forall₂ Visit.Of visits l)
    (now : Instant) (tallies : Tallies κ) : visits.foldl (visit now) tallies = l.foldl (tallyAll now) tallies := by
  induction h generalizing tallies with
  | nil => rfl
  | @cons v x visits l hx hl ih =>
    have hstep : visit now tallies v = tallyAll now tallies x := by
      refine OrderedMap.map_congr fun w byKey => ?_
      rw [hx.time_eq, foldl_tallyEntry hx]
    rw [List.foldl_cons, List.foldl_cons, hstep, ih]

/-! ## All windows and keys -/

/-- **What a mean is.** The sum from zero on of what the snapshots younger than the window carry, by their number, in
whatever order entries are visited. -/
theorem means_exact (s : TimeSeries κ) (asked : OrderedSet Window) (now : Instant) :
    (s.means asked now).keys = asked.toList ∧
    (∀ w ∈ asked, ∃ byKey, (s.means asked now).get? w = some byKey ∧
      ∀ k, let values := (s.snapshots.filter fun x => now.since x.time < w.duration).filterMap fun x => x.values.get? k
        ((byKey.get? k).isSome ↔ ∃ x ∈ s.snapshots, now.since x.time < w.duration ∧ (x.values.get? k).isSome) ∧
        ∀ mean, byKey.get? k = some mean →
          0 < values.length ∧ mean = values.foldl (· + ·) (.zero false) / .ofNat values.length) ∧
    s.means asked now = .ofSet asked (s.windowMeans now) ∧
    (∀ w byKey k t, (s.pass asked now).get? w = some byKey → byKey.get? k = some t → 0 < t.count) ∧
    ∀ visits, List.Forall₂ Visit.Of visits s.snapshots →
      s.means asked now = (visits.foldl (visit now) (.ofSet asked fun _ => ∅)).map fun _ byKey =>
        byKey.map fun _ t => t.mean := by
  refine ⟨?_, fun w hw => ?_, means_eq_ofSet s asked now, fun w byKey k t hw => count_pos_of_pass hw, ?_⟩
  · rw [means_eq_ofSet, OrderedMap.keys_ofSet]
  · refine ⟨s.windowMeans now w, ?_, fun k => ⟨isSome_windowMeans_iff, fun mean => get?_windowMeans_eq_some_iff.1⟩⟩
    rw [means_eq_ofSet, OrderedMap.get?_ofSet, if_pos hw]
  · intro visits hvisits
    rw [foldl_visit_eq hvisits]
    rfl

/-- The snapshots are out of order, and each key is missing in one of them. -/
theorem means_exact_of_out_of_order :
    let s : TimeSeries Nat := ⟨.ofSeconds 120, .ofSeconds 30, [⟨⟨100000000000⟩, .ofList [(7, .ofNat 1)]⟩,
      ⟨⟨40000000000⟩, .ofList [(7, .ofNat 2), (8, .ofNat 4)]⟩, ⟨⟨200000000000⟩, .ofList [(8, .ofNat 6)]⟩]⟩
    let visits : List (Visit Nat) := [⟨⟨100000000000⟩, [(7, .ofNat 1)]⟩,
      ⟨⟨40000000000⟩, [(8, .ofNat 4), (7, .ofNat 2)]⟩, ⟨⟨200000000000⟩, [(8, .ofNat 6)]⟩]
    let minute : Window := ⟨1, by decide, by decide⟩
    let minutes : Window := ⟨2, by decide, by decide⟩
    let asked : OrderedSet Window := .ofList [minutes, minute]
    let means := s.means asked ⟨150000000000⟩
    means.keys = [minute, minutes] ∧
    means.get? minute = some (.ofList [(7, .ofNat 1), (8, .ofNat 6)]) ∧
    means.get? minutes = some (.ofList [(7, .ofNat 3 / .ofNat 2), (8, .ofNat 5)]) ∧
    means = (visits.foldl (visit ⟨150000000000⟩) (.ofSet asked fun _ => ∅)).map fun _ byKey =>
      byKey.map fun _ t => t.mean := by
  intro s visits minute minutes asked means
  obtain ⟨hkeys, -, -, -, hvisits⟩ := means_exact s asked ⟨150000000000⟩
  refine ⟨hkeys.trans (by decide), by decide +kernel, by decide +kernel, hvisits visits ?_⟩
  have hfirst : Visit.Of visits[0] s.snapshots[0] := ⟨rfl, by decide +kernel⟩
  have hsecond : Visit.Of visits[1] s.snapshots[1] := ⟨rfl, by decide +kernel⟩
  have hthird : Visit.Of visits[2] s.snapshots[2] := ⟨rfl, by decide +kernel⟩
  exact .cons hfirst (.cons hsecond (.cons hthird .nil))

end CpuMonitor.TimeSeries
