import CpuMonitor.Ordered.Merge
import CpuMonitor.Series.Basic

/-!
# Means

* `TimeSeries.means` : for each window and each key the mean of its values in the snapshots younger than the window.
* `TimeSeries.pass` : the tallies of all windows, in one pass over the snapshots.
* `means_eq_ofSet` : the means are those of a pass for each window alone.

A key is averaged over the snapshots that carry it, and one that none of them carries is left out.
-/

set_option autoImplicit false

namespace CpuMonitor

abbrev Means (κ : Type) [Ord κ] : Type := OrderedMap Window (OrderedMap κ Binary64)

/-- The sum of some values and how many they are. -/
structure Tally where
  sum : Binary64
  count : Nat
  deriving DecidableEq

namespace Tally

def nothing : Tally := ⟨.zero false, 0⟩

def add (t : Tally) (x : Binary64) : Tally := ⟨t.sum + x, t.count + 1⟩

def mean (t : Tally) : Binary64 := t.sum / .ofNat t.count

end Tally

abbrev Tallies (κ : Type) [Ord κ] : Type := OrderedMap Window (OrderedMap κ Tally)

namespace TimeSeries
variable {κ : Type} [Ord κ] [Std.TransOrd κ]

def tally (tallies : OrderedMap κ Tally) (s : Snapshot κ) : OrderedMap κ Tally :=
  tallies.absorb (fun old x => (old.getD .nothing).add x) s.values

/-- Adds one snapshot to the tallies of every window that it is younger than. -/
def tallyAll (now : Instant) (tallies : Tallies κ) (s : Snapshot κ) : Tallies κ :=
  tallies.map fun w byKey => if now.since s.time < w.duration then tally byKey s else byKey

/-- The tallies over each window at the instant `now`, after one pass over all snapshots. -/
def pass (s : TimeSeries κ) (windows : OrderedSet Window) (now : Instant) : Tallies κ :=
  s.snapshots.foldl (tallyAll now) (.ofSet windows fun _ => ∅)

def means (s : TimeSeries κ) (windows : OrderedSet Window) (now : Instant) : Means κ :=
  (s.pass windows now).map fun _ byKey => byKey.map fun _ t => t.mean

/-! ## A pass for each window -/

/-- The snapshots that are younger than a window at the instant `now`. -/
def within (s : TimeSeries κ) (now : Instant) (w : Window) : List (Snapshot κ) :=
  s.snapshots.filter fun old => now.since old.time < w.duration

def windowMeans (s : TimeSeries κ) (now : Instant) (w : Window) : OrderedMap κ Binary64 :=
  ((s.within now w).foldl tally ∅).map fun _ t => t.mean

/-- A pass over some snapshots adds to the tallies of each window those that are younger than it. -/
theorem foldl_tallyAll (now : Instant) (l : List (Snapshot κ)) (tallies : Tallies κ) :
    l.foldl (tallyAll now) tallies =
      tallies.map fun w byKey => (l.filter fun s => now.since s.time < w.duration).foldl tally byKey := by
  induction l generalizing tallies with
  | nil => exact (OrderedMap.map_id tallies).symm
  | cons s l ih =>
    rw [List.foldl_cons, ih, tallyAll, OrderedMap.map_map]
    refine OrderedMap.map_congr fun w byKey => ?_
    by_cases h : now.since s.time < w.duration
    · simp [h]
    · simp [h]

theorem pass_eq_ofSet (s : TimeSeries κ) (windows : OrderedSet Window) (now : Instant) :
    s.pass windows now = .ofSet windows fun w => (s.within now w).foldl tally ∅ := by
  rw [pass, foldl_tallyAll, OrderedMap.map_ofSet]
  rfl

theorem means_eq_ofSet (s : TimeSeries κ) (windows : OrderedSet Window) (now : Instant) :
    s.means windows now = .ofSet windows (s.windowMeans now) := by
  rw [means, pass_eq_ofSet, OrderedMap.map_ofSet]
  rfl

end TimeSeries

end CpuMonitor
