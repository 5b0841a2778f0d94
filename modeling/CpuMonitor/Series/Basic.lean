import CpuMonitor.Metric.Window
import CpuMonitor.Ordered.Map

/-!
# Time series

* `Snapshot` : the values of one moment by key.
* `TimeSeries` : snapshots, oldest first, of a trailing time.
* `TimeSeries.append` : adds a snapshot, and drops those that have become too old.
-/

set_option autoImplicit false

namespace CpuMonitor

structure Snapshot (κ : Type) [Ord κ] where
  time : Instant
  values : OrderedMap κ Binary64
  deriving DecidableEq

structure TimeSeries (κ : Type) [Ord κ] where
  /-- How much older than the newest snapshot a snapshot may be. -/
  retention : Duration
  /-- The time between two snapshots, by which windows are counted in snapshots. -/
  interval : Duration
  /-- Oldest first. -/
  snapshots : List (Snapshot κ)
  deriving DecidableEq

namespace TimeSeries
variable {κ : Type} [Ord κ]

def empty (retention interval : Duration) : TimeSeries κ := ⟨retention, interval, []⟩

def longest (windows : OrderedSet Window) : Duration :=
  windows.toList.foldl (fun d w => d.max w.duration) ⟨0⟩

def forWindows (windows : OrderedSet Window) (interval : Duration) : TimeSeries κ := empty (longest windows) interval

def size (s : TimeSeries κ) : Nat := s.snapshots.length

def oldest? (s : TimeSeries κ) : Option (Snapshot κ) := s.snapshots.head?

def latest? (s : TimeSeries κ) : Option (Snapshot κ) := s.snapshots.getLast?

/-- Appends a snapshot, and drops those that are older than it by more than the retention. -/
def append (s : TimeSeries κ) (new : Snapshot κ) : TimeSeries κ :=
  { s with snapshots := s.snapshots.dropWhile (fun old => s.retention < new.time.since old.time) ++ [new] }

end TimeSeries

end CpuMonitor
