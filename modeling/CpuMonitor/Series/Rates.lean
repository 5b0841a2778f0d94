import CpuMonitor.Log
import CpuMonitor.Series.Basic

/-!
# Rates of change

* `Binary64.round4`, `Binary64.round4_eq_div` : rounding to four decimal places, and what it gives.
* `TimeSeries.reference?` : the snapshot that begins a trailing window.
* `TimeSeries.rates` : for each window and each key of the latest snapshot, the change per second since the reference.

The reference lies as many snapshots back as the window has intervals, counted from behind the latest one. There is no
rate without a reference, for a key that the reference lacks, or if no time has passed since it.
-/

set_option autoImplicit false

namespace CpuMonitor

inductive SeriesError where
  | notCollected
  deriving DecidableEq

def SeriesError.message : SeriesError → String
  | .notCollected => "CPU metrics are not collected yet"

abbrev Rates (κ : Type) [Ord κ] : Type := OrderedMap Window (OrderedMap κ (Option Binary64))

namespace Binary64

def half : Binary64 := ofRatio false unitsOfOne 2

/-- The number rounded to four decimal places, halves up, each step in double precision. -/
def round4 (x : Binary64) : Binary64 := (x * ofNat 10000 + half).floor / ofNat 10000

/-- The result is `n` ten-thousandths if the scaled number and a half lies from `n` to below `n + 1`. -/
theorem round4_eq_div {x : Binary64} {negative : Bool} {code : Fin finiteCodes} {n : Int}
    (hscaled : x * ofNat 10000 + half = .finite negative code)
    (hle : n * unitsOfOne ≤ signedUnits (.finite negative code))
    (hlt : signedUnits (.finite negative code) < (n + 1) * unitsOfOne) :
    round4 x = ofUnits negative (n * unitsOfOne) / ofNat 10000 := by
  rw [round4, hscaled, floor_finite hle hlt]

end Binary64

namespace TimeSeries
variable {κ : Type} [Ord κ]

/-- The snapshot that begins a trailing window, if the series reaches so far back. -/
def reference? (s : TimeSeries κ) (w : Window) : Option (Snapshot κ) :=
  let steps := w.steps s.interval
  if steps ≤ s.size then s.snapshots[s.size - steps]? else none

/-- The change of a key per second from one snapshot to another, in which it has the value `last`. -/
def rateBetween (first latest : Snapshot κ) (key : κ) (last : Binary64) : Option Binary64 :=
  match first.values.get? key with
  | none => none
  | some value =>
    let elapsed := (latest.time.since first.time).seconds
    if elapsed.isPositive then some (Binary64.round4 ((last - value) / elapsed)) else none

def windowRates (s : TimeSeries κ) (latest : Snapshot κ) (w : Window) : OrderedMap κ (Option Binary64) :=
  latest.values.map fun key last => (s.reference? w).bind fun first => rateBetween first latest key last

def unfilled (s : TimeSeries κ) (windows : OrderedSet Window) : List Window :=
  windows.toList.filter fun w => (s.reference? w).isNone

def unfilledRecord (w : Window) : LogRecord :=
  ⟨.debug, "cpu.util metrics for " ++ w.text ++ " min avg calculation are not collected yet"⟩

/-- The rates over each window. A window that the series does not fill is logged. -/
def rates (s : TimeSeries κ) (windows : OrderedSet Window) : Logged (Except SeriesError (Rates κ)) :=
  match s.latest? with
  | none => ⟨.error .notCollected, []⟩
  | some latest => ⟨.ok (.ofSet windows (s.windowRates latest)), (s.unfilled windows).map unfilledRecord⟩

end TimeSeries

end CpuMonitor
