import CpuMonitor.Watcher.Basic

/-!
# Sampling on a schedule

A running watcher samples at its start and then at the points of a fixed grid, one interval apart. A point that has
passed when a sample is done is left out.

* `Instant.add?` : a later instant, if the clock can tell it.
* `nextDeadline?` : the first point of the grid, behind the last one, that is still to come.
* `Watcher.run` : samples one after the other, until there is no more to take or the clock ends.
-/

set_option autoImplicit false

namespace CpuMonitor

def clockEnd : Int := (1 <<< 63 * 1000000000 : Nat)

/-- The instant later by a duration, if it lies before the end of the clock. -/
def Instant.add? (t : Instant) (d : Duration) : Option Instant :=
  if (t + d).nanoseconds < clockEnd then some (t + d) else none

/-- The first point of the grid from `deadline` on that lies behind `now`. -/
def catchUp? (interval : Duration) (pos : 0 < interval.nanoseconds) (now deadline : Instant) : Option Instant :=
  if _h : deadline ≤ now then
    match deadline.add? interval with
    | none => none
    | some _ => catchUp? interval pos now (deadline + interval)
  else some deadline
termination_by (now.nanoseconds + 1 - deadline.nanoseconds).toNat
decreasing_by
  have h : deadline.nanoseconds ≤ now.nanoseconds := _h
  show (now.nanoseconds + 1 - (deadline.nanoseconds + interval.nanoseconds)).toNat < _
  omega

/-- The next deadline after a sample, at `now`, of the deadline `last`. -/
def nextDeadline? (interval : Duration) (pos : 0 < interval.nanoseconds) (now last : Instant) : Option Instant :=
  (last.add? interval).bind (catchUp? interval pos now)

structure Tick where
  query : QueryOutcome
  time : Instant
  /-- What the clock shows after the sample. -/
  now : Instant

inductive Ending where
  | stopped
  | clockEnded
  deriving DecidableEq

structure Run where
  watcher : Watcher
  ending : Ending

namespace Watcher

theorem interval_pos (w : Watcher) : 0 < w.interval.nanoseconds :=
  Nat.lt_of_lt_of_le (by decide) w.leastInterval_le

def failureRecord (message : String) : LogRecord := .error ("Failed to read utilisation metrics: " ++ message)

def stoppedRecord : LogRecord := ⟨.debug, "[CPU] sampling loop stopped"⟩

/-- What is logged of one sample: nothing if it was recorded. -/
def sampleLog : Except WatcherError Unit → List LogRecord
  | .ok _ => []
  | .error e => [failureRecord e.message]

def runFrom (w : Watcher) (deadline : Instant) : List Tick → Logged Run
  | [] => ⟨⟨w, .stopped⟩, [stoppedRecord]⟩
  | t :: ticks =>
    let (result, w') := w.sample t.query t.time
    match nextDeadline? w.interval w.interval_pos t.now deadline with
    | none => ⟨⟨w', .clockEnded⟩, sampleLog result⟩
    | some next =>
      let rest := w'.runFrom next ticks
      ⟨rest.value, sampleLog result ++ rest.log⟩

/-- Samples from `start` on, until the ticks are used up. A failed sample is logged and does not end the run. -/
def run (w : Watcher) (start : Instant) (ticks : List Tick) : Logged Run := w.runFrom start ticks

end Watcher

end CpuMonitor
