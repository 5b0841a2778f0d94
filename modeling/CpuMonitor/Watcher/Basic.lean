import CpuMonitor.Request.Selection
import CpuMonitor.Series.Means
import CpuMonitor.Series.Rates
import CpuMonitor.Time.Text
import CpuMonitor.Watcher.Values

/-!
# The watcher

A watcher asks a source for the times of all cores and keeps the values in a time series. It gives up on a query that
takes too long, and asks nothing while an abandoned query is still out.

* `QueryOutcome` : what becomes of one query.
* `Watcher.sample` : one sample, from a query that ends in a given way.
* `Watcher.release` : an abandoned query comes back; what it tells is lost.
-/

set_option autoImplicit false

namespace CpuMonitor

inductive QueryOutcome where
  | cores (times : List CpuTimes)
  | failed (e : HostError)
  | panicked
  /-- The source does not return in time. -/
  | hung
  | refused (reason : String)
  deriving DecidableEq

inductive WatcherError where
  | query (e : HostError)
  | timeout (after : Duration)
  | busy
  | workerLost
  | spawn (reason : String)
  | noCores
  deriving DecidableEq

def WatcherError.message : WatcherError → String
  | .query e => "failed to read CPU times: " ++ e.message
  | .timeout after => "CPU times query timed out after " ++ after.text
  | .busy => "previous CPU times query is still running"
  | .workerLost => "CPU times query worker exited without a result"
  | .spawn reason => "failed to spawn CPU times query worker: " ++ reason
  | .noCores => "CPU times query returned no cores"

def Duration.leastInterval : Duration := .ofMilliseconds 1

structure Watcher where
  selection : Selection
  interval : Duration
  timeout : Duration
  series : TimeSeries MetricKey
  /-- A query that was abandoned has not come back. -/
  inFlight : Bool
  queries : Nat
  leastInterval_le : Duration.leastInterval ≤ interval

namespace Watcher

def standardInterval : Duration := .ofSeconds 5

def standardTimeout : Duration := .ofSeconds 10

theorem leastInterval_le_max (d : Duration) : Duration.leastInterval ≤ d.max Duration.leastInterval :=
  Nat.le_max_right _ _

/-- A watcher with no samples; an interval below the least one is raised to it. -/
def withTiming (selection : Selection) (interval timeout : Duration) : Watcher where
  selection := selection
  interval := interval.max .leastInterval
  timeout := timeout
  series := .forWindows selection.windows (interval.max .leastInterval)
  inFlight := false
  queries := 0
  leastInterval_le := leastInterval_le_max interval

def new (selection : Selection) : Watcher := withTiming selection standardInterval standardTimeout

def record (w : Watcher) (cores : List CpuTimes) (time : Instant) : Watcher :=
  { w with series := w.series.append ⟨time, sampleValues cores w.selection.kinds⟩ }

def ask (w : Watcher) : Watcher := { w with queries := w.queries + 1 }

/-- Takes one sample, recorded under `time`. Nothing is asked if there is nothing to sample, or while an abandoned query
is still out. -/
def sample (w : Watcher) (query : QueryOutcome) (time : Instant) : Except WatcherError Unit × Watcher :=
  if !w.selection.samples then (.ok (), w)
  else if w.inFlight then (.error .busy, w)
  else
    match query with
    | .cores [] => (.error .noCores, w.ask)
    | .cores times => (.ok (), w.ask.record times time)
    | .failed e => (.error (.query e), w.ask)
    | .panicked => (.error .workerLost, w.ask)
    | .hung => (.error (.timeout w.timeout), { w.ask with inFlight := true })
    | .refused reason => (.error (.spawn reason), w)

/-- The abandoned query comes back. -/
def release (w : Watcher) : Watcher := { w with inFlight := false }

def means (w : Watcher) (now : Instant) : Means MetricKey := w.series.means w.selection.windows now

end Watcher

end CpuMonitor
