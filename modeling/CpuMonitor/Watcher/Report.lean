import CpuMonitor.Watcher.Basic

/-!
# Reports

* `Measurements` : reported values by name; a window without enough history has none.
* `Watcher.report` : the utilization rates and the load averages, and what could not be told.
* `Report.complete` : the values of a report, unless a part of them could not be told.
* `Measurements.flatten` : the values by the texts of their names.

Each half of a report stands on its own: one that fails leaves the other as it is.
-/

set_option autoImplicit false

namespace CpuMonitor

abbrev Measurements : Type := OrderedMap MetricName (Option Binary64)

def Measurements.flatten (m : Measurements) : OrderedMap String (Option Binary64) :=
  .ofList (m.toList.map fun (name, value) => (name.text, value))

inductive ReportFailure where
  | utilization (e : SeriesError)
  | loadAverage (e : HostError)
  deriving DecidableEq

namespace ReportFailure

def message : ReportFailure → String
  | .utilization e => e.message
  | .loadAverage e => "failed to read load average: " ++ e.message

def record : ReportFailure → LogRecord
  | .utilization e => .error ("Failed to read utilisation metrics: " ++ e.message)
  | .loadAverage e => .error ("Failed to read load_avg: " ++ e.message)

/-- All failures in one text, with a semicolon before each but the first one. -/
def summary (failures : List ReportFailure) : String :=
  failures.zipIdx.foldl (fun text (failure, i) => (if 0 < i then text ++ "; " else text) ++ failure.message) "CPU: "

end ReportFailure

structure Report where
  measurements : Measurements
  error : Option (List ReportFailure)

namespace Report

def failures (r : Report) : List ReportFailure := r.error.getD []

/-- The measurements of a report in which nothing failed. -/
def complete (r : Report) : Except (List ReportFailure) Measurements :=
  match r.error with
  | none => .ok r.measurements
  | some failures => .error failures

end Report

def LoadAverage.get (l : LoadAverage) : LoadWindow → Binary64
  | .one => l.one
  | .five => l.five
  | .fifteen => l.fifteen

namespace Watcher

def rateEntries (rates : Rates MetricKey) : List (MetricName × Option Binary64) :=
  rates.toList.flatMap fun (window, byKey) =>
    byKey.toList.map fun (key, rate) => (.utilization key.kind window key.scope, rate)

/-- The entries of a half of a report, or its failure; and what is logged on the way. -/
abbrev Half : Type := Logged (Except ReportFailure (List (MetricName × Option Binary64)))

def utilizationHalf (w : Watcher) : Half :=
  if !w.selection.samples then ⟨.ok [], []⟩
  else
    let rates := w.series.rates w.selection.windows
    match rates.value with
    | .ok r => ⟨.ok (rateEntries r), rates.log⟩
    | .error e => ⟨.error (.utilization e), rates.log ++ [(ReportFailure.utilization e).record]⟩

def loadHalf (w : Watcher) (load : Except HostError LoadAverage) : Half :=
  if w.selection.loadWindows.isEmpty then ⟨.ok [], []⟩
  else
    match load with
    | .ok l => ⟨.ok (w.selection.loadWindows.toList.map fun lw => (.loadAverage lw, some (l.get lw))), []⟩
    | .error e => ⟨.error (.loadAverage e), [(ReportFailure.loadAverage e).record]⟩

def Half.entries (h : Half) : List (MetricName × Option Binary64) :=
  match h.value with
  | .ok entries => entries
  | .error _ => []

def Half.failures (h : Half) : List ReportFailure :=
  match h.value with
  | .ok _ => []
  | .error e => [e]

/-- The rates from the samples, and the load averages that the source tells. -/
def report (w : Watcher) (load : Except HostError LoadAverage) : Logged Report :=
  let rates := w.utilizationHalf
  let loads := w.loadHalf load
  let failures := Half.failures rates ++ Half.failures loads
  { value :=
      { measurements := .ofList (Half.entries rates ++ Half.entries loads)
        error := if failures.isEmpty then none else some failures }
    log := rates.log ++ loads.log }

end Watcher

end CpuMonitor
