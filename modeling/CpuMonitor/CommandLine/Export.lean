import CpuMonitor.CommandLine.Output
import CpuMonitor.Watcher.Report

/-!
# Exported results

* `exportOutput` : the lines of one export of a report.
* `sampleOutput` : the lines about the counters as they are, of every core, and the load averages.
-/

set_option autoImplicit false

namespace CpuMonitor.CommandLine

def spaces (n : Nat) : String := String.ofList (List.replicate n ' ')

def alignRight (width : Nat) (s : String) : String := spaces (width - s.length) ++ s

def alignLeft (width : Nat) (s : String) : String := s ++ spaces (width - s.length)

/-- One export: a line about the run, and a line for each value. -/
def exportOutput (elapsed : Duration) (samples : Nat) (r : Report) : Output where
  code := 0
  out := ("[" ++ alignRight 6 (elapsed.seconds.fixed 0) ++ "s] " ++ toString samples ++ " samples") ::
    r.measurements.flatten.toList.map fun (name, value) => "  " ++ alignLeft 28 name ++ " " ++ valueText value
  err := r.error.toList.map fun failures => "  " ++ ReportFailure.summary failures

/-- The kinds in the order of the table of counters. -/
def tableKinds : List Kind := [.user, .nice, .system, .idle, .iowait, .irq, .softirq, .steal]

def tableLine (label : String) (cells : List String) : String :=
  alignLeft 6 label ++ String.join (cells.map fun cell => " " ++ alignRight 12 cell)

/-- The counters of every core in seconds, and the load averages. -/
def sampleOutput (cores : Except HostError (List CpuTimes)) (load : Except HostError LoadAverage) : Output :=
  let table := match cores with
    | .ok cores =>
      tableLine "core" (tableKinds.map Kind.text) ::
        cores.zipIdx.map fun (t, i) => tableLine (Scope.core i).text (tableKinds.map fun k => (t.get k).fixed 2)
    | .error _ => []
  let coresError := match cores with
    | .ok _ => []
    | .error e => ["Error: " ++ e.message]
  let loadLines := match load with
    | .ok l => ["", "load average: " ++ " ".intercalate ([l.one, l.five, l.fifteen].map (Binary64.fixed 2))]
    | .error _ => []
  let loadError := match load with
    | .ok _ => []
    | .error e => ["", "load average unavailable: " ++ e.message]
  { code := if coresError.isEmpty && loadError.isEmpty then 0 else 1
    out := table ++ loadLines
    err := coresError ++ loadError }

end CpuMonitor.CommandLine
