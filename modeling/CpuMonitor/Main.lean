import CpuMonitor.CommandLine.Export
import CpuMonitor.Host.LoadText
import CpuMonitor.Host.ProcStat
import CpuMonitor.Watcher.Schedule

/-!
# The program

Reads files and the clock, and prints what the commands give.
-/

set_option autoImplicit false

namespace CpuMonitor.Program
open CommandLine

def readBytes (path : String) : IO (Except Request.FileFault ByteArray) := do
  try
    return .ok (← IO.FS.readBinFile path)
  catch e =>
    match e with
    | .noFileOrDirectory .. => return .error .notFound
    | e => return .error (.unavailable (toString e))

def readText (path : String) : IO (Except HostError String) := do
  try
    return .ok (← IO.FS.readFile path)
  catch e => return .error (.io path (toString e))

/-- The counters of `/proc/stat` advance a hundred times a second. -/
def frequency : Binary64 := .ofNat 100

def readCores : IO (Except HostError (List CpuTimes)) := do
  return (← readText "/proc/stat").bind fun s => (ProcStat.read s frequency).mapError ProcStat.Fault.toHostError

def readLoad : IO (Except HostError LoadAverage) := do
  return (← readText "/proc/loadavg").bind LoadText.read

def clock : IO Instant := do
  return ⟨(← IO.monoNanosNow : Nat)⟩

def printOutput (o : Output) : IO Unit := do
  o.out.forM fun line => IO.println line
  o.err.forM fun line => IO.eprintln line

def printLog (log : List LogRecord) : IO Unit :=
  (log.filter fun r => r.severity != .debug).forM fun r => IO.eprintln r.text

def queryHost : IO QueryOutcome := do
  match ← readCores with
  | .ok cores => return .cores cores
  | .error e => return .failed e

def printReport (w : Watcher) (elapsed : Duration) : IO Unit := do
  let report := w.report (← readLoad)
  printLog report.log
  printOutput (exportOutput elapsed w.series.size report.value)

/-- Samples and exports until the run has lasted long enough. -/
def watch (plan : WatchPlan) : IO Unit := do
  let start ← clock
  let mut watcher := Watcher.new plan.selection
  let mut deadline := start
  let mut nextExport := start + plan.exportEvery
  repeat
    let now ← clock
    if (plan.duration.any fun d => d ≤ now.since start) then break
    if deadline ≤ now then
      let query ← queryHost
      let (result, sampled) := watcher.sample query (← clock)
      printLog (Watcher.sampleLog result)
      watcher := sampled
      match nextDeadline? watcher.interval watcher.interval_pos (← clock) deadline with
      | some next => deadline := next
      | none => break
    if nextExport ≤ now then
      printReport watcher (now.since start)
      nextExport := nextExport + plan.exportEvery
    IO.sleep 50
  let elapsed := (← clock).since start
  IO.println ""
  IO.println ("Final results after " ++ elapsed.seconds.fixed 0 ++ "s:")
  printReport watcher elapsed

def runWatch (options : WatchOptions) : IO UInt32 := do
  let file ← match options.configPath with
    | some path => readBytes path
    | none => pure (.error .notFound)
  let prepared := options.prepare PlatformTable.builtin.current file
  printOutput prepared.output
  match prepared.result with
  | .ok plan =>
    IO.println ""
    watch plan
    return 0
  | .error _ => return 1

end CpuMonitor.Program

open CpuMonitor Program in
/-- Does what the command line asks for. -/
def main (args : List String) : IO UInt32 := do
  match CommandLine.Command.read? args with
  | some (.watch options) => runWatch options
  | some .sample =>
    let output := CommandLine.sampleOutput (← readCores) (← readLoad)
    printOutput output
    return UInt32.ofNat output.code
  | command =>
    let output := command.elim CommandLine.Output.misuse (CommandLine.Command.output .builtin fun _ => .error .notFound)
    printOutput output
    return UInt32.ofNat output.code
