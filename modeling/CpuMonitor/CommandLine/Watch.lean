import CpuMonitor.CommandLine.Command
import CpuMonitor.CommandLine.Lists
import CpuMonitor.Request.File
import CpuMonitor.Request.Selection
import CpuMonitor.Time.Text

/-!
# Preparing to watch

* `WatchOptions.prepare` : what will be watched, or why nothing is.
* `WatchPlan.header` : the lines that say what is watched.

The two times are read first, then the file if there is one, over which each list of the command line goes alone. At the
end there has to be something to collect.
-/

set_option autoImplicit false

namespace CpuMonitor.CommandLine

inductive WatchError where
  | time (e : Duration.ReadError)
  | file (path : String) (e : Request.FileError)
  | nothingToCollect (platformName : String)
  deriving DecidableEq

def WatchError.message : WatchError → String
  | .time e => e.message
  | .file path e => e.message path
  | .nothingToCollect platformName => "nothing to collect on " ++ platformName

structure WatchPlan where
  selection : Selection
  exportEvery : Duration
  duration : Option Duration
  deriving DecidableEq

/-- The end of all preparations, and the warnings on the way to it. -/
structure Prepared where
  warnings : List Request.Warning
  result : Except WatchError WatchPlan

namespace WatchOptions

/-- What is asked for before the command line has its say: the file if one is named, else the defaults. -/
def base (o : WatchOptions) (file : Except Request.FileFault ByteArray) : Except WatchError Request :=
  match o.configPath with
  | none => .ok .fallback
  | some path =>
    match Request.ofFile file with
    | .ok r => .ok r
    | .error e => .error (.file path e)

/-- The request with each list that the command line gives in its place. -/
def override (o : WatchOptions) (r : Request) : Request where
  loadWindows := (o.loadWindows.map splitList).getD r.loadWindows
  windows := (o.windows.map splitList).getD r.windows
  kinds := (o.kinds.map splitList).getD r.kinds

def durationOf (o : WatchOptions) : Except Duration.ReadError (Option Duration) :=
  match o.duration with
  | none => .ok none
  | some s => (Duration.ofText s).map some

def planFor (exportEvery : Duration) (duration : Option Duration) (platformName : String) (s : Selection) :
    Except WatchError WatchPlan :=
  if s.isEmpty then .error (.nothingToCollect platformName) else .ok ⟨s, exportEvery, duration⟩

/-- What will be watched on a platform, with the file that the options name. -/
def prepare (o : WatchOptions) (p : Platform) (file : Except Request.FileFault ByteArray) : Prepared :=
  match Duration.ofText o.exportEvery, o.durationOf, o.base file with
  | .error e, _, _ => ⟨[], .error (.time e)⟩
  | _, .error e, _ => ⟨[], .error (.time e)⟩
  | _, _, .error e => ⟨[], .error e⟩
  | .ok exportEvery, .ok duration, .ok base =>
    let narrowed := (o.override base).narrow p
    ⟨narrowed.warnings, planFor exportEvery duration p.name narrowed.selection⟩

end WatchOptions

/-- Times in the header: never with an exponent, and without a point if they are whole. -/
def secondsLayout : NumberLayout where
  tiesUp := true
  keepsPoint := false
  positional _ := true

namespace WatchPlan

def loadText (p : WatchPlan) : String := joinList (p.selection.loadWindows.toList.map fun w => "avg" ++ w.text)

def windowsText (p : WatchPlan) : String := joinList (p.selection.windows.toList.map fun w => "avg" ++ w.text)

def kindsText (p : WatchPlan) : String := joinList (p.selection.kinds.toList.map Kind.text)

def exportText (p : WatchPlan) : String := "every " ++ p.exportEvery.seconds.text secondsLayout ++ "s"

def durationText (p : WatchPlan) : String :=
  match p.duration with
  | none => "until Ctrl+C"
  | some d => toString d.wholeSeconds ++ "s"

def header (p : WatchPlan) : List String :=
  ["Watching CPU",
    "  Load:      " ++ p.loadText,
    "  Windows:   " ++ p.windowsText,
    "  Types:     " ++ p.kindsText,
    "  Export:    " ++ p.exportText,
    "  Duration:  " ++ p.durationText]

end WatchPlan

end CpuMonitor.CommandLine
