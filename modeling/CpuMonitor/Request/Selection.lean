import CpuMonitor.Log
import CpuMonitor.Metric.Window
import CpuMonitor.Request.Basic

/-!
# Selections

* `Selection` : what is collected, after everything a platform cannot measure has been dropped.
* `Request.Warning` : one dropped element of a request.
* `Request.narrow` : the selection of a request on a platform, with a warning for each dropped element.

Every list is read entry by entry: an entry either names something to collect or gives a warning. Entries that differ in
case or in blanks around them only are one entry.
-/

set_option autoImplicit false

namespace CpuMonitor

structure Selection where
  loadWindows : OrderedSet LoadWindow
  windows : OrderedSet Window
  kinds : OrderedSet Kind
  deriving DecidableEq, Inhabited

namespace Selection

/-- There is a kind to sample and a window to report it over. -/
def samples (s : Selection) : Bool := !s.windows.isEmpty && !s.kinds.isEmpty

def isEmpty (s : Selection) : Bool := s.loadWindows.isEmpty && !s.samples

end Selection

namespace Request

/-- Why an element of a request was dropped. -/
inductive Warning where
  | loadAverageUnavailable (platformName : String)
  | unsupportedLoadWindow (minutes : Nat)
  | invalidWindow (entry : String)
  | unknownKind (entry : String)
  | unsupportedKind (kind : Kind) (platformName : String)
  deriving DecidableEq

def Warning.message : Warning → String
  | .loadAverageUnavailable platformName => "load average metric unavailable on " ++ platformName
  | .unsupportedLoadWindow minutes =>
    "unsupported load average window avg" ++ toString minutes ++ "; supported values: avg1, avg5, avg15"
  | .invalidWindow entry => "failed to parse window '" ++ entry ++ "'"
  | .unknownKind entry => "unknown utilization metric '" ++ entry ++ "'"
  | .unsupportedKind kind platformName =>
    "utilization metric '" ++ kind.text ++ "' not implemented on " ++ platformName

/-- The normal forms of the entries, each where it comes first. -/
def distinct (entries : List String) : List String := (entries.map Text.normalize).eraseDups

def windowOf (entry : String) : Except Warning Window :=
  match Window.ofText? entry with
  | some w => .ok w
  | none => .error (.invalidWindow entry)

def loadWindowOf (entry : String) : Except Warning LoadWindow :=
  match Window.ofText? entry with
  | some w =>
    match LoadWindow.ofMinutes? w.minutes with
    | some l => .ok l
    | none => .error (.unsupportedLoadWindow w.minutes)
  | none => .error (.invalidWindow entry)

def kindOf (p : Platform) (entry : String) : Except Warning Kind :=
  match Kind.ofText? entry with
  | some k => if p.supports k then .ok k else .error (.unsupportedKind k p.name)
  | none => .error (.unknownKind entry)

/-- The readings of the list of load windows. A platform without load averages drops a list that is not empty whole. -/
def loadReadings (p : Platform) (entries : List String) : List (Except Warning LoadWindow) :=
  if p.loadAverage then (distinct entries).map loadWindowOf
  else if entries.isEmpty then []
  else [.error (.loadAverageUnavailable p.name)]

section Readings
variable {α : Type}

def accepted (readings : List (Except Warning α)) : List α := readings.filterMap Except.toOption

def rejected (readings : List (Except Warning α)) : List Warning :=
  readings.filterMap fun
    | .ok _ => none
    | .error w => some w

end Readings

structure Narrowed where
  selection : Selection
  warnings : List Warning
  deriving DecidableEq

/-- The selection of a request on a platform. -/
def narrow (r : Request) (p : Platform) : Narrowed :=
  let loads := loadReadings p r.loadWindows
  let windows := (distinct r.windows).map windowOf
  let kinds := (distinct r.kinds).map (kindOf p)
  { selection := ⟨.ofList (accepted loads), .ofList (accepted windows), .ofList (accepted kinds)⟩
    warnings := rejected loads ++ rejected windows ++ rejected kinds }

/-- Narrowing, with each warning logged. -/
def configure (r : Request) (p : Platform) : Logged Narrowed :=
  ⟨narrow r p, (narrow r p).warnings.map fun w => .warn w.message⟩

end Request

end CpuMonitor
