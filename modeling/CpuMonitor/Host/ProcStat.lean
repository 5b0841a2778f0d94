import CpuMonitor.Decimal.Reader
import CpuMonitor.Host.Times
import CpuMonitor.Text.Blank

/-!
# The counters of `/proc/stat`

A line whose first word is `cpu` with a number tells the ticks of one core: `user nice system idle iowait irq softirq
steal` and more that is not used. At least four are there, and missing ones are zero. All other lines are skipped.

* `ProcStat.lineOf` : what one line tells.
* `ProcStat.read` : the times of all cores, in the order of their numbers.
* `ProcStat.Fault` : why a text tells none; the first line with a fault counts.
-/

set_option autoImplicit false

namespace CpuMonitor.ProcStat

inductive Fault where
  | invalidField (label : String)
  | tooFewFields (label : String) (count : Nat)
  | noCores
  deriving DecidableEq

def Fault.detail : Fault → String
  | .invalidField label => label ++ ": invalid float literal"
  | .tooFewFields label count => label ++ " has " ++ toString count ++ " fields, expected at least 4"
  | .noCores => "no per-core cpu lines"

def Fault.toHostError (f : Fault) : HostError := .parse "/proc/stat" f.detail

def coreOf? : List Char → Option Nat
  | 'c' :: 'p' :: 'u' :: r => Text.readNat? (1 <<< 64) r
  | _ => none

/-- The place of the ticks of a kind in a line. -/
def column : Kind → Nat
  | .user => 0
  | .nice => 1
  | .system => 2
  | .idle => 3
  | .iowait => 4
  | .irq => 5
  | .softirq => 6
  | .steal => 7

/-- The times of a core with these ticks, of which `frequency` make a second. -/
def timesOf (frequency : Binary64) (ticks : List Binary64) : CpuTimes :=
  .ofFn fun k => (ticks[column k]?.getD (.zero false)) / frequency

/-- The number and the times of the core that a line is about; none if it is about something else. -/
def lineOf (frequency : Binary64) (line : List Char) : Option (Except Fault (Nat × CpuTimes)) :=
  match Text.words line with
  | [] => none
  | label :: fields =>
    (coreOf? label).map fun index =>
      match fields.mapM Binary64.read? with
      | none => .error (.invalidField (String.ofList label))
      | some ticks =>
        if ticks.length < 4 then .error (.tooFewFields (String.ofList label) ticks.length)
        else .ok (index, timesOf frequency ticks)

/-- The cores in the order of their numbers, and those with one number in text order. -/
def inOrder (cores : List (Nat × CpuTimes)) : List CpuTimes :=
  (cores.mergeSort fun a b => decide (a.1 ≤ b.1)).map Prod.snd

def read (text : String) (frequency : Binary64) : Except Fault (List CpuTimes) := do
  let cores ← ((text.toList.splitOn '\n').filterMap (lineOf frequency)).mapM id
  if cores.isEmpty then .error .noCores else .ok (inOrder cores)

end CpuMonitor.ProcStat
