import CpuMonitor.Decimal.Reader
import CpuMonitor.Host.Times
import CpuMonitor.Text.Blank

/-!
# The counters of `kern.cp_times` and their clock

The value of `kern.cp_times` is a row of ticks, five for each core: `user nice system interrupt idle`. The value of
`kern.clockrate` names the frequencies of the clocks; `stathz` is the one of the ticks.

* `TickTable.read` : the times of all cores.
* `TickTable.frequency?` : the frequency of the ticks.
-/

set_option autoImplicit false

namespace CpuMonitor.TickTable

inductive Fault where
  | invalidField
  | unevenCount (count : Nat)
  deriving DecidableEq

def Fault.detail : Fault → String
  | .invalidField => "invalid float literal"
  | .unevenCount count => toString count ++ " values is not a multiple of 5"

def Fault.toHostError (f : Fault) : HostError := .parse "kern.cp_times" f.detail

def timesOf (frequency : Binary64) : List Binary64 → List CpuTimes
  | user :: nice :: system :: irq :: idle :: r =>
    { user := user / frequency
      nice := nice / frequency
      system := system / frequency
      irq := irq / frequency
      idle := idle / frequency
      iowait := .zero false
      softirq := .zero false
      steal := .zero false } :: timesOf frequency r
  | _ => []

def read (text : String) (frequency : Binary64) : Except Fault (List CpuTimes) :=
  match (Text.words text.toList).mapM Binary64.read? with
  | none => .error .invalidField
  | some ticks =>
    if ticks.isEmpty || ticks.length % 5 != 0 then .error (.unevenCount ticks.length)
    else .ok (timesOf frequency ticks)

/-! ## The clock -/

def isEdge (c : Char) : Bool := c == '\x7b' || c == '\x7d' || Text.isBlank c

/-- A text without braces and blanks at its two ends. -/
def dropEdges (s : List Char) : List Char := ((s.dropWhile isEdge).reverse.dropWhile isEdge).reverse

/-- The name before the first `=` of a text and the value behind it. -/
def assignment? (s : List Char) : Option (List Char × List Char) :=
  match s.span (· != '=') with
  | (name, '=' :: value) => some (name, value)
  | _ => none

/-- The frequency that a text names `stathz`; the first of that name counts, and it has to be above zero. -/
def frequency? (text : String) : Option Binary64 := do
  let assignments := ((dropEdges text.toList).splitOn ',').filterMap assignment?
  let (_, value) ← assignments.find? fun a => Text.trim a.1 == ['s', 't', 'a', 't', 'h', 'z']
  let frequency ← Binary64.read? (Text.trim value)
  if frequency.isPositive then some frequency else none

end CpuMonitor.TickTable
