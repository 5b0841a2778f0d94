import CpuMonitor.Ordered.Insertion
import CpuMonitor.Text.Numeral
import CpuMonitor.Text.Blank
import CpuMonitor.Time.Basic

/-!
# Windows

* `Window` : a length of trailing time in whole minutes, from one minute on.
* `Window.ofText` : the window that a text such as `avg5` or `5` denotes.
* `Window.steps` : how many samples a window spans.
* `LoadWindow` : the three horizons of load averages.
-/

set_option autoImplicit false

namespace CpuMonitor

structure Window where
  minutes : Nat
  pos : 0 < minutes
  lt : minutes < 1 <<< 32
  deriving DecidableEq

namespace Window

theorem minutes_injective {a b : Window} (h : a.minutes = b.minutes) : a = b := by
  cases a
  cases b
  cases h
  rfl

instance : Ord Window := ⟨compareOn minutes⟩

instance : Std.TransOrd Window := inferInstanceAs (Std.TransCmp (compareOn minutes))

instance : Std.LawfulEqOrd Window where
  eq_of_compare h := minutes_injective (eq_of_compareOn h)

/-- The window of so many minutes, unless these are none or do not fit 32 bits. -/
def ofMinutes? (n : Nat) : Option Window :=
  if h : 0 < n ∧ n < 1 <<< 32 then some ⟨n, h.1, h.2⟩ else none

def text (w : Window) : String := toString w.minutes

def duration (w : Window) : Duration := .ofSeconds (w.minutes * 60)

/-- How many samples at an interval span the window: the quotient in double precision, rounded to a whole number that
fits 64 bits; none for an interval of no time. -/
def steps (w : Window) (interval : Duration) : Nat :=
  if interval.seconds.isPositive then (w.duration.seconds / interval.seconds).roundToNat (1 <<< 64 - 1) else 0

/-- A text that denotes no window. -/
structure Invalid where
  given : String
  deriving DecidableEq

def Invalid.message (e : Invalid) : String :=
  "invalid window '" ++ e.given ++ "': expected avgN with N a positive number of minutes"

/-- A text without `avg`, in any case, at its front. -/
def dropAvg (s : List Char) : List Char :=
  if Text.lower (s.take 3) = ['a', 'v', 'g'] then s.drop 3 else s

def ofText? (s : String) : Option Window :=
  (Text.readNat? (1 <<< 32) (dropAvg (Text.trim s.toList))).bind ofMinutes?

/-- The window of `N` minutes that `avgN` or `N` denotes, in any case and with blanks around it. -/
def ofText (s : String) : Except Invalid Window :=
  match ofText? s with
  | some w => .ok w
  | none => .error ⟨s⟩

end Window

inductive LoadWindow where
  | one
  | five
  | fifteen
  deriving DecidableEq, Inhabited

namespace LoadWindow

def minutes : LoadWindow → Nat
  | .one => 1
  | .five => 5
  | .fifteen => 15

theorem minutes_injective {a b : LoadWindow} (h : a.minutes = b.minutes) : a = b := by
  cases a <;> cases b <;> first | rfl | cases h

instance : Ord LoadWindow := ⟨compareOn minutes⟩

instance : Std.TransOrd LoadWindow := inferInstanceAs (Std.TransCmp (compareOn minutes))

instance : Std.LawfulEqOrd LoadWindow where
  eq_of_compare h := minutes_injective (eq_of_compareOn h)

def ofMinutes? : Nat → Option LoadWindow
  | 1 => some .one
  | 5 => some .five
  | 15 => some .fifteen
  | _ => none

def text (w : LoadWindow) : String := toString w.minutes

end LoadWindow

end CpuMonitor
