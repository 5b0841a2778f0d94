import CpuMonitor.Time.Basic
import CpuMonitor.Text.Blank
import CpuMonitor.Text.Numeral

/-!
# Texts of durations

* `Duration.text` : the exact duration in its greatest fitting unit, as messages show it.
* `Duration.ofText` : the duration that a text such as `250ms`, `30s`, `5m`, `1h` or `45` denotes.
-/

set_option autoImplicit false

namespace CpuMonitor.Duration

/-- A point and the last `width` places of `rest`, without zeros at the end; nothing for zero. -/
def fractionText (width rest : Nat) : String :=
  let ds := ((Text.padded width rest).toList.reverse.dropWhile (· == '0')).reverse
  if ds.isEmpty then "" else "." ++ String.ofList ds

def inUnit (width n : Nat) (unit : String) : String :=
  toString (n / Text.placeValue width) ++ fractionText width (n % Text.placeValue width) ++ unit

/-- The exact duration in seconds, milliseconds, microseconds or nanoseconds: the greatest unit it has one of. -/
def text (d : Duration) : String :=
  let n := d.nanoseconds
  if 1000000000 ≤ n then inUnit 9 n "s"
  else if 1000000 ≤ n then inUnit 6 n "ms"
  else if 1000 ≤ n then inUnit 3 n "µs"
  else inUnit 0 n "ns"

/-! ## Reading -/

inductive ReadError where
  | invalid (text : String)
  | notPositive (text : String)
  | tooLarge (text : String)
  deriving DecidableEq

def ReadError.message : ReadError → String
  | .invalid text => "Invalid duration: " ++ text
  | .notPositive text => "Duration must be positive: " ++ text
  | .tooLarge text => "Duration too large: " ++ text

/-- The units a text may end in, with their milliseconds; the first that fits counts. -/
def unitSuffixes : List (List Char × Nat) :=
  [(['m', 's'], 1), (['s'], 1000), (['m'], 60000), (['h'], 3600000)]

def dropSuffix? (suffix s : List Char) : Option (List Char) :=
  if suffix.isSuffixOf s then some (s.take (s.length - suffix.length)) else none

/-- The text before the unit, and the milliseconds of the unit; without a unit the text counts seconds. -/
def splitUnit (s : List Char) : List Char × Nat :=
  (unitSuffixes.findSome? fun (suffix, factor) => (dropSuffix? suffix s).map (·, factor)).getD (s, 1000)

/-- The duration that a text denotes: a whole number above zero and a unit, in less than `2^64` milliseconds. -/
def ofText (s : String) : Except ReadError Duration :=
  let t := Text.trim s.toList
  let shown := String.ofList t
  let (number, factor) := splitUnit t
  match Text.readNat? (1 <<< 64) (Text.trim number) with
  | none => .error (.invalid shown)
  | some 0 => .error (.notPositive shown)
  | some n => if n * factor < 1 <<< 64 then .ok (ofMilliseconds (n * factor)) else .error (.tooLarge shown)

end CpuMonitor.Duration
