import CpuMonitor.Decimal.Shortest
import CpuMonitor.Json.Skip
import CpuMonitor.Text.Shown

/-!
# Values of the wrong shape

* `Json.Found` : what a value is, when something else was asked for.
* `Json.found` : reads what a value is; an array or an object is known by its bracket alone.
-/

set_option autoImplicit false

namespace CpuMonitor.Json

inductive Found where
  | null
  | boolean (b : Bool)
  | number (n : Number)
  | string (s : String)
  | array
  | object
  deriving DecidableEq

/-- Doubles in messages: an exponent is written from `10^16` on and below `10^-5`, and a whole number keeps its point. -/
def doubleLayout : NumberLayout where
  tiesUp := false
  keepsPoint := true
  positional position := -5 < position && position ≤ 16

def Found.text : Found → String
  | .null => "null"
  | .boolean b => "boolean `" ++ (if b then "true" else "false") ++ "`"
  | .number (.integer n) => "integer `" ++ toString n ++ "`"
  | .number (.double x) => "floating point `" ++ x.text doubleLayout ++ "`"
  | .string s => "string " ++ Text.quoted s
  | .array => "sequence"
  | .object => "map"

/-- What a value is whose first character is `c`. A number without a value is a fault. -/
def found (c : Char) (r : List Char) : Except Fault Found :=
  let word := fun (w : List Char) (v : Found) =>
    match literal w r with
    | .error f => Except.error f
    | .ok _ => .ok v
  if c = '[' then .ok .array
  else if c = '\x7b' then .ok .object
  else if c = '"' then
    match string r with
    | .error f => .error f
    | .ok (cs, _) => .ok (.string (String.ofList cs))
  else if c = 'n' then word ['u', 'l', 'l'] .null
  else if c = 't' then word ['r', 'u', 'e'] (.boolean true)
  else if c = 'f' then word ['a', 'l', 's', 'e'] (.boolean false)
  else if c = '-' ∨ c.isDigit then
    match numeral (c :: r) with
    | .error f => .error f
    | .ok (n, _) =>
      match n.value? with
      | some v => .ok (.number v)
      | none => .error .malformed
  else .error .malformed

end CpuMonitor.Json
