import CpuMonitor.Binary64.Rounding
import CpuMonitor.Text.Numeral

/-!
# Numbers with fixed decimal places

* `Binary64.fixed places x` : the exact value of `x` rounded to a number of decimal places, ties to even.
-/

set_option autoImplicit false

namespace CpuMonitor.Binary64

def minus (negative : Bool) : String := if negative then "-" else ""

/-- The whole number nearest to a magnitude times `10^places`, ties to even. -/
def scaledNearest (places code : Nat) : Nat := divEven (units code * Text.placeValue places) unitsOfOne

/-- A whole number of `10^-places` as digits with a point before the last `places` of them. -/
def pointed (places n : Nat) : String :=
  if places = 0 then toString n
  else toString (n / Text.placeValue places) ++ "." ++ Text.padded places (n % Text.placeValue places)

/-- The number with so many decimal places. The sign stays, also before zeros. -/
def fixed (places : Nat) : Binary64 → String
  | .nan => "NaN"
  | .infinite negative => minus negative ++ "inf"
  | .finite negative code => minus negative ++ pointed places (scaledNearest places code)

end CpuMonitor.Binary64
