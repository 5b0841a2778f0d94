/-!
# Whole numbers in decimal

* `readNat?` : the number a text of decimal digits denotes, if it is below a bound.
* `padded` : the digits of a number, filled up with zeros to a width.
* `placeValue` : how much a digit counts in its place.
-/

set_option autoImplicit false

namespace CpuMonitor.Text

def digits? (s : List Char) : Option Nat :=
  if s.isEmpty || !s.all Char.isDigit then none else some (Nat.ofDigitChars 10 s 0)

def dropPlus : List Char → List Char
  | '+' :: r => r
  | s => s

/-- Reads an optional plus sign and one or more digits that denote a number below `bound`. -/
def readNat? (bound : Nat) (s : List Char) : Option Nat :=
  (digits? (dropPlus s)).filter (· < bound)

/-- Ten to a power: how much a digit counts that has `k` digits behind it. -/
def placeValue (k : Nat) : Nat := Nat.pow 10 k

/-- The decimal digits of `n`, with zeros in front up to `width` digits. -/
def padded (width n : Nat) : String :=
  let ds := Nat.toDigits 10 n
  String.ofList (List.replicate (width - ds.length) '0' ++ ds)

end CpuMonitor.Text
