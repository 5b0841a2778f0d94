import CpuMonitor.Binary64.Rounding
import CpuMonitor.Text.Numeral

/-!
# Reading decimal numbers

* `Decimal.nearestCode` : the code of the double nearest to `n * 10^e`.
* `Binary64.read?` : the number that a decimal text denotes, rounded once, however many digits it has.

A number is an optional sign before `inf`, `infinity` or `nan` in any case, or before digits with an optional point
among or around them and an optional exponent.
-/

set_option autoImplicit false

namespace CpuMonitor

namespace Decimal

/-- The quotient `n * 10^e` as a numerator and a denominator in units of `2^-1074`. -/
def ratio (n : Nat) (e : Int) : Nat × Nat :=
  if 0 ≤ e then (n * Text.placeValue e.toNat * Binary64.unitsOfOne, 1)
  else (n * Binary64.unitsOfOne, Text.placeValue (-e).toNat)

/-- The code of the double nearest to `n * 10^e`. Far too large and far too small numbers are not spelled out. -/
def nearestCode (n : Nat) (e : Int) : Nat :=
  if n = 0 then 0
  else if 400 < e then Binary64.infiniteCode
  else if (Nat.toDigits 10 n).length + e < -400 then 0
  else Binary64.nearestCode (ratio n e).1 (ratio n e).2

def takeSign : List Char → Bool × List Char
  | '-' :: r => (true, r)
  | '+' :: r => (false, r)
  | s => (false, s)

/-- The exponent that a text after `e` denotes: an optional sign and one or more digits. -/
def exponent? (s : List Char) : Option Int :=
  let (negative, r) := takeSign s
  (Text.digits? r).map fun n => if negative then -(n : Int) else n

def takeFraction : List Char → List Char × List Char
  | '.' :: r => r.span Char.isDigit
  | r => ([], r)

/-- The number `n * 10^e` that an unsigned text denotes, as the pair of `n` and `e`. -/
def parts? (s : List Char) : Option (Nat × Int) :=
  let (whole, r) := s.span Char.isDigit
  let (fraction, r) := takeFraction r
  if whole.isEmpty && fraction.isEmpty then none
  else
    let digits := Nat.ofDigitChars 10 (whole ++ fraction) 0
    match r with
    | [] => some (digits, -fraction.length)
    | c :: r => if c.toLower = 'e' then (exponent? r).map fun e => (digits, e - fraction.length) else none

end Decimal

namespace Binary64

def named? (negative : Bool) (s : List Char) : Option Binary64 :=
  match String.ofList (s.map Char.toLower) with
  | "inf" => some (.infinite negative)
  | "infinity" => some (.infinite negative)
  | "nan" => some .nan
  | _ => none

/-- The number that a decimal text denotes, rounded to the nearest double. -/
def read? (s : List Char) : Option Binary64 :=
  let (negative, r) := Decimal.takeSign s
  match named? negative r with
  | some x => some x
  | none => (Decimal.parts? r).map fun (n, e) => ofCode negative (Decimal.nearestCode n e)

end Binary64

end CpuMonitor
