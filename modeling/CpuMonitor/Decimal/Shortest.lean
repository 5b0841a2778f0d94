import CpuMonitor.Decimal.Reader
import CpuMonitor.Decimal.Fixed

/-!
# The shortest decimal of a number

* `Decimal.shortest` : the fewest digits that read back as a given double, and of those the nearest to it.
* `NumberLayout` : how such digits are laid out, with or without an exponent.
* `Binary64.text` : a number in a layout.
-/

set_option autoImplicit false

namespace CpuMonitor

namespace Decimal

/-- The number `e` with `10^(e-1) ≤ x < 10^e`, where `x` is a magnitude above zero. -/
def pointPosition (code : Nat) : Int :=
  ((Nat.toDigits 10 (Binary64.units code * Text.placeValue 400 / Binary64.unitsOfOne)).length : Int) - 400

def quotient (code : Nat) (e : Int) : Nat × Nat :=
  if 0 ≤ e then (Binary64.units code, Binary64.unitsOfOne * Text.placeValue e.toNat)
  else (Binary64.units code * Text.placeValue (-e).toNat, Binary64.unitsOfOne)

/-- Of the two multiples of `10^e` around a magnitude those that read back as it, and of two the nearer one. -/
def onGrid? (tiesUp : Bool) (code : Nat) (e : Int) : Option Nat :=
  let (num, den) := quotient code e
  let low := num / den
  let rest := num % den
  let readsBack := fun n => nearestCode n e == code
  let upIsNearer := decide (den < 2 * rest) || (decide (2 * rest = den) && (tiesUp || low % 2 == 1))
  match readsBack low, readsBack (low + 1) with
  | true, true => some (if upIsNearer then low + 1 else low)
  | true, false => some low
  | false, true => some (low + 1)
  | false, false => none

/-- The digits `n` and the exponent `e` of the shortest decimal that reads back as a magnitude above zero. -/
def shortest (tiesUp : Bool) (code : Nat) : Nat × Int :=
  let position := pointPosition code
  let grids := (List.range 17).map fun k => position - (k + 1 : Nat)
  (grids.findSome? fun e => (onGrid? tiesUp code e).map fun n => (n, e)).getD (0, 0)

/-- The digits without zeros at their end, and the position of the point before which `digits.length` of them count. -/
def significant (n : Nat) (e : Int) : List Char × Int :=
  let ds := Nat.toDigits 10 n
  ((ds.reverse.dropWhile (· == '0')).reverse, ds.length + e)

end Decimal

/-- How the shortest digits of a number are laid out. -/
structure NumberLayout where
  /-- Of two equally near shortest decimals the greater one is taken, else the even one. -/
  tiesUp : Bool
  keepsPoint : Bool
  /-- The positions of the point for which no exponent is written. -/
  positional : Int → Bool

namespace Binary64

def positionalText (keepsPoint : Bool) (ds : List Char) (position : Int) : String :=
  let zeros := fun (n : Int) => List.replicate n.toNat '0'
  let whole := if position ≤ 0 then ['0'] else ds.take position.toNat ++ zeros (position - ds.length)
  let fraction := zeros (-position) ++ ds.drop position.toNat
  let point := if fraction.isEmpty then (if keepsPoint then ['.', '0'] else []) else '.' :: fraction
  String.ofList (whole ++ point)

def signed (n : Int) : String := (if n < 0 then "-" else "+") ++ toString n.natAbs

def exponentText (ds : List Char) (position : Int) : String :=
  let point := if ds.length ≤ 1 then [] else '.' :: ds.drop 1
  String.ofList (ds.take 1 ++ point) ++ "e" ++ signed (position - 1)

def text (layout : NumberLayout) : Binary64 → String
  | .nan => "NaN"
  | .infinite negative => minus negative ++ "inf"
  | .finite negative code =>
    if code.val = 0 then minus negative ++ (if layout.keepsPoint then "0.0" else "0")
    else
      let (n, e) := Decimal.shortest layout.tiesUp code
      let (ds, position) := Decimal.significant n e
      minus negative ++
        (if layout.positional position then positionalText layout.keepsPoint ds position else exponentText ds position)

end Binary64

end CpuMonitor
