import CpuMonitor.Binary64.Arithmetic
import CpuMonitor.Json.Scan
import CpuMonitor.Text.Numeral

/-!
# JSON numbers

* `Json.Numeral` : the parts of a written number.
* `Json.numeral` : reads a number, from its sign on.
* `Json.Numeral.value?` : the number it denotes: a whole number of 64 bits, or a double.

A double is not rounded once. As many digits as fit 64 bits are taken as a whole number, which is then multiplied or
divided by a power of ten, both rounded. A double beyond all finite ones is no value.
-/

set_option autoImplicit false

namespace CpuMonitor.Json

structure Numeral where
  negative : Bool
  whole : List Char
  /-- The digits after the point; none if there is no point. -/
  fraction : List Char
  exponent : Option Int
  deriving DecidableEq

/-! ## Reading -/

def digits (s : List Char) : Except Fault (List Char × Rest s) :=
  match s with
  | [] => .error .endOfText
  | c :: r =>
    if c.isDigit then
      .ok (c :: r.takeWhile Char.isDigit,
        ⟨r.dropWhile Char.isDigit, Nat.lt_succ_of_le (length_dropWhile_le _ r)⟩)
    else .error .malformed

/-- Digits that do not begin with a zero, unless it is the only one. -/
def wholePart (s : List Char) : Except Fault (List Char × Rest s) :=
  match digits s with
  | .error f => .error f
  | .ok (ds, t) => if ds.head? = some '0' ∧ ds.length ≠ 1 then .error .malformed else .ok (ds, t)

def fractionPart (s : List Char) : Except Fault (List Char × End s) :=
  match s with
  | '.' :: r =>
    match digits r with
    | .error f => .error f
    | .ok (ds, t) => .ok (ds, .ofTail '.' t.toEnd)
  | s => .ok ([], .all s)

def exponentDigits (negative : Bool) (s : List Char) : Except Fault (Int × Rest s) :=
  match digits s with
  | .error f => .error f
  | .ok (ds, t) => .ok (if negative then -(Nat.ofDigitChars 10 ds 0 : Int) else Nat.ofDigitChars 10 ds 0, t)

def signedExponent (s : List Char) : Except Fault (Int × Rest s) :=
  match s with
  | '-' :: r =>
    match exponentDigits true r with
    | .error f => .error f
    | .ok (e, t) => .ok (e, .ofTail '-' t)
  | '+' :: r =>
    match exponentDigits false r with
    | .error f => .error f
    | .ok (e, t) => .ok (e, .ofTail '+' t)
  | s => exponentDigits false s

def exponentPart (s : List Char) : Except Fault (Option Int × End s) :=
  match s with
  | [] => .ok (none, .all [])
  | c :: r =>
    if c = 'e' ∨ c = 'E' then
      match signedExponent r with
      | .error f => .error f
      | .ok (e, t) => .ok (some e, .ofTail c t.toEnd)
    else .ok (none, .all (c :: r))

def unsignedNumeral (negative : Bool) (s : List Char) : Except Fault (Numeral × Rest s) :=
  match wholePart s with
  | .error f => .error f
  | .ok (whole, t) =>
    match fractionPart t.val with
    | .error f => .error f
    | .ok (fraction, u) =>
      match exponentPart u.val with
      | .error f => .error f
      | .ok (exponent, v) =>
        .ok (⟨negative, whole, fraction, exponent⟩, (t.transEnd u).transEnd v)

def numeral (s : List Char) : Except Fault (Numeral × Rest s) :=
  match s with
  | '-' :: r =>
    match unsignedNumeral true r with
    | .error f => .error f
    | .ok (n, t) => .ok (n, .ofTail '-' t)
  | s => unsignedNumeral false s

/-! ## Values -/

inductive Number where
  | integer (n : Int)
  | double (x : Binary64)
  deriving DecidableEq

/-- Appends digits to a number while it stays below `2^64`; gives the number and how many digits were appended. -/
def appendDigits (n : Nat) : List Char → Nat × Nat
  | [] => (n, 0)
  | c :: r =>
    let n' := n * 10 + (c.toNat - '0'.toNat)
    if n' < 1 <<< 64 then
      let (m, k) := appendDigits n' r
      (m, k + 1)
    else (n, 0)

/-- As many leading digits as fit 64 bits, and the power of ten that goes with them. -/
def Numeral.significand (n : Numeral) : Nat × Int :=
  let (m, kept) := appendDigits 0 n.whole
  let (m, added) := appendDigits m n.fraction
  (m, (n.whole.length : Int) - kept - added)

/-- The greatest power of ten that is a double. -/
def greatestPower : Nat := 308

def powerOfTen (k : Nat) : Binary64 := .ofNat (Text.placeValue k)

/-- A number times a power of ten, unless it grows beyond all finite doubles; `k` greatest powers have been divided by
so far. -/
def scaleDown (x : Binary64) : Nat → Binary64
  | k => if k ≤ greatestPower then x / powerOfTen k
    else if x.isZero then x
    else scaleDown (x / powerOfTen greatestPower) (k - greatestPower)
termination_by k => k
decreasing_by simp only [greatestPower] at *; omega

def scale? (x : Binary64) (e : Int) : Option Binary64 :=
  if e < 0 then some (scaleDown x (-e).toNat)
  else if e ≤ greatestPower then
    match x * powerOfTen e.toNat with
    | .infinite _ => none
    | y => some y
  else if x.isZero then some x
  else none

/-- A double only if there is a point, an exponent, or a whole number beyond 64 bits. Zero with a minus is a double.
-/
def Numeral.value? (n : Numeral) : Option Number :=
  let (m, e) := n.significand
  let double := fun (x : Binary64) => Number.double (if n.negative then -x else x)
  if n.fraction.isEmpty && n.exponent.isNone && e == 0 then
    if !n.negative then some (.integer m)
    else if 0 < m ∧ m ≤ 1 <<< 63 then some (.integer (-(m : Int)))
    else some (double (.ofNat m))
  else (scale? (.ofNat m) (e + n.exponent.getD 0)).map double

end CpuMonitor.Json
