/-!
# Double-precision numbers

`Binary64` : the numbers of the IEEE 754 format binary64 as exact values. All NaNs are one value.

A finite magnitude is held as its code, the number that its exponent and fraction bits spell. Codes and magnitudes
ascend together, and the magnitude is `units code` units of `2^-1074`, so exact arithmetic on doubles is arithmetic on
whole numbers.

* `Binary64.ofBits`, `Binary64.toBits` : the bits of a number.
* `ofBits_toBits` : the bits tell the number.
* `Binary64.signedUnits` : the exact value of a finite number.
-/

set_option autoImplicit false

namespace CpuMonitor

/-- The number of finite magnitudes: 2047 exponents with `2^52` fractions each. -/
abbrev finiteCodes : Nat := 2047 <<< 52

inductive Binary64 where
  | nan
  | infinite (negative : Bool)
  | finite (negative : Bool) (code : Fin finiteCodes)
  deriving DecidableEq

namespace Binary64

/-- One, in units of `2^-1074`. -/
abbrev unitsOfOne : Nat := 1 <<< 1074

theorem unitsOfOne_pos : 0 < unitsOfOne := Nat.shiftLeft_pos_iff.2 Nat.one_pos

/-- From the second exponent on a leading bit stands before the fraction. -/
def units (code : Nat) : Nat :=
  let exponent := code >>> 52
  let fraction := code % 1 <<< 52
  if exponent = 0 then fraction else (1 <<< 52 + fraction) <<< (exponent - 1)

/-- The number with a sign and a code; codes past the finite ones stand for infinity. -/
def ofCode (negative : Bool) (code : Nat) : Binary64 :=
  if h : code < finiteCodes then .finite negative ⟨code, h⟩ else .infinite negative

def zero (negative : Bool) : Binary64 := ofCode negative 0

instance : Inhabited Binary64 := ⟨zero false⟩

/-- The exact value in units of `2^-1074`; zero for a number that is not finite. -/
def signedUnits : Binary64 → Int
  | .finite negative code => if negative then -(units code : Int) else units code
  | _ => 0

def isNegative : Binary64 → Bool
  | .nan => false
  | .infinite negative => negative
  | .finite negative _ => negative

def isZero : Binary64 → Bool
  | .finite _ code => code.val == 0
  | _ => false

/-- More than zero; infinity is, a NaN is not. -/
def isPositive : Binary64 → Bool
  | .nan => false
  | .infinite negative => !negative
  | .finite negative code => !negative && code.val != 0

/-! ## Bits -/

abbrev infiniteCode : Nat := finiteCodes

def signBit (negative : Bool) : Nat := if negative then 1 <<< 63 else 0

def ofBits (bits : UInt64) : Binary64 :=
  let negative := decide (1 <<< 63 ≤ bits.toNat)
  let code := bits.toNat % 1 <<< 63
  if infiniteCode < code then .nan else ofCode negative code

/-- The bits of a number; a NaN is written with the first fraction bit alone. -/
def toBits : Binary64 → UInt64
  | .nan => UInt64.ofNat (infiniteCode + 1 <<< 51)
  | .infinite negative => UInt64.ofNat (signBit negative + infiniteCode)
  | .finite negative code => UInt64.ofNat (signBit negative + code)

theorem signBit_add_toNat (negative : Bool) {c : Nat} (h : c < 1 <<< 63) :
    (UInt64.ofNat (signBit negative + c)).toNat = signBit negative + c := by
  rw [UInt64.toNat_ofNat']
  cases negative <;> simp [signBit] <;> omega

theorem ofBits_toBits (x : Binary64) : ofBits (toBits x) = x := by
  cases x with
  | nan => decide
  | infinite negative => cases negative <;> decide
  | finite negative code =>
    obtain ⟨c, hc⟩ := code
    have h63 : c < 1 <<< 63 := Nat.lt_trans hc (by decide)
    have hmod : (signBit negative + c) % 1 <<< 63 = c := by cases negative <;> simp [signBit] <;> omega
    have hsign : decide (1 <<< 63 ≤ signBit negative + c) = negative := by cases negative <;> simp [signBit]; omega
    simp only [ofBits, toBits, signBit_add_toNat negative h63, hmod, hsign]
    rw [if_neg (by simpa using Nat.le_of_lt hc), ofCode, dif_pos hc]

end Binary64

end CpuMonitor
