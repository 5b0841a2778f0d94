import CpuMonitor.Binary64.Rounding

/-!
# Arithmetic in double precision

Sums, differences, products and quotients are the exact results rounded once. An exact zero takes the sign that the
format gives it: a sum is negative only if both terms are, a product or a quotient if the signs differ.

* `Binary64.floor`, `Binary64.floor_finite` : the greatest whole number that is not greater.
* `Binary64.roundToNat` : the nearest whole number, halves away from zero, cut to a range.
-/

set_option autoImplicit false

namespace CpuMonitor.Binary64

/-- The double nearest to a number of units; `negativeZero` is the sign of zero. -/
def ofUnits (negativeZero : Bool) (n : Int) : Binary64 :=
  if n = 0 then zero negativeZero else ofRatio (n < 0) n.natAbs 1

def neg : Binary64 → Binary64
  | .nan => .nan
  | .infinite negative => .infinite !negative
  | .finite negative code => .finite (!negative) code

def add : Binary64 → Binary64 → Binary64
  | .nan, _ => .nan
  | _, .nan => .nan
  | .infinite a, .infinite b => if a = b then .infinite a else .nan
  | .infinite a, .finite .. => .infinite a
  | .finite .., .infinite b => .infinite b
  | .finite a m, .finite b n => ofUnits (a && b) (signedUnits (.finite a m) + signedUnits (.finite b n))

def sub (x y : Binary64) : Binary64 := add x (neg y)

def mul : Binary64 → Binary64 → Binary64
  | .nan, _ => .nan
  | _, .nan => .nan
  | .infinite a, y => if y.isZero then .nan else .infinite (a != y.isNegative)
  | x, .infinite b => if x.isZero then .nan else .infinite (x.isNegative != b)
  | .finite a m, .finite b n => ofRatio (a != b) (units m * units n) unitsOfOne

def div : Binary64 → Binary64 → Binary64
  | .nan, _ => .nan
  | _, .nan => .nan
  | .infinite _, .infinite _ => .nan
  | .infinite a, .finite b _ => .infinite (a != b)
  | .finite a _, .infinite b => zero (a != b)
  | .finite a m, .finite b n =>
    if n.val = 0 then if m.val = 0 then .nan else .infinite (a != b)
    else ofRatio (a != b) (units m * unitsOfOne) (units n)

instance : Neg Binary64 := ⟨neg⟩
instance : Add Binary64 := ⟨add⟩
instance : Sub Binary64 := ⟨sub⟩
instance : Mul Binary64 := ⟨mul⟩
instance : Div Binary64 := ⟨div⟩

def floor : Binary64 → Binary64
  | .finite negative code => ofUnits negative (Int.fdiv (signedUnits (.finite negative code)) unitsOfOne * unitsOfOne)
  | x => x

/-- The floor is `n` for the numbers from `n` to below `n + 1`. -/
theorem floor_finite {negative : Bool} {code : Fin finiteCodes} {n : Int}
    (hle : n * unitsOfOne ≤ signedUnits (.finite negative code))
    (hlt : signedUnits (.finite negative code) < (n + 1) * unitsOfOne) :
    floor (.finite negative code) = ofUnits negative (n * unitsOfOne) := by
  have hpos : (0 : Int) < unitsOfOne := Int.natCast_pos.2 unitsOfOne_pos
  have hdiv : Int.fdiv (signedUnits (.finite negative code)) unitsOfOne = n := by
    rw [Int.fdiv_eq_ediv_of_nonneg _ (Int.le_of_lt hpos), Int.ediv_eq_iff_of_pos hpos]
    rw [Int.add_mul, Int.one_mul] at hlt
    exact ⟨hle, hlt⟩
  rw [floor, hdiv]

/-- The nearest whole number, halves away from zero, cut to the range from zero to `limit`; zero for a NaN. -/
def roundToNat (limit : Nat) : Binary64 → Nat
  | .nan => 0
  | .infinite negative => if negative then 0 else limit
  | .finite negative code => if negative then 0 else min limit ((2 * units code + unitsOfOne) / (2 * unitsOfOne))

end CpuMonitor.Binary64
