import CpuMonitor.Binary64.Basic

/-!
# Rounding to double precision

* `divEven num den` : the whole number nearest to a quotient, ties to even.
* `nearestCode num den` : the code of the double nearest to `num / den` units of `2^-1074`, ties to even.
* `Binary64.ofRatio` : the double nearest to a quotient.
* `le_divEven`, `divEven_le` : `divEven` is off by half the divisor at most.
-/

set_option autoImplicit false

namespace CpuMonitor

/-- The whole number nearest to `num / den`, and of two equally near ones the even one. -/
def divEven (num den : Nat) : Nat :=
  let q := num / den
  let r := num % den
  if 2 * r < den then q else if den < 2 * r then q + 1 else q + q % 2

theorem le_divEven (num den : Nat) (h : 0 < den) : 2 * num ≤ 2 * (divEven num den * den) + den := by
  have hr := Nat.mod_lt num h
  have hd := Nat.div_add_mod num den
  simp only [divEven]
  split
  · rw [Nat.mul_comm] at hd; omega
  · split
    · rw [Nat.add_mul, Nat.one_mul]; rw [Nat.mul_comm] at hd; omega
    · rw [Nat.add_mul]; rw [Nat.mul_comm] at hd; omega

theorem divEven_le (num den : Nat) (h : 0 < den) : 2 * (divEven num den * den) ≤ 2 * num + den := by
  have hr := Nat.mod_lt num h
  have hd := Nat.div_add_mod num den
  rw [Nat.mul_comm] at hd
  simp only [divEven]
  split
  · omega
  · split
    · rw [Nat.add_mul, Nat.one_mul]; omega
    · rw [Nat.add_mul]
      have : num / den % 2 * den ≤ den := by
        rcases Nat.mod_two_eq_zero_or_one (num / den) with h | h <;> simp [h]
      omega

theorem divEven_mul (q den : Nat) (h : 0 < den) : divEven (q * den) den = q := by
  simp [divEven, Nat.mul_div_cancel q h, h]

namespace Binary64

/-- The quotient is cut to its 53 leading bits; a carry out of them moves the code into the next exponent, and in the
last one past all finite codes. -/
def nearestCode (num den : Nat) : Nat :=
  let shift := Nat.log2 (num / den) - 52
  shift <<< 52 + divEven num (den <<< shift)

/-- The double nearest to `num / den` units of `2^-1074`, with a sign. -/
def ofRatio (negative : Bool) (num den : Nat) : Binary64 := ofCode negative (nearestCode num den)

def ofNat (n : Nat) : Binary64 := ofRatio false (n * unitsOfOne) 1

end Binary64

end CpuMonitor
