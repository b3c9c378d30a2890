/-!
# Binary formats

A binary format is given by the sizes of its significand and of its exponent field. Its finite
magnitudes are numbered from zero upwards by codes: the code is what the format stores below the
sign bit, and codes are ordered as the magnitudes are. `Format.nearestCode` rounds an exact
quotient to the nearest magnitude, ties to even, with gradual underflow; overflow shows as a code
from `infinityCode` on.
-/

namespace SceneSet.Number

/-- The natural number nearest to `num / den`; a half goes to the even neighbour. -/
def roundQuotient (num den : Nat) : Nat :=
  let quotient := num / den
  let twice := 2 * (num % den)
  if twice < den then quotient
  else if den < twice then quotient + 1
  else if quotient % 2 = 0 then quotient
  else quotient + 1

/-- A binary format: the bits of its significand, the leading one included, and the bits of its
exponent field. -/
structure Format where
  precision : Nat
  exponentBits : Nat
  two_le_precision : 2 ≤ precision := by decide
  two_le_exponentBits : 2 ≤ exponentBits := by decide

namespace Format

/-- The 32-bit format. -/
def single : Format := ⟨24, 8, by decide, by decide⟩

/-- The 64-bit format. -/
def double : Format := ⟨53, 11, by decide, by decide⟩

/-- The weight of the leading bit of a significand, which is also the number of codes that share
an exponent field. -/
def hidden (f : Format) : Nat := 1 <<< (f.precision - 1)

/-- The least positive number of the format is `2 ^ (-scale)`; every finite number is a multiple
of it. -/
def scale (f : Format) : Nat := 1 <<< (f.exponentBits - 1) + f.precision - 3

/-- The code of infinity: the codes below it are those of the finite magnitudes. -/
def infinityCode (f : Format) : Nat := (1 <<< f.exponentBits - 1) * f.hidden

/-- How many times the least positive number goes into the magnitude with this code. -/
def units (f : Format) (code : Nat) : Nat :=
  if code < 2 * f.hidden then code
  else (f.hidden + code % f.hidden) <<< (code / f.hidden - 1)

/-- The magnitude with this code. -/
def magnitude (f : Format) (code : Nat) : Rat :=
  mkRat (f.units code) (1 <<< f.scale)

/-- The code of the magnitude nearest to `num / den` least positive numbers, ties to even. Codes
from `infinityCode` on stand for an overflow. The significand is rounded to the bits that are
left after `shift` of them are dropped; a carry out of it moves to the next exponent by itself. -/
def nearestCode (f : Format) (num den : Nat) : Nat :=
  let shift := (num / den).log2 - (f.precision - 1)
  shift * f.hidden + roundQuotient num (den <<< shift)

theorem hidden_pos (f : Format) : 0 < f.hidden := by
  rw [hidden, Nat.one_shiftLeft]
  exact Nat.two_pow_pos _

theorem infinityCode_pos (f : Format) : 0 < f.infinityCode := by
  have two_le : 2 ^ 1 ≤ 2 ^ f.exponentBits :=
    Nat.pow_le_pow_right (by decide) (Nat.le_trans (by decide) f.two_le_exponentBits)
  rw [infinityCode, Nat.one_shiftLeft]
  exact Nat.mul_pos (by omega) f.hidden_pos

end Format

end SceneSet.Number
