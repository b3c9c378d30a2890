import SceneSet.Number.Decimal
import SceneSet.Proofs.Number.Nearest
import SceneSet.Proofs.Number.Symmetry
import Mathlib.Data.Rat.Cast.Order
import Mathlib.Tactic.FieldSimp
import Mathlib.Tactic.Positivity

/-!
# Shortest decimal numbers

A shortest decimal number reads back as the magnitude that it was searched for
(`Decimal.code_shortest`). If no shorter one does, the one with the greatest count of digits that is
searched does, because these digits tell more numbers apart than the format has significands. What a
decimal number reads as depends on its value alone (`Decimal.code_eq_of_value_eq`).
-/

namespace SceneSet.Number

namespace Decimal

/-- The value of a decimal number. -/
def value (d : Decimal) : ℚ := d.digits * 10 ^ d.exponent

theorem den_pos (d : Decimal) : 0 < d.den := Nat.pow_pos (by decide)

/-- A power of ten is a quotient of two natural numbers. -/
theorem ten_zpow (exponent : Int) :
    (10 : ℚ) ^ exponent * 10 ^ (-exponent).toNat = 10 ^ exponent.toNat := by
  rw [← zpow_natCast, ← zpow_natCast, ← zpow_add₀ (by decide)]
  congr 1
  omega

theorem value_mul_den (d : Decimal) : d.value * d.den = d.num := by
  have hden : (d.den : ℚ) = 10 ^ (-d.exponent).toNat := by
    unfold den
    push_cast [Nat.pow_eq]
    rfl
  have hnum : (d.num : ℚ) = d.digits * 10 ^ d.exponent.toNat := by
    unfold num
    push_cast [Nat.pow_eq]
    rfl
  rw [hden, hnum, value, mul_assoc, ten_zpow]

/-- What a decimal number reads as depends on its value alone. -/
theorem code_eq_of_value_eq (f : Format) {d e : Decimal} (h : d.value = e.value) :
    d.code f = e.code f := by
  have hcross : d.num * e.den = e.num * d.den := by
    have hrat : (d.num : ℚ) * e.den = e.num * d.den := by
      rw [← value_mul_den, ← value_mul_den, h]
      ring
    exact_mod_cast hrat
  unfold code
  apply f.nearestCode_eq_of_mul_eq d.den_pos e.den_pos
  rw [Nat.shiftLeft_eq, Nat.shiftLeft_eq, Nat.mul_right_comm, hcross, Nat.mul_right_comm]

/-- A quotient that is at least a power of ten, without negative exponents. -/
theorem ten_zpow_le_iff {num den : Nat} (exponent : Int) :
    (10 : ℚ) ^ exponent * den ≤ num ↔
      den * Nat.pow 10 exponent.toNat ≤ num * Nat.pow 10 (-exponent).toNat := by
  have hpos : (0 : ℚ) < 10 ^ (-exponent).toNat := by positivity
  rw [← mul_le_mul_iff_left₀ hpos, mul_right_comm, ten_zpow, ← Nat.cast_le (α := ℚ)]
  push_cast [Nat.pow_eq]
  rw [mul_comm]

/-- The leading exponent is not too great. -/
theorem leadingExponent_le {num den : Nat} (hnum : 0 < num) (hden : 0 < den) :
    (10 : ℚ) ^ leadingExponent num den * den ≤ num := by
  unfold leadingExponent
  split
  · rename_i hle
    have hquotient : 0 < num / den := Nat.div_pos hle hden
    have hlength : 0 < (Numeral.digits (num / den)).length := Nat.length_toDigits_pos
    have hpow : 10 ^ ((Numeral.digits (num / den)).length - 1) ≤ num / den := by
      rcases Nat.lt_or_ge 1 (Numeral.digits (num / den)).length with hlong | hshort
      · by_contra hlt
        have := (Nat.length_toDigits_le_iff (b := 10) (by decide) (by omega)).mpr
          (Nat.lt_of_not_le hlt)
        unfold Numeral.digits at this hlong
        omega
      · rw [show (Numeral.digits (num / den)).length - 1 = 0 by omega]
        exact hquotient
    have hnat : 10 ^ ((Numeral.digits (num / den)).length - 1) * den ≤ num :=
      (Nat.le_div_iff_mul_le hden).mp hpow
    rw [← Nat.cast_pred hlength, zpow_natCast]
    exact_mod_cast hnat
  · have hpow : (den - 1) / num < 10 ^ (Numeral.digits ((den - 1) / num)).length :=
      (Nat.length_toDigits_le_iff (by decide) Nat.length_toDigits_pos).mp (Nat.le_refl _)
    have hnat : den ≤ 10 ^ (Numeral.digits ((den - 1) / num)).length * num := by
      have := (Nat.div_lt_iff_lt_mul hnum).mp hpow
      omega
    rw [zpow_neg, zpow_natCast, inv_mul_le_iff₀ (by positivity)]
    exact_mod_cast hnat

/-- The nearer neighbour on a grid is near to a number that is much greater than the step. -/
theorem near_of_grid {f : Format} {code parts : Nat} {exponent : Int}
    (h : parts * (1 <<< f.scale * Nat.pow 10 exponent.toNat) ≤
      f.units code * Nat.pow 10 (-exponent).toNat) (fallback : Decimal) :
    let d := (neighbours (f.units code) (1 <<< f.scale) exponent).headD fallback
    Format.Near parts (f.units code) (d.num <<< f.scale) d.den := by
  have hstep : 0 < 1 <<< f.scale * Nat.pow 10 exponent.toNat := by
    rw [Nat.one_shiftLeft]
    exact Nat.mul_pos (Nat.two_pow_pos _) (Nat.pow_pos (by decide))
  have hnear := Format.near_roundQuotient hstep h
  rw [Nat.one_shiftLeft, Nat.mul_comm (2 ^ f.scale), ← Nat.mul_assoc, ← Nat.shiftLeft_eq,
    Nat.mul_comm (Nat.pow 10 exponent.toNat), ← Nat.one_shiftLeft] at hnear
  exact hnear

/-- A shortest decimal number reads as the magnitude that it was searched for, if the digits that
are searched are enough for the format. -/
theorem code_shortest {f : Format} {maxDigits code : Nat} (hcode : 0 < code)
    (hdigits : 2 ^ f.precision < 10 ^ (maxDigits - 1)) (hmax : 0 < maxDigits) :
    (shortest f maxDigits code).code f = code := by
  have hunits : 0 < f.units code := f.units_pos hcode
  have hden : 0 < 1 <<< f.scale := by
    rw [Nat.one_shiftLeft]
    exact Nat.two_pow_pos _
  unfold shortest
  dsimp only
  generalize hlead : leadingExponent (f.units code) (1 <<< f.scale) = lead
  generalize hhit : List.findSome? _ (List.range' 1 maxDigits) = hit
  cases hit with
  | some d =>
      obtain ⟨count, -, hfound⟩ := List.exists_of_findSome?_eq_some hhit
      have hreads := List.find?_some hfound
      exact eq_of_beq hreads
  | none =>
      -- the step of the last grid is small enough
      have hgrid := leadingExponent_le hunits hden
      rw [hlead, show lead = lead + 1 - maxDigits + (maxDigits - 1 : Nat) by omega,
        zpow_add₀ (by decide), mul_assoc, zpow_natCast, ← Nat.cast_ofNat, ← Nat.cast_pow,
        ← Nat.cast_mul, Nat.cast_ofNat, ten_zpow_le_iff, Nat.mul_assoc] at hgrid
      exact f.nearestCode_near (den_pos _) hdigits (near_of_grid hgrid ⟨0, 0⟩)

end Decimal

end SceneSet.Number
