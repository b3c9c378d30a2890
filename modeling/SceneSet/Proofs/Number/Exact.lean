import SceneSet.Number.Binary
import Mathlib.Data.Rat.Lemmas
import Mathlib.Tactic.Ring

/-!
# Values that rounding keeps

Rounding gives a value of the format back unchanged (`Binary.round_mkRat`). A significand of
at most `precision` bits times a power of two is such a value (`Format.exists_units`), and so a
conversion to a format that is finer and wider is exact (`Binary.convert_finite`).
-/

namespace SceneSet.Number

/-- A quotient without remainder is not rounded. -/
theorem roundQuotient_mul_right (quotient : Nat) {den : Nat} (hden : 0 < den) :
    roundQuotient (quotient * den) den = quotient := by
  unfold roundQuotient
  simp [hden]

namespace Format

variable (f : Format)

theorem hidden_eq : f.hidden = 2 ^ (f.precision - 1) := Nat.one_shiftLeft _

theorem infinityCode_eq : f.infinityCode = (2 ^ f.exponentBits - 1) * f.hidden := by
  rw [infinityCode, Nat.one_shiftLeft]

theorem magnitude_eq (code : Nat) : f.magnitude code = mkRat (f.units code) (2 ^ f.scale) := by
  rw [magnitude, Nat.one_shiftLeft]

/-- Doubling the weight of the leading bit gives the bound of all significands. -/
theorem two_mul_hidden : 2 * f.hidden = 2 ^ f.precision := by
  have hprecision := f.two_le_precision
  rw [hidden_eq, ← Nat.pow_succ']
  congr 1
  omega

/-- Codes below two exponent fields count units directly. -/
theorem units_of_lt {code : Nat} (h : code < 2 * f.hidden) : f.units code = code := by
  rw [units, if_pos h]

/-- A code is put together from its exponent field and its fraction. -/
theorem units_add {exponent fraction : Nat} (hfraction : fraction < f.hidden) :
    f.units ((exponent + 1) * f.hidden + fraction) = (f.hidden + fraction) * 2 ^ exponent := by
  have hpos := f.hidden_pos
  have hdiv : ((exponent + 1) * f.hidden + fraction) / f.hidden = exponent + 1 := by
    rw [Nat.mul_comm, Nat.mul_add_div hpos, Nat.div_eq_of_lt hfraction, Nat.add_zero]
  have hmod : ((exponent + 1) * f.hidden + fraction) % f.hidden = fraction := by
    rw [Nat.mul_comm, Nat.mul_add_mod, Nat.mod_eq_of_lt hfraction]
  cases exponent with
  | zero => rw [f.units_of_lt (by omega)]; omega
  | succ exponent =>
      have hlarge : ¬ (exponent + 1 + 1) * f.hidden + fraction < 2 * f.hidden := by
        have := Nat.mul_le_mul_right f.hidden (show 2 ≤ exponent + 1 + 1 by omega)
        omega
      rw [units, if_neg hlarge, hdiv, hmod, Nat.shiftLeft_eq, Nat.add_sub_cancel]

/-- Every code from the first normal one on is an exponent field and a fraction. -/
theorem exists_eq_add {code : Nat} (h : f.hidden ≤ code) :
    ∃ exponent fraction, fraction < f.hidden ∧ code = (exponent + 1) * f.hidden + fraction := by
  have hpos := f.hidden_pos
  have hone : 1 ≤ code / f.hidden := (Nat.one_le_div_iff hpos).mpr h
  refine ⟨code / f.hidden - 1, code % f.hidden, Nat.mod_lt _ hpos, ?_⟩
  rw [Nat.sub_add_cancel hone, Nat.mul_comm]
  exact (Nat.div_add_mod code f.hidden).symm

/-- A code other than zero stands for some units. -/
theorem units_pos {code : Nat} (h : 0 < code) : 0 < f.units code := by
  by_cases hsmall : code < f.hidden
  · rw [f.units_of_lt (by omega)]
    exact h
  · obtain ⟨exponent, fraction, hfraction, rfl⟩ := f.exists_eq_add (Nat.le_of_not_lt hsmall)
    rw [f.units_add hfraction]
    exact Nat.mul_pos (by have := f.hidden_pos; omega) (Nat.two_pow_pos _)

/-- The leading bit of a normal significand decides the logarithm. -/
theorem log2_significand {fraction : Nat} (hfraction : fraction < f.hidden) (exponent : Nat) :
    ((f.hidden + fraction) * 2 ^ exponent).log2 = f.precision - 1 + exponent := by
  have hpos := Nat.two_pow_pos exponent
  have hsplit := f.two_mul_hidden
  have hprecision := f.two_le_precision
  rw [Nat.log2_eq_iff (Nat.mul_ne_zero (by have := f.hidden_pos; omega) (by omega))]
  constructor
  · rw [Nat.pow_add, ← hidden_eq]
    exact Nat.mul_le_mul_right _ (Nat.le_add_right _ _)
  · rw [show f.precision - 1 + exponent + 1 = f.precision + exponent by omega, Nat.pow_add,
      ← hsplit]
    exact Nat.mul_lt_mul_of_pos_right (by omega) hpos

/-- Rounding to the format keeps the magnitudes of the format. -/
theorem nearestCode_units (code : Nat) {den : Nat} (hden : 0 < den) :
    f.nearestCode (f.units code * den) den = code := by
  unfold nearestCode
  dsimp only
  rw [Nat.mul_div_cancel _ hden, Nat.shiftLeft_eq]
  -- below the first normal code nothing is shifted out, from there on the exponent is
  by_cases hsmall : code < f.hidden
  · have hprecision := f.two_le_precision
    have hlog : code.log2 - (f.precision - 1) = 0 := by
      rcases Nat.eq_zero_or_pos code with rfl | hpos
      · simp
      · have : code.log2 < f.precision - 1 :=
          (Nat.log2_lt (by omega)).mpr (f.hidden_eq ▸ hsmall)
        omega
    rw [f.units_of_lt (by omega), hlog]
    simp [roundQuotient_mul_right _ hden]
  · obtain ⟨exponent, fraction, hfraction, rfl⟩ := f.exists_eq_add (Nat.le_of_not_lt hsmall)
    rw [f.units_add hfraction, f.log2_significand hfraction, Nat.add_sub_cancel_left,
      show (f.hidden + fraction) * 2 ^ exponent * den
        = (f.hidden + fraction) * (den * 2 ^ exponent) by ring,
      roundQuotient_mul_right _ (Nat.mul_pos hden (Nat.two_pow_pos _))]
    ring

/-- A significand that fits the format, times a power of two, is a number of units. -/
theorem exists_units {significand : Nat} (hfits : significand < 2 ^ f.precision)
    (exponent : Nat) : ∃ code, f.units code = significand * 2 ^ exponent := by
  have hsplit := f.two_mul_hidden
  induction exponent generalizing significand with
  | zero => exact ⟨significand, by rw [f.units_of_lt (by omega), Nat.pow_zero, Nat.mul_one]⟩
  | succ exponent ih =>
      -- a significand without the leading bit takes one power of two over from the exponent
      by_cases hsmall : significand < f.hidden
      · have hdouble : 2 * significand < 2 ^ f.precision := by omega
        obtain ⟨code, hcode⟩ := ih hdouble
        exact ⟨code, by rw [hcode, Nat.pow_succ]; ring⟩
      · refine ⟨(exponent + 1 + 1) * f.hidden + (significand - f.hidden), ?_⟩
        rw [f.units_add (by omega), Nat.add_sub_cancel' (Nat.le_of_not_lt hsmall)]

/-- A code of so few units is the code of a finite magnitude. -/
theorem lt_infinityCode {code : Nat}
    (h : f.units code < f.hidden * 2 ^ (2 ^ f.exponentBits - 2)) : code < f.infinityCode := by
  by_contra hlarge
  have hexponents : 2 ^ 2 ≤ 2 ^ f.exponentBits :=
    Nat.pow_le_pow_right (by decide) f.two_le_exponentBits
  have hcode : f.infinityCode ≤ code := Nat.le_of_not_lt hlarge
  have hnormal : f.hidden ≤ f.infinityCode := by
    rw [infinityCode_eq]
    exact Nat.le_mul_of_pos_left _ (by omega)
  obtain ⟨exponent, fraction, hfraction, rfl⟩ := f.exists_eq_add (hnormal.trans hcode)
  have hexponent : 2 ^ f.exponentBits - 2 ≤ exponent := by
    have hlt : 2 ^ f.exponentBits - 1 < exponent + 1 + 1 := by
      apply Nat.lt_of_mul_lt_mul_right (a := f.hidden)
      rw [infinityCode_eq] at hcode
      calc (2 ^ f.exponentBits - 1) * f.hidden
          ≤ (exponent + 1) * f.hidden + fraction := hcode
        _ < (exponent + 1 + 1) * f.hidden := by rw [Nat.succ_mul (exponent + 1)]; omega
    omega
  rw [f.units_add hfraction] at h
  exact absurd h (Nat.not_lt_of_le (Nat.mul_le_mul (Nat.le_add_right _ _)
    (Nat.pow_le_pow_right (by decide) hexponent)))

/-- The magnitude of a finite code as a significand and an exponent. -/
theorem exists_significand {code : Nat} (h : code < f.infinityCode) :
    ∃ significand exponent, significand < 2 ^ f.precision ∧ exponent + 3 ≤ 2 ^ f.exponentBits ∧
      f.units code = significand * 2 ^ exponent := by
  have hsplit := f.two_mul_hidden
  have hexponents : 2 ^ 2 ≤ 2 ^ f.exponentBits :=
    Nat.pow_le_pow_right (by decide) f.two_le_exponentBits
  by_cases hsmall : code < f.hidden
  · refine ⟨code, 0, by omega, by omega, ?_⟩
    rw [f.units_of_lt (by omega), Nat.pow_zero, Nat.mul_one]
  · obtain ⟨exponent, fraction, hfraction, rfl⟩ := f.exists_eq_add (Nat.le_of_not_lt hsmall)
    refine ⟨f.hidden + fraction, exponent, by omega, ?_, f.units_add hfraction⟩
    rw [infinityCode_eq] at h
    have hlt : exponent + 1 < 2 ^ f.exponentBits - 1 :=
      Nat.lt_of_mul_lt_mul_right (Nat.lt_of_le_of_lt (Nat.le_add_right _ fraction) h)
    omega

/-- The finite numbers of a format are among those of a finer and wider one. -/
structure Includes (g f : Format) : Prop where
  precision : f.precision ≤ g.precision
  scale : f.scale ≤ g.scale
  range : f.precision + 2 ^ f.exponentBits + (g.scale - f.scale) ≤
    g.precision + 2 ^ g.exponentBits

theorem double_includes_single : double.Includes single := by
  constructor <;> decide

variable {f} {g : Format}

/-- A finite magnitude has a code in every format that includes its own. -/
theorem Includes.exists_code (h : g.Includes f) {code : Nat} (hcode : code < f.infinityCode) :
    ∃ other, other < g.infinityCode ∧
      g.units other = f.units code * 2 ^ (g.scale - f.scale) := by
  obtain ⟨significand, exponent, hsignificand, hexponent, hunits⟩ := f.exists_significand hcode
  have hfits : significand < 2 ^ g.precision :=
    Nat.lt_of_lt_of_le hsignificand (Nat.pow_le_pow_right (by decide) h.precision)
  obtain ⟨other, hother⟩ := g.exists_units hfits (exponent + (g.scale - f.scale))
  refine ⟨other, ?_, by rw [hother, hunits, Nat.pow_add, Nat.mul_assoc]⟩
  apply g.lt_infinityCode
  have hrange := h.range
  have hprecision := g.two_le_precision
  rw [hother]
  calc significand * 2 ^ (exponent + (g.scale - f.scale))
      < 2 ^ f.precision * 2 ^ (exponent + (g.scale - f.scale)) :=
        Nat.mul_lt_mul_of_pos_right hsignificand (Nat.two_pow_pos _)
    _ = 2 ^ (f.precision + (exponent + (g.scale - f.scale))) := (Nat.pow_add ..).symm
    _ ≤ 2 ^ (g.precision - 1 + (2 ^ g.exponentBits - 2)) :=
        Nat.pow_le_pow_right (by decide) (by omega)
    _ = g.hidden * 2 ^ (2 ^ g.exponentBits - 2) := by rw [Nat.pow_add, ← hidden_eq]

end Format

namespace Binary

variable {f g : Format}

/-- The integer of units that a finite number is. -/
def signedUnits (f : Format) (negative : Bool) (code : Nat) : Int :=
  if negative then -(f.units code : Int) else f.units code

theorem toRat_finite (negative : Bool) (code : Fin f.infinityCode) :
    (Binary.finite negative code).toRat = mkRat (signedUnits f negative code) (2 ^ f.scale) := by
  cases negative with
  | false => exact f.magnitude_eq code
  | true =>
      show -f.magnitude code = _
      rw [f.magnitude_eq, Rat.neg_mkRat]
      rfl

/-- Rounding keeps a number of units that has a code. -/
theorem round_mkRat (zeroNegative : Bool) {n : Int} {code : Nat} (h : n.natAbs = f.units code) :
    (round zeroNegative (mkRat n (2 ^ f.scale)) : Binary f) =
      ofCode (if n = 0 then zeroNegative else n < 0) code := by
  have hscale : 2 ^ f.scale ≠ 0 := Nat.pos_iff_ne_zero.mp (Nat.two_pow_pos _)
  generalize hvalue : mkRat n (2 ^ f.scale) = value
  have hcross : n * value.den = value.num * (2 ^ f.scale : Nat) := by
    rw [← Rat.mkRat_eq_iff hscale value.den_nz, Rat.mkRat_self, hvalue]
  have hden : (0 : Int) < value.den := Int.natCast_pos.mpr value.den_pos
  have htwo : (0 : Int) < (2 ^ f.scale : Nat) := Int.natCast_pos.mpr (Nat.two_pow_pos _)
  have hsign : value.num.sign = n.sign := by
    have := congrArg Int.sign hcross
    rw [Int.sign_mul, Int.sign_mul, Int.sign_eq_one_of_pos hden, Int.sign_eq_one_of_pos htwo,
      Int.mul_one, Int.mul_one] at this
    exact this.symm
  have hzero : value.num = 0 ↔ n = 0 := by
    rw [← Int.sign_eq_zero_iff_zero, hsign, Int.sign_eq_zero_iff_zero]
  have hneg : value.num < 0 ↔ n < 0 := by
    rw [← Int.sign_eq_neg_one_iff_neg, hsign, Int.sign_eq_neg_one_iff_neg]
  have habs : value.num.natAbs * 2 ^ f.scale = f.units code * value.den := by
    have := congrArg Int.natAbs hcross
    rw [Int.natAbs_mul, Int.natAbs_mul, Int.natAbs_natCast, Int.natAbs_natCast, h] at this
    exact this.symm
  unfold round
  rw [Nat.shiftLeft_eq, habs, f.nearestCode_units code value.den_pos]
  simp only [hzero, hneg]

/-- A finite number keeps its sign and its value in a format that includes its own. -/
theorem convert_finite (h : g.Includes f) (negative : Bool) (code : Fin f.infinityCode) :
    ∃ other, (convert (.finite negative code : Binary f) : Binary g) = .finite negative other ∧
      (Binary.finite negative other).toRat = (Binary.finite negative code).toRat := by
  obtain ⟨other, hother, hunits⟩ := h.exists_code code.isLt
  have hvalue : mkRat (signedUnits f negative code) (2 ^ f.scale) =
      mkRat (signedUnits g negative other) (2 ^ g.scale) := by
    rw [← Rat.mkRat_mul_right (n := signedUnits f negative code)
      (Nat.pos_iff_ne_zero.mp (Nat.two_pow_pos (g.scale - f.scale))), ← Nat.pow_add,
      Nat.add_sub_cancel' h.scale]
    congr 1
    cases negative <;> simp [signedUnits, hunits]
  have hunsigned : (signedUnits g negative other).natAbs = g.units other := by
    cases negative <;> simp [signedUnits]
  refine ⟨⟨other, hother⟩, ?_, ?_⟩
  · show round negative (Binary.finite negative code).toRat = _
    rw [toRat_finite, hvalue, round_mkRat negative hunsigned]
    unfold ofCode
    rw [dif_pos hother]
    congr 1
    cases negative <;> simp [signedUnits]
    omega
  · rw [toRat_finite, toRat_finite]
    exact hvalue.symm

end Binary

end SceneSet.Number
