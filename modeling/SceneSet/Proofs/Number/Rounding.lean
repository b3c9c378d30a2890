import SceneSet.Proofs.Number.Nearest
import SceneSet.Proofs.Number.Symmetry
import Mathlib.Algebra.Order.Field.Basic
import Mathlib.Data.Rat.Cast.Order
import Mathlib.Tactic.FieldSimp
import Mathlib.Tactic.Linarith
import Mathlib.Tactic.NormNum
import Mathlib.Tactic.Positivity

/-!
# How far rounding moves a value

A value is rounded to a number that is off by at most `roundoff` of it, or by half of the least
positive number where the numbers of the format are evenly spaced (`Binary.abs_toRat_round_sub_le`).
It overflows just from `limit` on, up to a rounding (`Binary.isFinite_round`), and vanishes just if
it is at most half of the least positive number (`Binary.isZero_round_iff`). A sum of two numbers is
never off by more than `roundoff` of it, as it is a whole number of units.
-/

namespace SceneSet.Number

/-- A quotient between two integers is rounded to one of them or between them. -/
theorem roundQuotient_mem {num den low high : Nat} (hden : 0 < den) (hlow : low * den ≤ num)
    (hhigh : num ≤ high * den) :
    low ≤ roundQuotient num den ∧ roundQuotient num den ≤ high := by
  obtain ⟨hbelow, habove⟩ := roundQuotient_near num hden
  constructor
  · by_contra hlt
    have hstep : (roundQuotient num den + 1) * den ≤ low * den :=
      Nat.mul_le_mul_right den (Nat.not_le.mp hlt)
    rw [Nat.add_mul] at hstep
    omega
  · by_contra hlt
    have hstep : (high + 1) * den ≤ roundQuotient num den * den :=
      Nat.mul_le_mul_right den (Nat.not_le.mp hlt)
    rw [Nat.add_mul] at hstep
    omega

/-- A quotient is rounded to zero just if it is at most a half. -/
theorem roundQuotient_eq_zero {num den : Nat} (hden : 0 < den) :
    roundQuotient num den = 0 ↔ 2 * num ≤ den := by
  constructor
  · intro h
    obtain ⟨hbelow, -⟩ := roundQuotient_near num hden
    rw [h] at hbelow
    omega
  · intro h
    have hquotient : num / den = 0 := Nat.div_eq_of_lt (by omega)
    have hmod : num % den = num := Nat.mod_eq_of_lt (by omega)
    unfold roundQuotient
    dsimp only
    rw [hquotient, hmod]
    split
    · rfl
    · rw [if_neg (by omega)]
      rfl

namespace Format

variable (f : Format)

/-- The least positive number. -/
def unit : ℚ := 1 / 2 ^ f.scale

/-- The part of a value that rounding to nearest may change, underflow apart. -/
def roundoff : ℚ := 1 / 2 ^ f.precision

/-- The least power of two above all finite numbers. -/
def limit : ℚ := f.hidden * 2 ^ (2 ^ f.exponentBits - 2) * f.unit

theorem unit_pos : 0 < f.unit := by
  unfold unit
  positivity

theorem roundoff_pos : 0 < f.roundoff := by
  unfold roundoff
  positivity

/-- A magnitude is its units. -/
theorem magnitude_eq_mul_unit (code : Nat) : f.magnitude code = f.units code * f.unit := by
  rw [f.magnitude_eq, Rat.mkRat_eq_div, unit]
  push_cast
  rw [mul_one_div]

/-- A carry out of the significand moves to the next exponent. -/
theorem units_carry {shift significand : Nat} (hlow : shift = 0 ∨ f.hidden ≤ significand)
    (hhigh : significand ≤ 2 * f.hidden) :
    f.units (shift * f.hidden + significand) = significand * 2 ^ shift := by
  have hpos := f.hidden_pos
  rcases Nat.lt_or_ge significand f.hidden with hsmall | hlarge
  · obtain rfl : shift = 0 := hlow.resolve_right (Nat.not_le.mpr hsmall)
    rw [f.units_of_lt (by omega)]
    omega
  · rcases Nat.lt_or_ge significand (2 * f.hidden) with hplain | hcarry
    · have hcode : shift * f.hidden + significand =
          (shift + 1) * f.hidden + (significand - f.hidden) := by
        rw [Nat.add_mul]
        omega
      rw [hcode, f.units_add (by omega), Nat.add_sub_cancel' hlarge]
    · obtain rfl : significand = 2 * f.hidden := Nat.le_antisymm hhigh hcarry
      have hcode : shift * f.hidden + 2 * f.hidden = (shift + 1 + 1) * f.hidden + 0 := by ring
      rw [hcode, f.units_add hpos, Nat.pow_succ]
      ring

/-- The nearest code stands for a multiple of the step that the quotient is rounded with. The step
is a unit, or far smaller than the quotient. -/
theorem units_nearestCode (num : Nat) {den : Nat} (hden : 0 < den) :
    ∃ shift, f.units (f.nearestCode num den) = roundQuotient num (den * 2 ^ shift) * 2 ^ shift ∧
      (shift = 0 ∨ f.hidden * 2 ^ shift * den ≤ num) ∧
      f.nearestCode num den = shift * f.hidden + roundQuotient num (den * 2 ^ shift) := by
  have hsplit := f.two_mul_hidden
  have hprecision := f.two_le_precision
  generalize hshift : (num / den).log2 - (f.precision - 1) = shift
  have hcode : f.nearestCode num den = shift * f.hidden + roundQuotient num (den * 2 ^ shift) := by
    unfold nearestCode
    dsimp only
    rw [hshift, Nat.shiftLeft_eq]
  have hstep : 0 < den * 2 ^ shift := Nat.mul_pos hden (Nat.two_pow_pos _)
  -- the quotient is below the next power of two
  have habove : num ≤ 2 * f.hidden * (den * 2 ^ shift) := by
    have hlog : num / den < 2 ^ (f.precision + shift) :=
      Nat.lt_of_lt_of_le Nat.lt_log2_self (Nat.pow_le_pow_right (by decide) (by omega))
    rw [Nat.div_lt_iff_lt_mul hden, Nat.pow_add, ← hsplit] at hlog
    refine Nat.le_of_lt (Nat.lt_of_lt_of_eq hlog ?_)
    ring
  have hbelow : shift = 0 ∨ f.hidden * 2 ^ shift * den ≤ num := by
    rcases Nat.eq_zero_or_pos shift with hzero | hpos
    · exact .inl hzero
    · right
      have hlog : 2 ^ (f.precision - 1 + shift) ≤ num / den := by
        rw [show f.precision - 1 + shift = (num / den).log2 by omega]
        refine Nat.log2_self_le fun hzero => ?_
        rw [hzero] at hshift
        simp at hshift
        omega
      rw [Nat.le_div_iff_mul_le hden, Nat.pow_add, ← hidden_eq] at hlog
      exact hlog
  refine ⟨shift, ?_, hbelow, hcode⟩
  rw [hcode]
  refine f.units_carry ?_ (roundQuotient_mem hstep (Nat.zero_mul _ ▸ Nat.zero_le _) habove).2
  refine hbelow.imp_right fun h => (roundQuotient_mem hstep ?_ habove).1
  calc f.hidden * (den * 2 ^ shift) = f.hidden * 2 ^ shift * den := by ring
    _ ≤ num := h

/-- The nearest magnitude is at most half of the step away. -/
theorem abs_roundQuotient_sub_le (num : Nat) {den : Nat} (hden : 0 < den) (shift : Nat) :
    |(roundQuotient num (den * 2 ^ shift) * 2 ^ shift : ℚ) - num / den| ≤ 2 ^ shift / 2 := by
  have hdenRat : (0 : ℚ) < den := by exact_mod_cast hden
  obtain ⟨hbelow, habove⟩ := roundQuotient_near num (Nat.mul_pos hden (Nat.two_pow_pos shift))
  have hvalue : (num : ℚ) / den * den = num := div_mul_cancel₀ _ hdenRat.ne'
  rw [← Nat.cast_le (α := ℚ)] at hbelow habove
  push_cast at hbelow habove
  rw [← hvalue] at hbelow habove
  rw [abs_le]
  constructor
  · refine le_of_mul_le_mul_right ?_ hdenRat
    linarith
  · refine le_of_mul_le_mul_right ?_ hdenRat
    linarith

/-- A step that is not a unit is far smaller than the quotient. -/
theorem step_le {num den shift : Nat} (hden : 0 < den) (h : f.hidden * 2 ^ shift * den ≤ num) :
    (2 ^ shift / 2 : ℚ) ≤ f.roundoff * (num / den) := by
  have hdenRat : (0 : ℚ) < den := by exact_mod_cast hden
  have hsplit : (2 ^ f.precision : ℚ) = 2 * f.hidden := by exact_mod_cast f.two_mul_hidden.symm
  have hhidden : (0 : ℚ) < f.hidden := by exact_mod_cast f.hidden_pos
  have hquotient : (f.hidden * 2 ^ shift : ℚ) ≤ num / den := by
    rw [le_div_iff₀ hdenRat]
    exact_mod_cast h
  unfold roundoff
  rw [hsplit, one_div_mul_eq_div, div_le_div_iff₀ (by positivity) (by positivity)]
  linarith

/-- The nearest magnitude is nearer than half a unit or than `roundoff` of the quotient. -/
theorem abs_units_nearestCode_sub_le (num : Nat) {den : Nat} (hden : 0 < den) :
    |(f.units (f.nearestCode num den) : ℚ) - num / den| ≤
      max (f.roundoff * (num / den)) (1 / 2) := by
  obtain ⟨shift, hunits, hshift, -⟩ := f.units_nearestCode num hden
  have hhalf := abs_roundQuotient_sub_le num hden shift
  rw [hunits]
  push_cast
  refine hhalf.trans ?_
  rcases hshift with rfl | hlarge
  · exact le_max_of_le_right (by norm_num)
  · exact le_max_of_le_left (f.step_le hden hlarge)

/-- The nearest magnitude to a whole number of units is nearer than `roundoff` of it. -/
theorem abs_units_nearestCode_sub_le_of_dvd {num den : Nat} (hden : 0 < den) (hdvd : den ∣ num) :
    |(f.units (f.nearestCode num den) : ℚ) - num / den| ≤ f.roundoff * (num / den) := by
  obtain ⟨shift, hunits, hshift, -⟩ := f.units_nearestCode num hden
  rcases hshift with rfl | hlarge
  · obtain ⟨quotient, rfl⟩ := hdvd
    have hdenRat : (den : ℚ) ≠ 0 := by exact_mod_cast hden.ne'
    have hroundoff := f.roundoff_pos
    rw [hunits, Nat.pow_zero, Nat.mul_one, Nat.mul_one, Nat.mul_comm,
      roundQuotient_mul_right _ hden]
    push_cast
    rw [mul_div_cancel_right₀ _ hdenRat, sub_self, abs_zero]
    positivity
  · rw [hunits]
    push_cast
    exact (abs_roundQuotient_sub_le num hden shift).trans (f.step_le hden hlarge)

/-- The code of a quotient is zero just if the quotient is at most half a unit. -/
theorem nearestCode_eq_zero {num den : Nat} (hden : 0 < den) :
    f.nearestCode num den = 0 ↔ 2 * num ≤ den := by
  obtain ⟨shift, -, hshift, hcode⟩ := f.units_nearestCode num hden
  have hpos := f.hidden_pos
  have hpow := Nat.two_pow_pos shift
  rw [hcode, Nat.add_eq_zero_iff, roundQuotient_eq_zero (Nat.mul_pos hden hpow)]
  constructor
  · rintro ⟨hzero, hsmall⟩
    obtain rfl : shift = 0 := (Nat.mul_eq_zero.mp hzero).resolve_right hpos.ne'
    simpa using hsmall
  · intro hsmall
    rcases hshift with rfl | hlarge
    · simpa using hsmall
    · -- a step that is not a unit belongs to a quotient of at least one
      have hone : 1 * den ≤ f.hidden * 2 ^ shift * den :=
        Nat.mul_le_mul_right den (Nat.mul_pos hpos hpow)
      omega

/-- The finite codes are those of less than `limit`. -/
theorem units_mul_unit_lt_limit_iff (code : Nat) :
    (f.units code * f.unit : ℚ) < f.limit ↔ code < f.infinityCode := by
  have hpos := f.hidden_pos
  unfold limit
  rw [mul_lt_mul_iff_left₀ f.unit_pos]
  constructor
  · intro h
    exact f.lt_infinityCode (by exact_mod_cast h)
  · intro h
    obtain ⟨significand, exponent, hsignificand, hexponent, hunits⟩ := f.exists_significand h
    have hlt : f.units code < f.hidden * 2 ^ (2 ^ f.exponentBits - 2) := by
      rw [← f.two_mul_hidden] at hsignificand
      calc f.units code = significand * 2 ^ exponent := hunits
        _ < 2 * f.hidden * 2 ^ exponent :=
          Nat.mul_lt_mul_of_pos_right hsignificand (Nat.two_pow_pos _)
        _ = f.hidden * 2 ^ (exponent + 1) := by ring
        _ ≤ f.hidden * 2 ^ (2 ^ f.exponentBits - 2) :=
          Nat.mul_le_mul_left _ (Nat.pow_le_pow_right (by decide) (by omega))
    exact_mod_cast hlt

end Format

namespace Binary

variable {f g : Format}

/-! ### Values -/

theorem abs_toRat_finite (negative : Bool) (code : Fin f.infinityCode) :
    |(finite negative code).toRat| = f.units code * f.unit := by
  have hpos : 0 ≤ f.units code * f.unit := mul_nonneg (Nat.cast_nonneg _) f.unit_pos.le
  rw [← f.magnitude_eq_mul_unit] at hpos ⊢
  cases negative with
  | false => exact abs_of_nonneg hpos
  | true => exact (abs_neg _).trans (abs_of_nonneg hpos)

/-- Numbers have values below the limit. -/
theorem abs_toRat_lt_limit (x : Binary f) : |x.toRat| < f.limit := by
  have hpos : 0 < f.limit := by
    have hhidden : (0 : ℚ) < f.hidden := by exact_mod_cast f.hidden_pos
    have hunit := f.unit_pos
    unfold Format.limit
    positivity
  cases x with
  | nan => simpa [toRat] using hpos
  | infinite negative => simpa [toRat] using hpos
  | finite negative code =>
      rw [abs_toRat_finite]
      exact (f.units_mul_unit_lt_limit_iff code).mpr code.isLt

/-- The value of a number is a whole number of units. -/
theorem exists_toRat_eq (x : Binary f) : ∃ n : ℤ, x.toRat = n * f.unit := by
  cases x with
  | nan => exact ⟨0, by simp [toRat]⟩
  | infinite negative => exact ⟨0, by simp [toRat]⟩
  | finite negative code =>
      refine ⟨signedUnits f negative code, ?_⟩
      rw [toRat_finite, Rat.mkRat_eq_div, Format.unit]
      push_cast
      rw [mul_one_div]

/-- A positive number is at least the least positive number. -/
theorem unit_le_toRat {x : Binary f} (hpos : 0 < x.toRat) : f.unit ≤ x.toRat := by
  obtain ⟨n, hn⟩ := exists_toRat_eq x
  rw [hn] at hpos ⊢
  have hone : (1 : ℤ) ≤ n := by
    have : (0 : ℚ) < n := pos_of_mul_pos_left hpos f.unit_pos.le
    exact_mod_cast this
  exact le_mul_of_one_le_left f.unit_pos.le (by exact_mod_cast hone)

/-- Of the finite numbers just the zeros have the value zero. -/
theorem toRat_eq_zero_iff {x : Binary f} (h : x.isFinite) : x.toRat = 0 ↔ x.isZero := by
  cases x with
  | nan => cases h
  | infinite negative => cases h
  | finite negative code =>
      rw [← abs_eq_zero, abs_toRat_finite, mul_eq_zero, or_iff_left f.unit_pos.ne', Nat.cast_eq_zero]
      show _ ↔ (code.val == 0) = true
      rw [beq_iff_eq]
      constructor
      · intro hunits
        by_contra hcode
        exact (f.units_pos (Nat.pos_of_ne_zero hcode)).ne' hunits
      · intro hcode
        rw [hcode]
        exact f.units_of_lt (by have := f.hidden_pos; omega)

/-! ### Rounding -/

/-- How many units a value is, as the quotient that is rounded. -/
theorem units_of_value (f : Format) (value : ℚ) :
    ((value.num.natAbs <<< f.scale : Nat) : ℚ) / value.den * f.unit = |value| := by
  have hden : (value.den : ℚ) ≠ 0 := by exact_mod_cast value.den_nz
  have habs : ((value.num.natAbs : Nat) : ℚ) / value.den = |value| := by
    rw [Nat.cast_natAbs, Int.cast_abs]
    nth_rewrite 3 [← Rat.num_div_den value]
    rw [abs_div, Nat.abs_cast]
  rw [Nat.shiftLeft_eq, ← habs, Format.unit]
  push_cast
  field_simp

/-- The magnitude that a value is rounded to. -/
def nearestMagnitude (f : Format) (value : ℚ) : ℚ :=
  f.units (f.nearestCode (value.num.natAbs <<< f.scale) value.den) * f.unit

theorem nearestMagnitude_nonneg (f : Format) (value : ℚ) : 0 ≤ nearestMagnitude f value :=
  mul_nonneg (Nat.cast_nonneg _) f.unit_pos.le

/-- The nearest magnitude is off by at most `roundoff` of the value or half a unit. -/
theorem abs_nearestMagnitude_sub_le (f : Format) (value : ℚ) :
    |nearestMagnitude f value - (abs value)| ≤ max (f.roundoff * |value|) (f.unit / 2) := by
  have hnear := f.abs_units_nearestCode_sub_le (value.num.natAbs <<< f.scale) value.den_pos
  have hunit := f.unit_pos
  rw [nearestMagnitude, ← units_of_value f value, ← sub_mul, abs_mul, abs_of_pos hunit,
    ← mul_assoc, show f.unit / 2 = 1 / 2 * f.unit by ring, ← max_mul_of_nonneg _ _ hunit.le]
  exact mul_le_mul_of_nonneg_right hnear hunit.le

/-- A whole number of units is off by at most `roundoff` of it. -/
theorem abs_nearestMagnitude_sub_le_of_units {value : ℚ} (h : ∃ n : ℤ, value = n * f.unit) :
    |nearestMagnitude f value - (abs value)| ≤ f.roundoff * |value| := by
  obtain ⟨n, hn⟩ := h
  have hdvd : value.den ∣ value.num.natAbs <<< f.scale := by
    have hden : (value.den : ℚ) ≠ 0 := by exact_mod_cast value.den_nz
    have hcross : value.num * 2 ^ f.scale = n * value.den := by
      have hrat : (value.num : ℚ) * 2 ^ f.scale = n * value.den := by
        rw [← Rat.num_div_den value, Format.unit, mul_one_div, div_eq_div_iff hden (by positivity)]
          at hn
        exact hn
      exact_mod_cast hrat
    rw [Nat.shiftLeft_eq]
    refine ⟨n.natAbs, ?_⟩
    have habs := congrArg Int.natAbs hcross
    rw [Int.natAbs_mul, Int.natAbs_mul, Int.natAbs_natCast, Int.natAbs_pow] at habs
    exact habs.trans (Nat.mul_comm ..)
  have hnear := f.abs_units_nearestCode_sub_le_of_dvd value.den_pos hdvd
  have hunit := f.unit_pos
  rw [nearestMagnitude, ← units_of_value f value, ← sub_mul, abs_mul, abs_of_pos hunit,
    ← mul_assoc]
  exact mul_le_mul_of_nonneg_right hnear hunit.le

/-- A finite result has the sign of the value and the nearest magnitude. -/
theorem toRat_round {zeroNegative : Bool} {value : ℚ}
    (h : (round zeroNegative value : Binary f).isFinite) :
    (round zeroNegative value : Binary f).toRat =
      if value < 0 then -nearestMagnitude f value else nearestMagnitude f value := by
  unfold round ofCode at h ⊢
  split at h
  · rename_i hcode
    rw [dif_pos hcode]
    simp only [toRat, nearestMagnitude, f.magnitude_eq_mul_unit]
    rcases eq_or_ne value 0 with rfl | hne
    · have hzero : f.units 0 = 0 := f.units_of_lt (by have := f.hidden_pos; omega)
      simp [f.nearestCode_zero, hzero]
    · simp only [if_neg (Rat.num_ne_zero.mpr hne), decide_eq_true_eq, Rat.num_neg]
  · cases h

theorem toRat_round_nonneg {zeroNegative : Bool} {value : ℚ}
    (h : (round zeroNegative value : Binary f).isFinite) (hvalue : 0 ≤ value) :
    0 ≤ (round zeroNegative value : Binary f).toRat := by
  rw [toRat_round h, if_neg (not_lt.mpr hvalue)]
  exact nearestMagnitude_nonneg f value

/-- The distance of a finite result to the value. -/
theorem abs_toRat_round_sub {zeroNegative : Bool} {value : ℚ}
    (h : (round zeroNegative value : Binary f).isFinite) :
    |(round zeroNegative value : Binary f).toRat - value| =
      |nearestMagnitude f value - (abs value)| := by
  rw [toRat_round h]
  split
  · rename_i hneg
    rw [abs_of_neg hneg, ← abs_neg]
    congr 1
    ring
  · rename_i hpos
    rw [abs_of_nonneg (not_lt.mp hpos)]

/-- A value is rounded to a number that is off by at most `roundoff` of it or half a unit. -/
theorem abs_toRat_round_sub_le {zeroNegative : Bool} {value : ℚ}
    (h : (round zeroNegative value : Binary f).isFinite) :
    |(round zeroNegative value : Binary f).toRat - value| ≤
      max (f.roundoff * |value|) (f.unit / 2) := by
  rw [abs_toRat_round_sub h]
  exact abs_nearestMagnitude_sub_le f value

/-- A value overflows just if the nearest magnitude does. -/
theorem isFinite_round_iff {zeroNegative : Bool} {value : ℚ} :
    (round zeroNegative value : Binary f).isFinite ↔ nearestMagnitude f value < f.limit := by
  rw [nearestMagnitude, f.units_mul_unit_lt_limit_iff]
  unfold round ofCode
  split
  · rename_i hcode
    exact ⟨fun _ => hcode, fun _ => rfl⟩
  · rename_i hcode
    exact ⟨fun h => (by cases h), fun h => absurd h hcode⟩

/-- A value that stays below the limit with its rounding is rounded to a finite number. -/
theorem isFinite_round {zeroNegative : Bool} {value : ℚ}
    (h : |value| + max (f.roundoff * |value|) (f.unit / 2) < f.limit) :
    (round zeroNegative value : Binary f).isFinite := by
  have hnear := (abs_le.mp (abs_nearestMagnitude_sub_le f value)).2
  exact isFinite_round_iff.mpr (by linarith)

/-- Values up to half a unit vanish. -/
theorem isZero_round_iff {zeroNegative : Bool} {value : ℚ} :
    (round zeroNegative value : Binary f).isZero ↔ |value| ≤ f.unit / 2 := by
  have hden : (0 : ℚ) < value.den := by exact_mod_cast value.den_pos
  have hvalue : |value| ≤ f.unit / 2 ↔ 2 * value.num.natAbs <<< f.scale ≤ value.den := by
    rw [← units_of_value f value, show f.unit / 2 = 1 / 2 * f.unit by ring,
      mul_le_mul_iff_left₀ f.unit_pos, div_le_div_iff₀ hden (by norm_num), ← Nat.cast_le (α := ℚ)]
    push_cast
    constructor <;> intro h <;> linarith
  rw [hvalue, ← f.nearestCode_eq_zero value.den_pos]
  unfold round ofCode
  split
  · exact beq_iff_eq
  · rename_i hcode
    refine ⟨fun h => (by cases h), fun h => ?_⟩
    rw [h] at hcode
    exact absurd f.infinityCode_pos hcode

/-! ### Operations -/

variable {x y : Binary f}

theorem isZero_convert (h : x.isZero) : (convert x : Binary g).isZero := by
  obtain ⟨negative, rfl⟩ := exists_eq_zero h
  show (round negative (zero negative : Binary f).toRat).isZero
  rw [toRat_zero]
  exact isZero_round_zero negative

/-- Finite numbers are given by a sign and a code. -/
theorem exists_eq_finite (h : x.isFinite) : ∃ negative code, x = finite negative code := by
  cases x with
  | nan => cases h
  | infinite negative => cases h
  | finite negative code => exact ⟨negative, code, rfl⟩

theorem convert_eq_round (h : x.isFinite) :
    ∃ negative, (convert x : Binary g) = round negative x.toRat := by
  obtain ⟨s, c, rfl⟩ := exists_eq_finite h
  exact ⟨s, rfl⟩

theorem add_eq_round (hx : x.isFinite) (hy : y.isFinite) :
    ∃ negative, x + y = round negative (x.toRat + y.toRat) := by
  obtain ⟨s, c, rfl⟩ := exists_eq_finite hx
  obtain ⟨t, d, rfl⟩ := exists_eq_finite hy
  exact ⟨s && t, rfl⟩

theorem sub_eq_round (hx : x.isFinite) (hy : y.isFinite) :
    ∃ negative, x - y = round negative (x.toRat - y.toRat) := by
  obtain ⟨s, c, rfl⟩ := exists_eq_finite hx
  obtain ⟨t, d, rfl⟩ := exists_eq_finite hy
  refine ⟨s && !t, ?_⟩
  rw [Rat.sub_eq_add_neg, ← toRat_neg]
  rfl

theorem mul_eq_round (hx : x.isFinite) (hy : y.isFinite) :
    ∃ negative, x * y = round negative (x.toRat * y.toRat) := by
  obtain ⟨s, c, rfl⟩ := exists_eq_finite hx
  obtain ⟨t, d, rfl⟩ := exists_eq_finite hy
  exact ⟨s != t, rfl⟩

theorem div_eq_round (hx : x.isFinite) (hy : y.isFinite) (hzero : ¬ y.isZero) :
    ∃ negative, x / y = round negative (x.toRat / y.toRat) := by
  obtain ⟨s, c, rfl⟩ := exists_eq_finite hx
  obtain ⟨t, d, rfl⟩ := exists_eq_finite hy
  have hcode : ¬ d.val = 0 := fun hcode => hzero (beq_iff_eq.mpr hcode)
  exact ⟨s != t, if_neg hcode⟩

/-- A sum is finite only if its terms are. -/
theorem isFinite_of_add (h : (x + y).isFinite) : x.isFinite ∧ y.isFinite := by
  change (add x y).isFinite at h
  cases x with
  | nan => cases y <;> cases h
  | infinite s =>
      cases y with
      | nan => cases h
      | infinite t => cases s <;> cases t <;> cases h
      | finite t d => cases h
  | finite s c =>
      cases y with
      | nan => cases h
      | infinite t => cases h
      | finite t d => exact ⟨rfl, rfl⟩

/-- A difference is finite only if its terms are. -/
theorem isFinite_of_sub (h : (x - y).isFinite) : x.isFinite ∧ y.isFinite := by
  obtain ⟨hx, hy⟩ := isFinite_of_add (y := neg y) h
  refine ⟨hx, ?_⟩
  cases y with
  | nan => exact hy
  | infinite s => exact hy
  | finite s c => rfl

/-- A product is finite only if its factors are. -/
theorem isFinite_of_mul (h : (x * y).isFinite) : x.isFinite ∧ y.isFinite := by
  change (mul x y).isFinite at h
  cases x with
  | nan => cases y <;> cases h
  | infinite s =>
      cases y with
      | nan => cases h
      | infinite t => cases h
      | finite t d =>
          change (if d.val = 0 then nan else infinite (s != t) : Binary f).isFinite at h
          split at h <;> cases h
  | finite s c =>
      cases y with
      | nan => cases h
      | infinite t =>
          change (if c.val = 0 then nan else infinite (s != t) : Binary f).isFinite at h
          split at h <;> cases h
      | finite t d => exact ⟨rfl, rfl⟩

/-- A sum is a whole number of units, so it is never off by more than `roundoff` of it. -/
theorem abs_toRat_add_sub_le (h : (x + y).isFinite) :
    |(x + y).toRat - (x.toRat + y.toRat)| ≤ f.roundoff * |x.toRat + y.toRat| := by
  obtain ⟨hx, hy⟩ := isFinite_of_add h
  obtain ⟨n, hn⟩ := exists_toRat_eq x
  obtain ⟨m, hm⟩ := exists_toRat_eq y
  obtain ⟨negative, hsum⟩ := add_eq_round hx hy
  rw [hsum] at h ⊢
  rw [abs_toRat_round_sub h]
  exact abs_nearestMagnitude_sub_le_of_units ⟨n + m, by rw [hn, hm]; push_cast; ring⟩

/-! ### Roots -/

/-- A quotient of units is rounded as the value that it stands for. -/
theorem round_quotient {num den : Nat} (hnum : 0 < num) (hden : 0 < den) :
    (round false (num / den * f.unit) : Binary f) = ofCode false (f.nearestCode num den) := by
  have hnumRat : (0 : ℚ) < num := by exact_mod_cast hnum
  have hdenRat : (0 : ℚ) < den := by exact_mod_cast hden
  have hunit := f.unit_pos
  have hpos : (0 : ℚ) < num / den * f.unit := by positivity
  have hvalue := units_of_value f (num / den * f.unit)
  rw [abs_of_pos hpos] at hvalue
  have hsame := mul_right_cancel₀ hunit.ne' hvalue
  generalize (num / den * f.unit : ℚ) = value at hpos hsame ⊢
  have hvalueDen : (value.den : ℚ) ≠ 0 := by exact_mod_cast value.den_nz
  have hcross : value.num.natAbs <<< f.scale * den = num * value.den := by
    rw [div_eq_div_iff hvalueDen hdenRat.ne'] at hsame
    exact_mod_cast hsame
  have hsign : 0 < value.num := Rat.num_pos.mpr hpos
  unfold round
  rw [f.nearestCode_eq_of_mul_eq value.den_pos hden hcross, if_neg hsign.ne',
    decide_eq_false (not_lt.mpr hsign.le)]

/-- Twice the root of a square number, or the next odd number if there is a remainder. -/
def stickyRoot (square : Nat) : Nat :=
  2 * square.sqrt + if square.sqrt * square.sqrt = square then 0 else 1

/-- The square of a sticky root is off by at most four times the root. -/
theorem stickyRoot_sq (square : Nat) :
    stickyRoot square ^ 2 ≤ 4 * square + 4 * square.sqrt ∧
      4 * square ≤ stickyRoot square ^ 2 + 4 * square.sqrt := by
  have hle := square.sqrt_le
  have hlt := square.lt_succ_sqrt
  rw [Nat.succ_mul_succ] at hlt
  unfold stickyRoot
  generalize square.sqrt = root at hle hlt ⊢
  split
  · rename_i heq
    constructor <;> nlinarith
  · rename_i hne
    have hgap : root * root + 1 ≤ square := Nat.lt_of_le_of_ne hle hne
    constructor <;> nlinarith

/-- A sticky root of a square with many bits is nearly its root. -/
theorem abs_stickyRoot_sq_sub_le {square bits : Nat} (h : 2 ^ (2 * bits) ≤ square) :
    |(stickyRoot square : ℚ) ^ 2 / 4 - square| ≤ 1 / 2 ^ bits * (square : ℚ) := by
  obtain ⟨habove, hbelow⟩ := stickyRoot_sq square
  have hroot : square.sqrt * 2 ^ bits ≤ square := by
    have hbits : 2 ^ bits ≤ square.sqrt := by
      rw [Nat.le_sqrt', ← Nat.pow_mul, Nat.mul_comm]
      exact h
    exact (Nat.mul_le_mul_left _ hbits).trans square.sqrt_le
  have hrootRat : (square.sqrt : ℚ) ≤ 1 / 2 ^ bits * square := by
    rw [one_div_mul_eq_div, le_div_iff₀ (by positivity)]
    exact_mod_cast hroot
  rw [← Nat.cast_le (α := ℚ)] at habove hbelow
  push_cast at habove hbelow
  rw [abs_le]
  constructor <;> linarith

theorem sqrt_finite {code : Fin f.infinityCode} (hcode : ¬ code.val = 0) :
    sqrt (finite false code) = ofCode false (f.nearestCode
      (stickyRoot (f.units code <<< (f.scale + 2 * (f.precision + 1))))
      (2 <<< (f.precision + 1))) :=
  (if_neg hcode).trans (if_neg Bool.false_ne_true)

/-- The root of a positive number is rounded from a value whose square is off by at most `roundoff`
of it. -/
theorem exists_sqrt_eq_round (hx : x.isFinite) (hpos : 0 < x.toRat) :
    ∃ root : ℚ, 0 < root ∧ |root ^ 2 - x.toRat| ≤ f.roundoff * x.toRat ∧
      sqrt x = round false root := by
  obtain ⟨negative, code, rfl⟩ := exists_eq_finite hx
  have hunit := f.unit_pos
  have hnonneg : 0 ≤ f.magnitude code := by
    rw [f.magnitude_eq_mul_unit]
    positivity
  have hsign : negative = false := by
    by_contra hneg
    rw [Bool.not_eq_false] at hneg
    subst hneg
    exact absurd hpos (not_lt.mpr (neg_nonpos.mpr hnonneg))
  subst hsign
  have hcode : ¬ code.val = 0 := by
    intro hzero
    have hiszero : (finite false code).isZero := beq_iff_eq.mpr hzero
    rw [← toRat_eq_zero_iff hx] at hiszero
    exact hpos.ne' hiszero
  have hunits : 0 < f.units code := f.units_pos (Nat.pos_of_ne_zero hcode)
  have hvalue : (finite false code).toRat = f.units code * f.unit := f.magnitude_eq_mul_unit code
  -- the number is this square in units of which the least positive number has `2 ^ extra`
  generalize hextra : f.precision + 1 = extra
  generalize hsquare : f.units code <<< (f.scale + 2 * extra) = square
  have hsquareRat : (square : ℚ) * (f.unit / 2 ^ extra) ^ 2 = f.units code * f.unit := by
    rw [← hsquare, Nat.shiftLeft_eq, Format.unit]
    push_cast
    rw [pow_add, pow_mul, pow_right_comm]
    field_simp
  have hlarge : 2 ^ (2 * f.precision) ≤ square := by
    rw [← hsquare, Nat.shiftLeft_eq]
    calc 2 ^ (2 * f.precision) ≤ 2 ^ (f.scale + 2 * extra) :=
          Nat.pow_le_pow_right (by decide) (by omega)
      _ ≤ f.units code * 2 ^ (f.scale + 2 * extra) := Nat.le_mul_of_pos_left _ hunits
  have htwice : 0 < stickyRoot square := by
    have hroot : 0 < square.sqrt := Nat.sqrt_pos.mpr (Nat.lt_of_lt_of_le (Nat.two_pow_pos _) hlarge)
    unfold stickyRoot
    omega
  have hden : 0 < 2 <<< extra := by
    rw [Nat.shiftLeft_eq]
    positivity
  have htwiceRat : (0 : ℚ) < stickyRoot square := by exact_mod_cast htwice
  refine ⟨stickyRoot square / (2 <<< extra : Nat) * f.unit, ?_, ?_, ?_⟩
  · have hdenRat : (0 : ℚ) < (2 <<< extra : Nat) := by exact_mod_cast hden
    positivity
  · have hnear := abs_stickyRoot_sq_sub_le hlarge
    have hfactor : (stickyRoot square / (2 <<< extra : Nat) * f.unit : ℚ) ^ 2 =
        stickyRoot square ^ 2 / 4 * (f.unit / 2 ^ extra) ^ 2 := by
      rw [Nat.shiftLeft_eq]
      push_cast
      field_simp
      norm_num
    have hscale : 0 ≤ (f.unit / 2 ^ extra) ^ 2 := sq_nonneg _
    rw [hvalue, hfactor, ← hsquareRat, ← sub_mul, abs_mul, abs_of_nonneg hscale, ← mul_assoc]
    exact mul_le_mul_of_nonneg_right hnear hscale
  · rw [sqrt_finite hcode, hextra, hsquare, round_quotient htwice hden]

end Binary

end SceneSet.Number
