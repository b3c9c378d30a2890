import SceneSet.Proofs.Number.Exact
import Mathlib.Tactic.Linarith

/-!
# Quotients near a number of the format

`Format.nearestCode` depends on the value of a quotient only (`Format.nearestCode_eq_of_mul_eq`),
and it gives a code back for every quotient that is nearer to its magnitude than `precision` bits
can tell (`Format.nearestCode_near`). Below the least magnitude with some exponent the numbers lie
twice as dense as above it, which is why nearness is measured by the magnitude itself.
-/

namespace SceneSet.Number

/-- Rounding depends on the value of a quotient only. -/
theorem roundQuotient_mul_mul (num den : Nat) {factor : Nat} (hfactor : 0 < factor) :
    roundQuotient (num * factor) (den * factor) = roundQuotient num den := by
  unfold roundQuotient
  rw [Nat.mul_div_mul_right _ _ hfactor, Nat.mul_mod_mul_right, ← Nat.mul_assoc]
  simp only [Nat.mul_lt_mul_right hfactor]

/-- A quotient is rounded to a number that is nearer than a half. -/
theorem roundQuotient_of_near {num den n : Nat} (hbelow : 2 * num < 2 * (n * den) + den)
    (habove : 2 * (n * den) < 2 * num + den) : roundQuotient num den = n := by
  have hden : 0 < den := by omega
  have hsplit := Nat.div_add_mod num den
  have hmod := Nat.mod_lt num hden
  rw [Nat.mul_comm] at hsplit
  unfold roundQuotient
  dsimp only
  -- the quotient is `n` or the number below it
  have hle : num / den ≤ n := by
    rw [← Nat.lt_succ_iff, Nat.div_lt_iff_lt_mul hden, Nat.succ_mul]
    omega
  rcases Nat.lt_or_ge (num / den) n with hlt | hge
  · have hprevious : num / den + 1 = n := by
      by_contra hother
      have hgap : (num / den + 2) * den ≤ n * den := Nat.mul_le_mul_right den (by omega)
      rw [Nat.add_mul] at hgap
      omega
    rw [← hprevious, Nat.add_mul, Nat.one_mul] at habove
    rw [if_neg (by omega), if_pos (by omega), hprevious]
  · have hsame : num / den = n := by omega
    rw [hsame] at hsplit
    rw [hsame, if_pos (by omega)]

/-- The distance of a quotient to the number that it is rounded to is at most a half. -/
theorem roundQuotient_near (num : Nat) {den : Nat} (hden : 0 < den) :
    2 * num ≤ 2 * (roundQuotient num den * den) + den ∧
      2 * (roundQuotient num den * den) ≤ 2 * num + den := by
  have hsplit := Nat.div_add_mod num den
  have hmod := Nat.mod_lt num hden
  rw [Nat.mul_comm] at hsplit
  unfold roundQuotient
  dsimp only
  split
  · constructor <;> omega
  · split
    · rw [Nat.add_mul]
      constructor <;> omega
    · split
      · constructor <;> omega
      · rw [Nat.add_mul]
        constructor <;> omega

namespace Format

variable (f : Format)

/-- The nearest code depends on the value of a quotient only. -/
theorem nearestCode_mul_mul (num den : Nat) {factor : Nat} (hfactor : 0 < factor) :
    f.nearestCode (num * factor) (den * factor) = f.nearestCode num den := by
  unfold nearestCode
  dsimp only
  rw [Nat.mul_div_mul_right _ _ hfactor, Nat.shiftLeft_eq, Nat.shiftLeft_eq,
    Nat.mul_right_comm den factor, roundQuotient_mul_mul _ _ hfactor]

theorem nearestCode_eq_of_mul_eq {num den other otherDen : Nat} (hden : 0 < den)
    (hother : 0 < otherDen) (h : num * otherDen = other * den) :
    f.nearestCode num den = f.nearestCode other otherDen := by
  rw [← f.nearestCode_mul_mul num den hother, h, Nat.mul_comm den otherDen,
    f.nearestCode_mul_mul other otherDen hden]

/-- The exponent that a quotient is rounded with, if its leading bit is not below that of every
normal significand. -/
theorem shift_eq {num den exponent : Nat} (hbelow : f.hidden * 2 ^ exponent * den ≤ num)
    (habove : num < 2 * f.hidden * 2 ^ exponent * den) :
    (num / den).log2 - (f.precision - 1) = exponent := by
  have hprecision := f.two_le_precision
  have hpos : 0 < f.hidden * 2 ^ exponent := Nat.mul_pos f.hidden_pos (Nat.two_pow_pos _)
  have hden : 0 < den := by
    by_contra hzero
    rw [show den = 0 by omega, Nat.mul_zero] at habove
    omega
  have hle : f.hidden * 2 ^ exponent ≤ num / den := (Nat.le_div_iff_mul_le hden).mpr hbelow
  have hlt : num / den < 2 * f.hidden * 2 ^ exponent := (Nat.div_lt_iff_lt_mul hden).mpr habove
  have hlog : (num / den).log2 = f.precision - 1 + exponent := by
    rw [Nat.log2_eq_iff (by omega), show f.precision - 1 + exponent + 1 = f.precision + exponent by
      omega, Nat.pow_add, Nat.pow_add, ← hidden_eq, ← two_mul_hidden]
    exact ⟨hle, hlt⟩
  omega

/-- Quotients below the normal significands are rounded to units. -/
theorem shift_eq_zero {num den : Nat} (h : num < 2 * f.hidden * den) :
    (num / den).log2 - (f.precision - 1) = 0 := by
  have hprecision := f.two_le_precision
  rcases Nat.lt_or_ge num (f.hidden * den) with hsmall | hlarge
  · have hlt : num / den < 2 ^ (f.precision - 1) := by
      rw [← hidden_eq]
      exact Nat.div_lt_of_lt_mul (Nat.mul_comm .. ▸ hsmall)
    have hlog : (num / den).log2 ≤ f.precision - 1 := by
      rcases Nat.eq_zero_or_pos (num / den) with hzero | hpos
      · rw [hzero]
        simp
      · exact Nat.le_of_lt ((Nat.log2_lt (by omega)).mpr hlt)
    omega
  · apply f.shift_eq
    · simpa using hlarge
    · simpa using h

/-- The quotient `num / den` differs from `units` by at most one part in `2 * parts`. -/
structure Near (parts units num den : Nat) : Prop where
  below : 2 * parts * num ≤ 2 * parts * (units * den) + units * den
  above : 2 * parts * (units * den) ≤ 2 * parts * num + units * den

variable {f} {parts num den : Nat}

/-- Rounding to multiples of a step leaves a number near that is much greater than the step. -/
theorem near_roundQuotient {units step : Nat} (hstep : 0 < step)
    (h : parts * step ≤ units * den) :
    Near parts units (roundQuotient (units * den) step * step) den := by
  obtain ⟨hbelow, habove⟩ := roundQuotient_near (units * den) hstep
  constructor
  · nlinarith
  · nlinarith

/-- A quotient that is near to a significand with some exponent is rounded to it, if that is the
exponent that it is rounded with. -/
theorem Near.roundQuotient_eq {significand exponent : Nat} (hden : 0 < den)
    (hparts : significand < parts)
    (h : Near parts (significand * 2 ^ exponent) num den) :
    roundQuotient num (den * 2 ^ exponent) = significand := by
  have hstep : 0 < den * 2 ^ exponent := Nat.mul_pos hden (Nat.two_pow_pos _)
  have hscaled : significand * 2 ^ exponent * den = significand * (den * 2 ^ exponent) := by ring
  have hsmall : significand * (den * 2 ^ exponent) < parts * (den * 2 ^ exponent) :=
    Nat.mul_lt_mul_of_pos_right hparts hstep
  obtain ⟨hbelow, habove⟩ := h
  rw [hscaled] at hbelow habove
  generalize den * 2 ^ exponent = step at *
  apply roundQuotient_of_near
  · apply Nat.lt_of_mul_lt_mul_left (a := parts)
    calc parts * (2 * num) = 2 * parts * num := by ring
      _ ≤ 2 * parts * (significand * step) + significand * step := hbelow
      _ < 2 * parts * (significand * step) + parts * step := by omega
      _ = parts * (2 * (significand * step) + step) := by ring
  · apply Nat.lt_of_mul_lt_mul_left (a := parts)
    calc parts * (2 * (significand * step)) = 2 * parts * (significand * step) := by ring
      _ ≤ 2 * parts * num + significand * step := habove
      _ < 2 * parts * num + parts * step := by omega
      _ = parts * (2 * num + step) := by ring

/-- A quotient that is near to a significand, with the exponent that it is rounded with, is rounded
to that. -/
theorem Near.nearestCode_eq {significand exponent : Nat} (hden : 0 < den)
    (hparts : significand < parts) (h : Near parts (significand * 2 ^ exponent) num den)
    (hshift : (num / den).log2 - (f.precision - 1) = exponent) :
    f.nearestCode num den = exponent * f.hidden + significand := by
  unfold nearestCode
  dsimp only
  rw [hshift, Nat.shiftLeft_eq, h.roundQuotient_eq hden hparts]

/-- A number near to a significand is above the one below it and below the one above it. -/
theorem Near.bounds {significand exponent : Nat} (hden : 0 < den) (hparts : significand < parts)
    (h : Near parts (significand * 2 ^ exponent) num den) :
    num < (significand + 1) * 2 ^ exponent * den ∧
      significand * 2 ^ exponent * den < num + 2 ^ exponent * den := by
  have hstep : 0 < 2 ^ exponent * den := Nat.mul_pos (Nat.two_pow_pos _) hden
  have hscaled : significand * 2 ^ exponent * den = significand * (2 ^ exponent * den) := by ring
  have hnext : (significand + 1) * 2 ^ exponent * den =
      significand * (2 ^ exponent * den) + 2 ^ exponent * den := by ring
  obtain ⟨hbelow, habove⟩ := h
  rw [hscaled] at hbelow habove
  rw [hscaled, hnext]
  generalize 2 ^ exponent * den = step at *
  have hsmall : significand * step < parts * step := Nat.mul_lt_mul_of_pos_right hparts hstep
  constructor
  · apply Nat.lt_of_mul_lt_mul_left (a := 2 * parts)
    calc 2 * parts * num ≤ 2 * parts * (significand * step) + significand * step := hbelow
      _ < 2 * parts * (significand * step) + 2 * parts * step := by nlinarith
      _ = 2 * parts * (significand * step + step) := by ring
  · apply Nat.lt_of_mul_lt_mul_left (a := 2 * parts)
    calc 2 * parts * (significand * step) ≤ 2 * parts * num + significand * step := habove
      _ < 2 * parts * num + 2 * parts * step := by nlinarith
      _ = 2 * parts * (num + step) := by ring

/-- A quotient that is near to a magnitude is rounded to it. -/
theorem nearestCode_near {code : Nat} (hden : 0 < den) (hparts : 2 ^ f.precision < parts)
    (h : Near parts (f.units code) num den) : f.nearestCode num den = code := by
  have hsplit := f.two_mul_hidden
  by_cases hsmall : code < f.hidden
  · -- without a leading bit
    rw [f.units_of_lt (by omega), ← Nat.mul_one code, ← Nat.pow_zero 2] at h
    have hbound : num < 2 * f.hidden * den := by
      have habove := (h.bounds hden (by omega)).1
      have hle : (code + 1) * 2 ^ 0 * den ≤ 2 * f.hidden * den :=
        Nat.mul_le_mul_right den (by omega)
      omega
    rw [h.nearestCode_eq hden (by omega) (f.shift_eq_zero hbound), Nat.zero_mul, Nat.zero_add]
  · obtain ⟨exponent, fraction, hfraction, rfl⟩ := f.exists_eq_add (Nat.le_of_not_lt hsmall)
    rw [f.units_add hfraction] at h
    obtain ⟨habove, hbelow⟩ := h.bounds hden (by omega)
    have hupper : num < 2 * f.hidden * 2 ^ exponent * den :=
      Nat.lt_of_lt_of_le habove
        (Nat.mul_le_mul_right den (Nat.mul_le_mul_right (2 ^ exponent) (by omega)))
    rcases Nat.lt_or_ge num (f.hidden * 2 ^ exponent * den) with hlow | hhigh
    · -- only the least significand can be above the quotient, and that has a binade below it
      have hzero : fraction = 0 := by
        by_contra hpos
        have hgap : (f.hidden + 1) * 2 ^ exponent * den ≤
            (f.hidden + fraction) * 2 ^ exponent * den :=
          Nat.mul_le_mul_right den (Nat.mul_le_mul_right (2 ^ exponent) (by omega))
        rw [Nat.add_mul, Nat.add_mul, Nat.one_mul] at hgap
        omega
      subst hzero
      rw [Nat.add_zero] at h
      cases exponent with
      | zero =>
          rw [h.nearestCode_eq hden (by omega) (f.shift_eq_zero (by simpa using hupper))]
          omega
      | succ exponent =>
          rw [show f.hidden * 2 ^ (exponent + 1) = 2 * f.hidden * 2 ^ exponent by
            rw [Nat.pow_succ]; ring] at h hlow
          have hlower : f.hidden * 2 ^ exponent * den ≤ num := by
            have hhalf : 2 * f.hidden * 2 ^ exponent * den =
                2 * (f.hidden * 2 ^ exponent * den) := by ring
            have habove := h.above
            rw [hhalf] at habove
            generalize f.hidden * 2 ^ exponent * den = half at habove ⊢
            refine Nat.le_of_mul_le_mul_left (c := 2 * parts) ?_ (by omega)
            have hone : half ≤ parts * half := Nat.le_mul_of_pos_left half (by omega)
            linarith
          rw [h.nearestCode_eq hden (by omega) (f.shift_eq hlower hlow)]
          ring
    · rw [h.nearestCode_eq hden (by omega) (f.shift_eq hhigh hupper)]
      ring

end Format

end SceneSet.Number
