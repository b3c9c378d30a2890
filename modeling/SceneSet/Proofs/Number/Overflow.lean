import SceneSet.Proofs.Number.Rounding

/-!
# Overflow

Values are rounded to infinity from the middle between the greatest finite number and the limit on,
because the significand there is odd and so ties go to the limit
(`Format.nearestCode_lt_infinityCode_iff`). For the whole numbers in the 64-bit format this is
`isFinite_ofInt_iff`.
-/

namespace SceneSet.Number

/-- A quotient is rounded below an even number just if it is below it by more than a half. -/
theorem roundQuotient_lt_iff {num den half : Nat} (hden : 0 < den) :
    roundQuotient num den < 2 * half ↔ 2 * num + den < 2 * (2 * half * den) := by
  constructor
  · intro h
    by_contra hlarge
    rcases Nat.lt_or_ge num (2 * half * den) with hbelow | habove
    · -- the number below is odd, so that it is not taken in a tie
      have hhalf : 0 < half := by
        by_contra hzero
        rw [show half = 0 by omega] at hbelow
        omega
      have hsplit : 2 * half * den = (2 * half - 1) * den + den := by
        rw [← Nat.succ_mul]
        congr 1
        omega
      have hquotient : num / den = 2 * half - 1 := by
        refine (Nat.div_eq_iff hden).mpr ?_
        omega
      have hmod : num % den = num - (2 * half - 1) * den := by
        rw [Nat.mod_eq_sub_div_mul, hquotient]
      unfold roundQuotient at h
      dsimp only at h
      rw [hquotient, hmod, if_neg (by omega)] at h
      split at h
      · omega
      · rw [if_neg (by omega)] at h
        omega
    · obtain ⟨hle, -⟩ := roundQuotient_mem hden habove (Nat.le_mul_of_pos_right num hden)
      omega
  · intro h
    obtain ⟨-, habove⟩ := roundQuotient_near num hden
    have hlt : roundQuotient num den * den < 2 * half * den := by omega
    exact Nat.lt_of_mul_lt_mul_right hlt

namespace Format

variable (f : Format)

/-- The exponent of the greatest finite numbers, which are as many times a power of two of units. -/
def topExponent : Nat := 2 ^ f.exponentBits - 3

theorem infinityCode_eq_top : f.infinityCode = f.topExponent * f.hidden + 2 * f.hidden := by
  have htwo : 2 ^ 2 ≤ 2 ^ f.exponentBits :=
    Nat.pow_le_pow_right (by decide) f.two_le_exponentBits
  rw [infinityCode_eq, ← Nat.add_mul, topExponent]
  congr 1
  omega

/-- Quotients below the greatest exponent do not overflow. -/
theorem nearestCode_lt_of_small {num den : Nat} (hden : 0 < den)
    (h : num < f.hidden * 2 ^ f.topExponent * den) : f.nearestCode num den < f.infinityCode := by
  obtain ⟨shift, hunits, hshift, -⟩ := f.units_nearestCode num hden
  have htop : 2 ^ f.exponentBits - 2 = f.topExponent + 1 := by
    have htwo : 2 ^ 2 ≤ 2 ^ f.exponentBits :=
      Nat.pow_le_pow_right (by decide) f.two_le_exponentBits
    unfold topExponent
    omega
  have hpow : 2 ^ shift ≤ 2 ^ f.topExponent := by
    rcases hshift with rfl | hbelow
    · exact Nat.two_pow_pos _
    · have hlt : f.hidden * 2 ^ shift < f.hidden * 2 ^ f.topExponent :=
        Nat.lt_of_mul_lt_mul_right (Nat.lt_of_le_of_lt hbelow h)
      exact Nat.le_of_lt (Nat.lt_of_mul_lt_mul_left hlt)
  obtain ⟨-, habove⟩ := roundQuotient_near num (Nat.mul_pos hden (Nat.two_pow_pos shift))
  refine f.lt_infinityCode ?_
  rw [hunits, htop]
  refine Nat.lt_of_mul_lt_mul_right (a := den) ?_
  have hdenStep : den * 2 ^ shift ≤ f.hidden * 2 ^ f.topExponent * den := by
    calc den * 2 ^ shift ≤ den * 2 ^ f.topExponent := Nat.mul_le_mul_left den hpow
      _ ≤ f.hidden * (den * 2 ^ f.topExponent) := Nat.le_mul_of_pos_left _ f.hidden_pos
      _ = f.hidden * 2 ^ f.topExponent * den := by ring
  have hdouble : f.hidden * 2 ^ (f.topExponent + 1) * den =
      2 * (f.hidden * 2 ^ f.topExponent * den) := by
    ring
  have hscaled : roundQuotient num (den * 2 ^ shift) * 2 ^ shift * den =
      roundQuotient num (den * 2 ^ shift) * (den * 2 ^ shift) := by
    ring
  rw [hdouble, hscaled]
  omega

/-- Quotients above the greatest exponent overflow. -/
theorem infinityCode_le_of_large {num den : Nat} (hden : 0 < den)
    (h : 2 * f.hidden * 2 ^ f.topExponent * den ≤ num) :
    f.infinityCode ≤ f.nearestCode num den := by
  obtain ⟨shift, -, hshift, hcode⟩ := f.units_nearestCode num hden
  have hstep : 0 < den * 2 ^ shift := Nat.mul_pos hden (Nat.two_pow_pos _)
  have hlow : f.hidden * 2 ^ (f.topExponent + 1 - shift) * (den * 2 ^ shift) ≤ num := by
    rcases Nat.le_total shift (f.topExponent + 1) with hle | hge
    · calc f.hidden * 2 ^ (f.topExponent + 1 - shift) * (den * 2 ^ shift)
          = f.hidden * 2 ^ (f.topExponent + 1 - shift + shift) * den := by ring
        _ = 2 * f.hidden * 2 ^ f.topExponent * den := by
          rw [Nat.sub_add_cancel hle]
          ring
        _ ≤ num := h
    · have hbelow : f.hidden * 2 ^ shift * den ≤ num := hshift.resolve_left (by omega)
      rw [Nat.sub_eq_zero_of_le hge]
      calc f.hidden * 2 ^ 0 * (den * 2 ^ shift) = f.hidden * 2 ^ shift * den := by ring
        _ ≤ num := hbelow
  obtain ⟨hle, -⟩ := roundQuotient_mem hstep hlow (Nat.le_mul_of_pos_right num hstep)
  have hpow : f.topExponent + 1 - shift < 2 ^ (f.topExponent + 1 - shift) := Nat.lt_two_pow_self
  rw [hcode, infinityCode_eq_top, ← Nat.add_mul]
  calc (f.topExponent + 2) * f.hidden
      ≤ (shift + 2 ^ (f.topExponent + 1 - shift)) * f.hidden :=
        Nat.mul_le_mul_right _ (by omega)
    _ = shift * f.hidden + f.hidden * 2 ^ (f.topExponent + 1 - shift) := by ring
    _ ≤ shift * f.hidden + roundQuotient num (den * 2 ^ shift) := Nat.add_le_add_left hle _

/-- A quotient has a finite code just if it is below the limit by more than half of the last
step. -/
theorem nearestCode_lt_infinityCode_iff (num : Nat) {den : Nat} (hden : 0 < den) :
    f.nearestCode num den < f.infinityCode ↔
      2 * num + den * 2 ^ f.topExponent < 2 * (2 * f.hidden * (den * 2 ^ f.topExponent)) := by
  have hhidden := f.hidden_pos
  have hstep : 0 < den * 2 ^ f.topExponent := Nat.mul_pos hden (Nat.two_pow_pos _)
  have hscaled : f.hidden * 2 ^ f.topExponent * den = f.hidden * (den * 2 ^ f.topExponent) := by
    ring
  have hscaled2 : 2 * f.hidden * 2 ^ f.topExponent * den =
      2 * (f.hidden * (den * 2 ^ f.topExponent)) := by
    ring
  rcases Nat.lt_or_ge num (f.hidden * 2 ^ f.topExponent * den) with hsmall | hlarge
  · refine iff_of_true (f.nearestCode_lt_of_small hden hsmall) ?_
    have hone : 1 * (den * 2 ^ f.topExponent) ≤ f.hidden * (den * 2 ^ f.topExponent) :=
      Nat.mul_le_mul_right _ hhidden
    rw [hscaled] at hsmall
    rw [Nat.mul_assoc 2 f.hidden]
    omega
  rcases Nat.lt_or_ge num (2 * f.hidden * 2 ^ f.topExponent * den) with htop | hbeyond
  · have hcode : f.nearestCode num den =
        f.topExponent * f.hidden + roundQuotient num (den * 2 ^ f.topExponent) := by
      unfold nearestCode
      dsimp only
      rw [f.shift_eq hlarge htop, Nat.shiftLeft_eq]
    rw [hcode, infinityCode_eq_top, Nat.add_lt_add_iff_left]
    exact roundQuotient_lt_iff hstep
  · refine iff_of_false (Nat.not_lt.mpr (f.infinityCode_le_of_large hden hbeyond)) ?_
    rw [hscaled2] at hbeyond
    rw [Nat.mul_assoc 2 f.hidden]
    omega

end Format

namespace Binary

/-- A whole number has a nearest finite number of the 64-bit format just if it is below the limit by
more than half of the last step. -/
theorem isFinite_ofInt_iff (n : Int) :
    (ofInt n : Double).isFinite ↔ n.natAbs + 2 ^ 970 < 2 ^ 1024 := by
  have hcode : (ofInt n : Double).isFinite ↔
      Format.double.nearestCode (n.natAbs <<< Format.double.scale) 1 <
        Format.double.infinityCode := by
    show (ofCode _ (Format.double.nearestCode (n.natAbs <<< Format.double.scale) 1) :
      Double).isFinite ↔ _
    unfold ofCode
    split
    · rename_i hfinite
      exact iff_of_true rfl hfinite
    · rename_i hinfinite
      exact iff_of_false nofun hinfinite
  have hscaled (count exponent scale : Nat) :
      2 * (count * 2 ^ scale) + 2 ^ (exponent + (1 + scale)) <
          2 * (2 * 2 ^ 52 * 2 ^ (exponent + (1 + scale))) ↔
        count + 2 ^ exponent < 2 ^ (52 + 2 + exponent) := by
    rw [show 2 * (count * 2 ^ scale) + 2 ^ (exponent + (1 + scale)) =
        (count + 2 ^ exponent) * (2 * 2 ^ scale) by ring,
      show 2 * (2 * 2 ^ 52 * 2 ^ (exponent + (1 + scale))) =
        2 ^ (52 + 2 + exponent) * (2 * 2 ^ scale) by ring]
    exact Nat.mul_lt_mul_right (by positivity)
  have htop : Format.double.topExponent = 970 + (1 + Format.double.scale) := rfl
  have hhidden : Format.double.hidden = 2 ^ 52 := rfl
  rw [hcode, Format.nearestCode_lt_infinityCode_iff _ _ Nat.one_pos, htop, hhidden, Nat.one_mul,
    Nat.shiftLeft_eq, show 1024 = 52 + 2 + 970 from rfl]
  exact hscaled _ _ _

end Binary

end SceneSet.Number
