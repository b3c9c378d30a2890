import SceneSet.Proofs.Number.Exact

/-!
# Stored 32-bit numbers

A set stores a number as a pattern of 32 bits: a sign, eight bits of exponent and 23 bits of
fraction. `Number.Stores` says what a pattern means, and `Number.stores_widened` that the 64-bit
number that is read for it means just that: the value is not rounded, and all patterns of
not-a-numbers give the one not-a-number.
-/

namespace SceneSet.Number

/-- The 64-bit number that is read for a pattern of 32 bits. -/
def widened (pattern : Nat) : Double := Binary.convert (Binary.ofBits pattern : Single)

/-- The magnitude of a pattern that is neither infinite nor a not-a-number, from its exponent and
its fraction. Without an exponent there is no leading one. -/
def storedMagnitude (exponent fraction : Nat) : ℚ :=
  if exponent = 0 then fraction / 2 ^ 149
  else (2 ^ 23 + fraction) * 2 ^ (exponent - 1) / 2 ^ 149

/-- `Stores pattern x` says that `x` has exactly the value of a pattern of 32 bits. -/
def Stores (pattern : Nat) (x : Double) : Prop :=
  let negative : Bool := pattern / 2 ^ 31 % 2 = 1
  let exponent := pattern / 2 ^ 23 % 2 ^ 8
  let fraction := pattern % 2 ^ 23
  if exponent = 255 then x = if fraction = 0 then .infinite negative else .nan
  else x.isFinite = true ∧ x.isNegative = negative ∧
    x.toRat = (if negative then -1 else 1) * storedMagnitude exponent fraction

/-- The units of a 32-bit code, by its exponent and its fraction. -/
theorem units_single {exponent fraction : Nat} (hfraction : fraction < 2 ^ 23) :
    (Format.single.units (exponent * 2 ^ 23 + fraction) : ℚ) / 2 ^ 149 =
      storedMagnitude exponent fraction := by
  unfold storedMagnitude
  cases exponent with
  | zero =>
      rw [Format.units_of_lt _ (show _ < 2 * 2 ^ 23 by omega), if_pos rfl]
      simp
  | succ exponent =>
      have hunits : Format.single.units ((exponent + 1) * 2 ^ 23 + fraction) =
          (2 ^ 23 + fraction) * 2 ^ exponent := Format.single.units_add hfraction
      rw [hunits, if_neg (Nat.succ_ne_zero _)]
      push_cast
      rfl

/-- A pattern of 32 bits is taken apart into a sign, an exponent and a fraction. -/
theorem ofBits_single (pattern : Nat) :
    (Binary.ofBits pattern : Single) =
      if pattern / 2 ^ 23 % 2 ^ 8 * 2 ^ 23 + pattern % 2 ^ 23 ≤ 255 * 2 ^ 23 then
        Binary.ofCode (pattern / 2 ^ 31 % 2 = 1)
          (pattern / 2 ^ 23 % 2 ^ 8 * 2 ^ 23 + pattern % 2 ^ 23)
      else .nan := by
  have hcode : pattern / 2 ^ 23 % 2 ^ 8 * 2 ^ 23 + pattern % 2 ^ 23 = pattern % 2 ^ 31 := by omega
  rw [hcode]
  rfl

/-- Reading a pattern of 32 bits gives exactly its value. -/
theorem stores_widened (pattern : Nat) : Stores pattern (widened pattern) := by
  have hfraction : pattern % 2 ^ 23 < 2 ^ 23 := Nat.mod_lt _ (by decide)
  have hexponent : pattern / 2 ^ 23 % 2 ^ 8 < 2 ^ 8 := Nat.mod_lt _ (by decide)
  have hinfinity : Format.single.infinityCode = 255 * 2 ^ 23 := rfl
  unfold Stores widened
  rw [ofBits_single]
  dsimp only
  -- from here on the parts of the pattern matter only through their bounds
  generalize pattern / 2 ^ 31 % 2 = sign, pattern % 2 ^ 23 = fraction,
    pattern / 2 ^ 23 % 2 ^ 8 = exponent at *
  split
  · rename_i hlast
    subst hlast
    unfold Binary.ofCode
    by_cases hzero : fraction = 0
    · rw [if_pos (by omega), dif_neg (by omega), if_pos hzero]
      rfl
    · rw [if_neg (by omega), if_neg hzero]
      rfl
  · have hfinite : exponent * 2 ^ 23 + fraction < Format.single.infinityCode := by omega
    unfold Binary.ofCode
    rw [if_pos (by omega), dif_pos hfinite]
    obtain ⟨other, hconvert, hvalue⟩ := Binary.convert_finite
      Format.double_includes_single (decide (sign = 1)) ⟨_, hfinite⟩
    rw [hconvert]
    refine ⟨rfl, rfl, ?_⟩
    rw [hvalue, Binary.toRat_finite, Rat.mkRat_eq_div, ← units_single hfraction]
    unfold Binary.signedUnits
    split
    · push_cast
      rw [neg_div, neg_one_mul]
      rfl
    · push_cast
      rw [one_mul]
      rfl

end SceneSet.Number
