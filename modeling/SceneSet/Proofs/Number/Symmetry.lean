import SceneSet.Proofs.Number.Exact

/-!
# Arithmetic and signs

Rounding is symmetric under a change of sign (`Binary.round_neg`), and so are the operations. The
exception is the sign of a zero: a difference and the opposite difference are both the same zero if
their terms are equal. `Binary.Opposite` allows for that, and it is kept by quotients and by
conversions; opposite numbers have one square.
-/

namespace SceneSet.Number

theorem Format.nearestCode_zero (f : Format) (den : Nat) : f.nearestCode 0 den = 0 := by
  simp [nearestCode, roundQuotient]

namespace Binary

variable {f g : Format}

theorem sub_eq (x y : Binary f) : x - y = add x (neg y) := rfl

theorem neg_eq (x : Binary f) : -x = neg x := rfl

theorem mul_eq (x y : Binary f) : x * y = mul x y := rfl

theorem div_eq (x y : Binary f) : x / y = div x y := rfl

theorem neg_neg (x : Binary f) : neg (neg x) = x := by
  cases x <;> simp [neg]

theorem neg_ofCode (negative : Bool) (code : Nat) :
    neg (ofCode negative code : Binary f) = ofCode (!negative) code := by
  unfold ofCode
  split <;> rfl

theorem toRat_neg (x : Binary f) : (neg x).toRat = -x.toRat := by
  cases x with
  | finite negative code => cases negative <;> simp [neg, toRat]
  | nan => simp [neg, toRat]
  | infinite negative => simp [neg, toRat]

/-- The opposite value is rounded to the opposite number, if a zero changes its sign as well. -/
theorem round_neg (zeroNegative : Bool) (value : Rat) :
    (round (!zeroNegative) (-value) : Binary f) = neg (round zeroNegative value) := by
  have hsign : ∀ n : Int, n ≠ 0 → (decide (-n < 0)) = !decide (n < 0) := by
    intro n hn
    rw [← decide_not, decide_eq_decide]
    omega
  unfold round
  rw [neg_ofCode]
  simp only [Rat.num_neg_eq_neg_num, Rat.den_neg_eq_den, Int.natAbs_neg, Int.neg_eq_zero]
  split
  · rfl
  · rename_i hvalue
    rw [hsign _ hvalue]

/-- The sign of zeros does not matter to the rounding of other values. -/
theorem round_of_ne_zero (zeroNegative other : Bool) {value : Rat} (h : value ≠ 0) :
    (round zeroNegative value : Binary f) = round other value := by
  unfold round
  simp [h]

theorem isZero_round_zero (zeroNegative : Bool) : (round zeroNegative 0 : Binary f).isZero := by
  simp [round, Format.nearestCode_zero, ofCode, f.infinityCode_pos, isZero]

theorem exists_eq_zero {x : Binary f} (h : x.isZero) : ∃ negative, x = zero negative := by
  cases x with
  | finite negative code => exact ⟨negative, congrArg _ (Fin.ext (beq_iff_eq.mp h))⟩
  | nan => cases h
  | infinite negative => cases h

theorem toRat_zero (negative : Bool) : (zero negative : Binary f).toRat = 0 := by
  have hunits : f.units 0 = 0 := f.units_of_lt (by have := f.hidden_pos; omega)
  simp [zero, toRat, Format.magnitude, hunits]

/-- Products do not depend on the order of their factors. -/
theorem mul_comm (x y : Binary f) : x * y = y * x := by
  have hsign : ∀ s t : Bool, (s != t) = (t != s) := by decide
  simp only [mul_eq]
  cases x with
  | nan => cases y <;> rfl
  | infinite s => cases y <;> simp [mul, hsign]
  | finite s c => cases y <;> simp [mul, hsign, Rat.mul_comm]

/-- The quotient of the opposite number is the opposite quotient. -/
theorem div_of_neg (x n : Binary f) : div (neg x) n = neg (div x n) := by
  have hsign : ∀ s t : Bool, ((!s) != t) = !(s != t) := by decide
  cases x with
  | nan => cases n <;> rfl
  | infinite s =>
      cases n with
      | nan => rfl
      | infinite t => rfl
      | finite t d => simp [neg, div]
  | finite s c =>
      cases n with
      | nan => rfl
      | infinite t => simp [neg, div, zero]
      | finite t d =>
          by_cases hzero : d.val = 0
          · simp only [neg, div, if_pos hzero]
            split <;> simp [hsign]
          · have hleft : div (neg (finite s c)) (finite t d) =
                round (!(s != t)) (-((finite s c).toRat / (finite t d).toRat)) := by
              rw [← neg_div, ← toRat_neg, ← hsign]
              exact if_neg hzero
            have hright : div (finite s c) (finite t d) =
                round (s != t) ((finite s c).toRat / (finite t d).toRat) := if_neg hzero
            rw [hleft, hright, round_neg]

/-- What a number divides zeros into: not-a-numbers, or zeros. -/
theorem zero_div_cases (n : Binary f) :
    (∀ s, div (zero s) n = nan) ∨ ∀ s, (div (zero s) n).isZero := by
  cases n with
  | nan => exact .inl fun s => rfl
  | infinite t => exact .inr fun s => rfl
  | finite t d =>
      by_cases hzero : d.val = 0
      · left
        intro s
        simp [div, zero, hzero]
      · right
        intro s
        have hquotient : div (zero s) (finite t d) =
            round (s != t) ((zero s : Binary f).toRat / (finite t d).toRat) := if_neg hzero
        rw [hquotient, toRat_zero, zero_div]
        exact isZero_round_zero _

theorem round_ne_nan (zeroNegative : Bool) (value : Rat) :
    (round zeroNegative value : Binary f) ≠ nan := by
  unfold round ofCode
  split <;> simp

theorem convert_ne_nan {x : Binary f} (h : x ≠ nan) : (convert x : Binary g) ≠ nan := by
  cases x with
  | nan => exact absurd rfl h
  | infinite s => simp [convert]
  | finite s c => exact round_ne_nan _ _

theorem div_ne_nan {x n : Binary f} (h : x ≠ nan) (hzero : ¬ n.isZero) (hfinite : n.isFinite) :
    x / n ≠ nan := by
  rw [div_eq]
  cases n with
  | nan => cases hfinite
  | infinite t => cases hfinite
  | finite t d =>
      have hcode : ¬ d.val = 0 := fun hcode => hzero (beq_iff_eq.mpr hcode)
      cases x with
      | nan => exact absurd rfl h
      | infinite s => simp [div]
      | finite s c =>
          simp only [div, if_neg hcode]
          exact round_ne_nan _ _

theorem nan_add (x : Binary f) : nan + x = nan := by
  show add nan x = nan
  cases x <;> rfl

theorem add_nan (x : Binary f) : x + nan = nan := by
  show add x nan = nan
  cases x <;> rfl

/-- Numbers that differ in nothing but the sign, or zeros with any signs. -/
def Opposite (x y : Binary f) : Prop := x = -y ∨ x.isZero ∧ y.isZero

namespace Opposite

variable {x y : Binary f}

/-- The two differences of two numbers. -/
theorem sub (x y : Binary f) : Opposite (x - y) (y - x) := by
  unfold Opposite
  simp only [sub_eq, neg_eq]
  cases x with
  | nan => cases y <;> exact .inl rfl
  | infinite s =>
      cases y with
      | nan => exact .inl rfl
      | infinite t => left; cases s <;> cases t <;> rfl
      | finite t d => left; simp [neg, add]
  | finite s c =>
      cases y with
      | nan => exact .inl rfl
      | infinite t => left; simp [neg, add]
      | finite t d =>
          -- a difference that is zero takes its sign from the terms, and any other is rounded
          have hfirst : add (finite s c) (neg (finite t d)) =
              round (s && !t) ((finite s c).toRat - (finite t d).toRat) := by
            rw [sub_eq_add_neg, ← toRat_neg]
            rfl
          have hsecond : add (finite t d) (neg (finite s c)) =
              round (t && !s) (-((finite s c).toRat - (finite t d).toRat)) := by
            rw [neg_sub, sub_eq_add_neg, ← toRat_neg]
            rfl
          rw [hfirst, hsecond]
          by_cases hzero : (finite s c).toRat - (finite t d).toRat = 0
          · right
            rw [hzero, neg_zero]
            exact ⟨isZero_round_zero _, isZero_round_zero _⟩
          · left
            rw [round_of_ne_zero _ (!(s && !t)) (neg_ne_zero.mpr hzero), round_neg, neg_neg]

/-- Opposite numbers have the same square. -/
theorem mul_self (h : Opposite x y) : x * x = y * y := by
  simp only [mul_eq]
  rcases h with rfl | ⟨hx, hy⟩
  · rw [neg_eq]
    cases y with
    | nan => rfl
    | infinite t => simp [neg, mul]
    | finite t d =>
        show round ((!t) != (!t)) ((neg (finite t d)).toRat * (neg (finite t d)).toRat) =
          round (t != t) _
        rw [toRat_neg, neg_mul_neg, bne_self_eq_false, bne_self_eq_false]
  · have hsquare : ∀ s, mul (zero s) (zero s) = (round false 0 : Binary f) := by
      intro s
      show round (s != s) ((zero s : Binary f).toRat * (zero s : Binary f).toRat) = _
      rw [toRat_zero, Rat.mul_zero, bne_self_eq_false]
    obtain ⟨s, rfl⟩ := exists_eq_zero hx
    obtain ⟨t, rfl⟩ := exists_eq_zero hy
    rw [hsquare s, hsquare t]

theorem div (h : Opposite x y) (n : Binary f) : Opposite (x / n) (y / n) := by
  simp only [div_eq]
  rcases h with rfl | ⟨hx, hy⟩
  · exact .inl (div_of_neg y n)
  · obtain ⟨s, rfl⟩ := exists_eq_zero hx
    obtain ⟨t, rfl⟩ := exists_eq_zero hy
    rcases zero_div_cases n with hnan | hzero
    · rw [hnan s, hnan t]
      exact .inl rfl
    · exact .inr ⟨hzero s, hzero t⟩

theorem convert (h : Opposite x y) :
    Opposite (Binary.convert x : Binary g) (Binary.convert y) := by
  rcases h with rfl | ⟨hx, hy⟩
  · left
    rw [neg_eq, neg_eq]
    cases y with
    | nan => rfl
    | infinite t => rfl
    | finite t d =>
        show round (!t) (neg (finite t d)).toRat = neg (round t (finite t d).toRat)
        rw [toRat_neg, round_neg]
  · have hzero : ∀ s, (Binary.convert (zero s : Binary f) : Binary g).isZero := by
      intro s
      show (round s (zero s : Binary f).toRat).isZero
      rw [toRat_zero]
      exact isZero_round_zero s
    obtain ⟨s, rfl⟩ := exists_eq_zero hx
    obtain ⟨t, rfl⟩ := exists_eq_zero hy
    exact .inr ⟨hzero s, hzero t⟩

end Opposite

end Binary

end SceneSet.Number
