import SceneSet.Proofs.Number.Rounding

/-!
# Numbers that cancel

Numbers that compare equal are one number or two zeros (`Binary.Same`). They cancel: their
difference is a zero unless it is no finite number at all (`Binary.Null`). Null numbers stay null
under further multiplication and subtraction.
-/

namespace SceneSet.Number.Binary

variable {f g : Format} {x y z w : Binary f}

/-- One number, or two zeros of any signs. -/
def Same (x y : Binary f) : Prop := x = y ∨ x.isZero ∧ y.isZero

/-- Zero, unless it is not finite. -/
def Null (x : Binary f) : Prop := x.isFinite → x.isZero

theorem toRat_of_isZero (h : x.isZero) : x.toRat = 0 := by
  obtain ⟨negative, rfl⟩ := exists_eq_zero h
  exact toRat_zero negative

namespace Same

theorem trans (h : Same x y) (h' : Same y z) : Same x z := by
  rcases h with rfl | ⟨hx, hy⟩
  · exact h'
  · rcases h' with rfl | ⟨-, hz⟩
    · exact .inr ⟨hx, hy⟩
    · exact .inr ⟨hx, hz⟩

theorem symm (h : Same x y) : Same y x := h.imp Eq.symm And.symm

theorem toRat_eq (h : Same x y) : x.toRat = y.toRat := by
  rcases h with rfl | ⟨hx, hy⟩
  · rfl
  · rw [toRat_of_isZero hx, toRat_of_isZero hy]

/-- One value is rounded to one number, but for the sign of a zero. -/
theorem round (first second : Bool) (value : ℚ) :
    Same (round first value : Binary f) (Binary.round second value) := by
  rcases eq_or_ne value 0 with rfl | hne
  · exact .inr ⟨isZero_round_zero first, isZero_round_zero second⟩
  · exact .inl (round_of_ne_zero first second hne)

theorem convert (h : Same x y) : Same (convert x : Binary g) (Binary.convert y) := by
  rcases h with rfl | ⟨hx, hy⟩
  · exact .inl rfl
  · exact .inr ⟨isZero_convert hx, isZero_convert hy⟩

theorem sub_right (h : Same x y) (z : Binary f) : Same (x - z) (y - z) := by
  rcases h with rfl | ⟨hx, hy⟩
  · exact .inl rfl
  · obtain ⟨s, rfl⟩ := exists_eq_zero hx
    obtain ⟨t, rfl⟩ := exists_eq_zero hy
    cases z with
    | nan => exact .inl rfl
    | infinite negative => exact .inl rfl
    | finite negative code =>
        obtain ⟨first, hfirst⟩ := sub_eq_round (x := zero s) (y := finite negative code) rfl rfl
        obtain ⟨second, hsecond⟩ := sub_eq_round (x := zero t) (y := finite negative code) rfl rfl
        rw [hfirst, hsecond, toRat_zero, toRat_zero]
        exact .round first second _

theorem mul_right (h : Same x y) (z : Binary f) : Same (x * z) (y * z) := by
  rcases h with rfl | ⟨hx, hy⟩
  · exact .inl rfl
  · obtain ⟨s, rfl⟩ := exists_eq_zero hx
    obtain ⟨t, rfl⟩ := exists_eq_zero hy
    cases z with
    | nan => exact .inl rfl
    | infinite negative => exact .inl rfl
    | finite negative code =>
        obtain ⟨first, hfirst⟩ := mul_eq_round (x := zero s) (y := finite negative code) rfl rfl
        obtain ⟨second, hsecond⟩ := mul_eq_round (x := zero t) (y := finite negative code) rfl rfl
        rw [hfirst, hsecond, toRat_zero, toRat_zero]
        exact .round first second _

theorem mul (h : Same x y) (h' : Same z w) : Same (x * z) (y * w) := by
  have hsecond := h'.mul_right y
  rw [mul_comm z, mul_comm w] at hsecond
  exact (h.mul_right z).trans hsecond

/-- Equal numbers cancel. -/
theorem null_sub (h : Same x y) : Null (x - y) := by
  intro hfinite
  obtain ⟨hx, hy⟩ := isFinite_of_sub hfinite
  obtain ⟨negative, hsub⟩ := sub_eq_round hx hy
  rw [hsub, h.toRat_eq, sub_self]
  exact isZero_round_zero negative

end Same

namespace Null

theorem mul_left (h : Null x) (y : Binary f) : Null (x * y) := by
  intro hfinite
  obtain ⟨hx, hy⟩ := isFinite_of_mul hfinite
  obtain ⟨negative, hmul⟩ := mul_eq_round hx hy
  rw [hmul, toRat_of_isZero (h hx), zero_mul]
  exact isZero_round_zero negative

theorem mul_right (h : Null y) (x : Binary f) : Null (x * y) := by
  rw [mul_comm]
  exact h.mul_left x

theorem sub (hx : Null x) (hy : Null y) : Null (x - y) := by
  intro hfinite
  obtain ⟨hxFinite, hyFinite⟩ := isFinite_of_sub hfinite
  obtain ⟨negative, hsub⟩ := sub_eq_round hxFinite hyFinite
  rw [hsub, toRat_of_isZero (hx hxFinite), toRat_of_isZero (hy hyFinite), sub_self]
  exact isZero_round_zero negative

end Null

end SceneSet.Number.Binary
