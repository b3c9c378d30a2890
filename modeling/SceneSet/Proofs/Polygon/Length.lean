import SceneSet.Polygon
import SceneSet.Proofs.Number.Rounding

/-!
# Lengths in 32 bits

The length of a vector is taken from the rounded sum of its rounded squares. `Vector.squares` is
that sum, and `Vector.squaredLength` is what it stands for, exactly. The two are close where no
square under- or overflows (`Vector.squares_bounds`); the sum is zero just if all coordinates are at
most `2 ^ (-75)`, whose squares vanish (`Vector.squares_eq_zero_iff`), and it overflows from
`2 ^ 128` on. The length is the root of the sum up to a few roundings (`Vector.norm_bounds`).
-/

namespace SceneSet

open Number (Binary Single Double Format)

namespace Number.Format

theorem unit_single : single.unit = 1 / 2 ^ 149 := rfl

theorem roundoff_single : single.roundoff = 1 / 2 ^ 24 := rfl

theorem limit_single : single.limit = 2 ^ 128 := by
  show ((2 ^ 23 : Nat) : ℚ) * 2 ^ 254 * (1 / 2 ^ 149) = 2 ^ 128
  norm_num

theorem unit_double : double.unit = 1 / 2 ^ 1074 := rfl

theorem roundoff_double : double.roundoff = 1 / 2 ^ 53 := rfl

theorem limit_double : double.limit = 2 ^ 1024 := by
  show ((2 ^ 52 : Nat) : ℚ) * 2 ^ 2046 * (1 / 2 ^ 1074) = 2 ^ 1024
  rw [mul_one_div, div_eq_iff (by positivity), Nat.cast_pow, Nat.cast_ofNat, ← pow_add, ← pow_add]

end Number.Format

namespace Polygon

/-! ### Squares -/

section Square

variable {x : Single} {value : ℚ}

/-- A rounded square is not negative, is off by at most `roundoff` or half a unit, and is not much
greater than the square. -/
theorem square_bounds (h : (x * x).isFinite) :
    0 ≤ (x * x).toRat ∧
      |(x * x).toRat - x.toRat ^ 2| ≤ max (1 / 2 ^ 24 * x.toRat ^ 2) (1 / 2 ^ 150) ∧
      (x * x).toRat ≤ 3 * x.toRat ^ 2 := by
  have hx := (Binary.isFinite_of_mul h).1
  obtain ⟨negative, hsquare⟩ := Binary.mul_eq_round hx hx
  rw [← pow_two] at hsquare
  have hnonneg : 0 ≤ x.toRat ^ 2 := sq_nonneg _
  have hunit := Binary.unit_le_toRat (x := x * x)
  rw [hsquare] at h hunit ⊢
  have hround := Binary.toRat_round_nonneg h hnonneg
  have hnear := Binary.abs_toRat_round_sub_le h
  rw [abs_of_nonneg hnonneg, Format.roundoff_single, Format.unit_single,
    show (1 / 2 ^ 149 / 2 : ℚ) = 1 / 2 ^ 150 by norm_num] at hnear
  rw [Format.unit_single] at hunit
  refine ⟨hround, hnear, ?_⟩
  generalize (Binary.round negative (x.toRat ^ 2) : Single).toRat = square at *
  -- a square that does not vanish is at least a unit, so half a unit is at most half of it
  rcases hround.eq_or_lt with rfl | hpos
  · linarith
  · have hone := hunit hpos
    have hupper := (abs_le.mp hnear).2
    rcases max_cases (1 / 2 ^ 24 * x.toRat ^ 2) (1 / 2 ^ 150 : ℚ) with ⟨hmax, -⟩ | ⟨hmax, -⟩
    · rw [hmax] at hupper
      linarith
    · rw [hmax] at hupper
      linarith

/-- Just the squares of at most half a unit vanish. -/
theorem square_eq_zero_iff (h : (x * x).isFinite) :
    (x * x).toRat = 0 ↔ x.toRat ^ 2 ≤ 1 / 2 ^ 150 := by
  have hx := (Binary.isFinite_of_mul h).1
  obtain ⟨negative, hsquare⟩ := Binary.mul_eq_round hx hx
  rw [← pow_two] at hsquare
  rw [Binary.toRat_eq_zero_iff h, hsquare, Binary.isZero_round_iff,
    abs_of_nonneg (sq_nonneg _), Format.unit_single,
    show (1 / 2 ^ 149 / 2 : ℚ) = 1 / 2 ^ 150 by norm_num]

/-- A square below the limit does not overflow. -/
theorem isFinite_square (hx : x.isFinite) (h : x.toRat ^ 2 ≤ 2 ^ 128 - 2 ^ 107) :
    (x * x).isFinite := by
  obtain ⟨negative, hsquare⟩ := Binary.mul_eq_round hx hx
  rw [hsquare]
  apply Binary.isFinite_round
  rw [← pow_two, abs_of_nonneg (sq_nonneg _), Format.roundoff_single, Format.unit_single,
    Format.limit_single]
  rcases max_cases (1 / 2 ^ 24 * x.toRat ^ 2) (1 / 2 ^ 149 / 2 : ℚ) with ⟨hmax, -⟩ | ⟨hmax, -⟩
  · rw [hmax]
    linarith
  · rw [hmax]
    linarith

variable {y : Single}

/-- A sum of numbers that are not negative is off by at most `roundoff`. -/
theorem sum_bounds (h : (x + y).isFinite) (hx : 0 ≤ x.toRat) (hy : 0 ≤ y.toRat) :
    0 ≤ (x + y).toRat ∧
      |(x + y).toRat - (x.toRat + y.toRat)| ≤ 1 / 2 ^ 24 * (x.toRat + y.toRat) := by
  have hnear := Binary.abs_toRat_add_sub_le h
  rw [abs_of_nonneg (add_nonneg hx hy), Format.roundoff_single] at hnear
  have hlower := (abs_le.mp hnear).1
  exact ⟨by linarith, hnear⟩

/-- A sum below the limit does not overflow. -/
theorem isFinite_sum (hx : x.isFinite) (hy : y.isFinite) (hsum : 0 ≤ x.toRat + y.toRat)
    (h : x.toRat + y.toRat ≤ 2 ^ 128 - 2 ^ 105) : (x + y).isFinite := by
  obtain ⟨negative, hround⟩ := Binary.add_eq_round hx hy
  rw [hround]
  apply Binary.isFinite_round
  rw [abs_of_nonneg hsum, Format.roundoff_single, Format.unit_single, Format.limit_single]
  rcases max_cases (1 / 2 ^ 24 * (x.toRat + y.toRat)) (1 / 2 ^ 149 / 2 : ℚ) with
    ⟨hmax, -⟩ | ⟨hmax, -⟩
  · rw [hmax]
    linarith
  · rw [hmax]
    linarith

end Square

namespace Vector

variable (v : Vector)

/-- All coordinates are numbers that are not infinite. -/
structure IsFinite : Prop where
  x : v.x.isFinite
  y : v.y.isFinite
  z : v.z.isFinite

/-- The exact square of the length of a vector with finite coordinates. -/
def squaredLength : ℚ := v.x.toRat ^ 2 + v.y.toRat ^ 2 + v.z.toRat ^ 2

/-- The rounded sum of the rounded squares of the coordinates. -/
def squares : Single := v.x * v.x + v.y * v.y + v.z * v.z

/-- The squares of all coordinates vanish in 32 bits. -/
structure Vanishes : Prop where
  x : v.x.toRat ^ 2 ≤ 1 / 2 ^ 150
  y : v.y.toRat ^ 2 ≤ 1 / 2 ^ 150
  z : v.z.toRat ^ 2 ≤ 1 / 2 ^ 150

variable {v}

/-- A sum of squares is finite only if all of its parts are. -/
theorem isFinite_of_squares (h : v.squares.isFinite) :
    (v.x * v.x + v.y * v.y).isFinite ∧ (v.x * v.x).isFinite ∧ (v.y * v.y).isFinite ∧
      (v.z * v.z).isFinite := by
  obtain ⟨hsum, hz⟩ := Binary.isFinite_of_add h
  obtain ⟨hx, hy⟩ := Binary.isFinite_of_add hsum
  exact ⟨hsum, hx, hy, hz⟩

theorem IsFinite.of_squares (h : v.squares.isFinite) : v.IsFinite := by
  obtain ⟨-, hx, hy, hz⟩ := isFinite_of_squares h
  exact ⟨(Binary.isFinite_of_mul hx).1, (Binary.isFinite_of_mul hy).1,
    (Binary.isFinite_of_mul hz).1⟩

/-- The sum of the rounded squares, before the two sums are rounded. -/
theorem squares_near (h : v.squares.isFinite) :
    let sum := (v.x * v.x).toRat + (v.y * v.y).toRat + (v.z * v.z).toRat
    0 ≤ v.squares.toRat ∧ |v.squares.toRat - sum| ≤ 3 / 2 ^ 24 * sum := by
  obtain ⟨hsum, hx, hy, hz⟩ := isFinite_of_squares h
  have hsquareX := (square_bounds hx).1
  have hsquareY := (square_bounds hy).1
  have hsquareZ := (square_bounds hz).1
  obtain ⟨hfirst, hfirstNear⟩ := sum_bounds hsum hsquareX hsquareY
  obtain ⟨hnonneg, hnear⟩ := sum_bounds h hfirst hsquareZ
  refine ⟨hnonneg, ?_⟩
  rw [abs_le] at hfirstNear hnear ⊢
  unfold squares
  constructor <;> linarith

/-- The rounded sum is zero just if all squares vanish. -/
theorem squares_eq_zero_iff (h : v.squares.isFinite) : v.squares.toRat = 0 ↔ v.Vanishes := by
  obtain ⟨-, hx, hy, hz⟩ := isFinite_of_squares h
  have hsquareX := (square_bounds hx).1
  have hsquareY := (square_bounds hy).1
  have hsquareZ := (square_bounds hz).1
  have hnear := abs_le.mp (squares_near h).2
  constructor
  · intro hzero
    rw [hzero] at hnear
    refine ⟨(square_eq_zero_iff hx).mp ?_, (square_eq_zero_iff hy).mp ?_,
      (square_eq_zero_iff hz).mp ?_⟩ <;> linarith
  · rintro ⟨hvanishX, hvanishY, hvanishZ⟩
    rw [(square_eq_zero_iff hx).mpr hvanishX, (square_eq_zero_iff hy).mpr hvanishY,
      (square_eq_zero_iff hz).mpr hvanishZ] at hnear
    linarith

/-- The rounded sum is close to the exact one, but for what the squares of small coordinates lose,
and it is never much greater. -/
theorem squares_bounds (h : v.squares.isFinite) :
    0 ≤ v.squares.toRat ∧
      |v.squares.toRat - v.squaredLength| ≤ 5 / 2 ^ 24 * v.squaredLength + 1 / 2 ^ 148 ∧
      v.squares.toRat ≤ 4 * v.squaredLength := by
  obtain ⟨-, hx, hy, hz⟩ := isFinite_of_squares h
  obtain ⟨hsquareX, hnearX, htimesX⟩ := square_bounds hx
  obtain ⟨hsquareY, hnearY, htimesY⟩ := square_bounds hy
  obtain ⟨hsquareZ, hnearZ, htimesZ⟩ := square_bounds hz
  obtain ⟨hnonneg, hnear⟩ := squares_near h
  have hsplit : ∀ a : ℚ, 0 ≤ a → max (1 / 2 ^ 24 * a) (1 / 2 ^ 150) ≤ 1 / 2 ^ 24 * a + 1 / 2 ^ 150 :=
    fun a ha => max_le (by linarith) (by linarith)
  have hlossX := hnearX.trans (hsplit _ (sq_nonneg _))
  have hlossY := hnearY.trans (hsplit _ (sq_nonneg _))
  have hlossZ := hnearZ.trans (hsplit _ (sq_nonneg _))
  rw [abs_le] at hlossX hlossY hlossZ hnear
  have hpos : 0 ≤ v.squaredLength := by
    unfold squaredLength
    positivity
  refine ⟨hnonneg, ?_, ?_⟩
  · rw [abs_le]
    unfold squaredLength at hpos ⊢
    constructor <;> linarith
  · unfold squaredLength
    linarith

/-- The sum does not overflow if the exact one stays below the limit, but for some roundings. -/
theorem isFinite_squares (h : v.IsFinite) (hlimit : v.squaredLength ≤ 2 ^ 128 - 2 ^ 107) :
    v.squares.isFinite := by
  have hsquares : ∀ {x : Single}, x.toRat ^ 2 ≤ v.squaredLength → x.isFinite →
      (x * x).isFinite ∧ 0 ≤ (x * x).toRat ∧
        (x * x).toRat ≤ (1 + 1 / 2 ^ 24) * x.toRat ^ 2 + 1 := by
    intro x hle hx
    have hfinite := isFinite_square hx (hle.trans hlimit)
    obtain ⟨hnonneg, hnear, -⟩ := square_bounds hfinite
    have hupper := (abs_le.mp hnear).2
    have hmax : max (1 / 2 ^ 24 * x.toRat ^ 2) (1 / 2 ^ 150) ≤ 1 / 2 ^ 24 * x.toRat ^ 2 + 1 := by
      have hsq : 0 ≤ x.toRat ^ 2 := sq_nonneg _
      exact max_le (by linarith) (by linarith)
    exact ⟨hfinite, hnonneg, by linarith⟩
  unfold squaredLength at hsquares hlimit
  have hxSq : 0 ≤ v.x.toRat ^ 2 := sq_nonneg _
  have hySq : 0 ≤ v.y.toRat ^ 2 := sq_nonneg _
  have hzSq : 0 ≤ v.z.toRat ^ 2 := sq_nonneg _
  obtain ⟨hx, hxNonneg, hxUpper⟩ := hsquares (by linarith) h.x
  obtain ⟨hy, hyNonneg, hyUpper⟩ := hsquares (by linarith) h.y
  obtain ⟨hz, hzNonneg, hzUpper⟩ := hsquares (by linarith) h.z
  have hsum := isFinite_sum hx hy (by linarith) (by linarith)
  obtain ⟨hsumNonneg, hsumNear⟩ := sum_bounds hsum hxNonneg hyNonneg
  have hsumUpper := (abs_le.mp hsumNear).2
  exact isFinite_sum hsum hz (by linarith) (by linarith)

/-- A sum that does not overflow belongs to a length below the limit, up to some roundings. -/
theorem squaredLength_lt (h : v.squares.isFinite) : v.squaredLength < 2 ^ 128 + 2 ^ 107 := by
  have hnear := (abs_le.mp (squares_bounds h).2.1).1
  have hlimit := (le_abs_self _).trans_lt (Binary.abs_toRat_lt_limit v.squares)
  rw [Format.limit_single] at hlimit
  linarith

end Vector

/-! ### Roots -/

/-- How far the square of a number is off. -/
theorem abs_sq_sub_sq_le {a b error size : ℚ} (h : |a - b| ≤ error) (hsize : |b| ≤ size) :
    |a ^ 2 - b ^ 2| ≤ error * (2 * size + error) := by
  have hsum : |a + b| ≤ 2 * size + error := by
    rw [abs_le] at h hsize ⊢
    constructor <;> linarith
  calc |a ^ 2 - b ^ 2| = |a - b| * |a + b| := by rw [← abs_mul]; ring_nf
    _ ≤ error * (2 * size + error) :=
      mul_le_mul h hsum (abs_nonneg _) ((abs_nonneg _).trans h)

/-- A value in the middle of the range is rounded to a number that is off by `roundoff` at most. -/
theorem round_near {f : Format} {sign : Bool} {value : ℚ} (hlow : f.unit ≤ f.roundoff * value)
    (hhigh : 2 * value < f.limit) (hpos : 0 < value) :
    (Binary.round sign value : Binary f).isFinite ∧
      |(Binary.round sign value : Binary f).toRat - value| ≤ f.roundoff * value := by
  have hunit := f.unit_pos
  have hmax : max (f.roundoff * |value|) (f.unit / 2) = f.roundoff * value := by
    rw [abs_of_pos hpos]
    exact max_eq_left (by linarith)
  have hpart : f.roundoff * value ≤ value := by
    have hone : f.roundoff ≤ 1 := by
      unfold Format.roundoff
      rw [div_le_one (by positivity)]
      exact one_le_pow₀ (by norm_num)
    exact mul_le_of_le_one_left hpos.le hone
  have hfinite : (Binary.round sign value : Binary f).isFinite := by
    apply Binary.isFinite_round
    rw [hmax, abs_of_pos hpos]
    linarith
  have hnear := Binary.abs_toRat_round_sub_le hfinite
  rw [hmax] at hnear
  exact ⟨hfinite, hnear⟩

/-- A number that is exact in 64 bits. -/
theorem convert_exact {x : Single} (h : x.isFinite) :
    (Binary.convert x : Double).isFinite ∧ (Binary.convert x : Double).toRat = x.toRat := by
  obtain ⟨negative, code, rfl⟩ := Binary.exists_eq_finite h
  obtain ⟨wide, hwide, hvalue⟩ :=
    Binary.convert_finite Format.double_includes_single negative code
  rw [hwide]
  exact ⟨rfl, hvalue⟩

/-- The root in 64 bits of a number that lies in the range of 32 bits. It is well inside the range of
both formats, and its square is nearly the number. -/
theorem sqrt_near {x : Double} (hx : x.isFinite) (hlow : 1 / 2 ^ 149 ≤ x.toRat)
    (hhigh : x.toRat < 2 ^ 128) :
    ∃ root : ℚ, 1 / 2 ^ 75 ≤ root ∧ root ≤ 2 ^ 65 ∧ |root ^ 2 - x.toRat| ≤ 1 / 2 ^ 53 * x.toRat ∧
      (Binary.sqrt x).isFinite ∧ |(Binary.sqrt x).toRat - root| ≤ 1 / 2 ^ 53 * root := by
  obtain ⟨root, hroot, hsquare, hsqrt⟩ := Binary.exists_sqrt_eq_round hx (by linarith)
  rw [Format.roundoff_double] at hsquare
  have hsquareBounds := abs_le.mp hsquare
  have hrootLow : 1 / 2 ^ 75 ≤ root := by
    refine (pow_le_pow_iff_left₀ (by positivity) hroot.le two_ne_zero).mp ?_
    linarith
  have hrootHigh : root ≤ 2 ^ 65 := by
    refine (pow_le_pow_iff_left₀ hroot.le (by positivity) two_ne_zero).mp ?_
    linarith
  refine ⟨root, hrootLow, hrootHigh, hsquare, ?_⟩
  have hunit : (1 : ℚ) / 2 ^ 1074 ≤ 1 / 2 ^ 128 :=
    one_div_pow_le_one_div_pow_of_le (by norm_num) (by norm_num)
  have hlimit : (2 : ℚ) ^ 66 < 2 ^ 1024 := pow_lt_pow_right₀ (by norm_num) (by norm_num)
  rw [hsqrt, ← Format.roundoff_double]
  refine round_near ?_ ?_ hroot
  · rw [Format.unit_double, Format.roundoff_double]
    exact hunit.trans (by linarith)
  · rw [Format.limit_double]
    exact lt_of_le_of_lt (by linarith) hlimit

/-- The root of a positive number of 32 bits, taken in 64 bits and rounded to 32. -/
theorem root_near {x : Single} (hx : x.isFinite) (hpos : 0 < x.toRat) :
    let root : Single := Binary.convert (Binary.sqrt (Binary.convert x : Double))
    root.isFinite ∧ 0 < root.toRat ∧ |root.toRat ^ 2 - x.toRat| ≤ 1 / 2 ^ 22 * x.toRat := by
  have hlow : 1 / 2 ^ 149 ≤ x.toRat := by
    rw [← Format.unit_single]
    exact Binary.unit_le_toRat hpos
  have hhigh : x.toRat < 2 ^ 128 := by
    rw [← Format.limit_single]
    exact (le_abs_self _).trans_lt (Binary.abs_toRat_lt_limit x)
  obtain ⟨hfinite, hvalue⟩ := convert_exact hx
  rw [← hvalue] at hlow hhigh ⊢
  obtain ⟨root, hrootLow, hrootHigh, hsquare, hwideFinite, hwideNear⟩ :=
    sqrt_near hfinite hlow hhigh
  obtain ⟨sign, hconvert⟩ := Binary.convert_eq_round (g := Format.single) hwideFinite
  dsimp only
  rw [hconvert]
  generalize (Binary.sqrt (Binary.convert x : Double)).toRat = wide at hwideNear ⊢
  rw [abs_le] at hsquare hwideNear
  obtain ⟨hnarrowFinite, hnarrowNear⟩ : (Binary.round sign wide : Single).isFinite ∧
      |(Binary.round sign wide : Single).toRat - wide| ≤ 1 / 2 ^ 24 * wide := by
    rw [← Format.roundoff_single]
    refine round_near ?_ ?_ (by linarith)
    · rw [Format.unit_single, Format.roundoff_single]
      linarith
    · rw [Format.limit_single]
      linarith
  generalize (Binary.round sign wide : Single).toRat = narrow at hnarrowNear ⊢
  rw [abs_le] at hnarrowNear
  refine ⟨hnarrowFinite, by linarith, ?_⟩
  -- both roundings together are off by little more than the coarser one
  have hnear : |narrow - root| ≤ 9 / 2 ^ 27 * root := by
    rw [abs_le]
    constructor <;> linarith
  have hnearSquare := abs_sq_sub_sq_le hnear (abs_of_nonneg (by linarith)).le
  rw [abs_le] at hnearSquare ⊢
  constructor <;> linarith

namespace Vector

variable {v : Vector}

theorem norm_eq (v : Vector) :
    v.norm = Binary.convert (Binary.sqrt (Binary.convert v.squares : Double)) := rfl

/-- A sum that is no number, or infinite, gives such a length. -/
theorem not_isFinite_norm (h : ¬ v.squares.isFinite) : ¬ v.norm.isFinite := by
  rw [norm_eq]
  cases hsquares : v.squares with
  | nan => exact Bool.false_ne_true
  | infinite negative => cases negative <;> exact Bool.false_ne_true
  | finite negative code =>
      rw [hsquares] at h
      exact absurd rfl h

/-- A sum that is zero gives the length zero. -/
theorem isZero_norm (h : v.squares.isZero) : v.norm.isZero := by
  have hwide : (Binary.convert v.squares : Double).isZero := Binary.isZero_convert h
  obtain ⟨sign, hzero⟩ := Binary.exists_eq_zero hwide
  have hroot : Binary.sqrt (Binary.zero sign : Double) = Binary.zero sign := rfl
  rw [norm_eq, hzero, hroot]
  exact Binary.isZero_convert (beq_self_eq_true 0)

/-- The length in 32 bits of a vector whose squares neither overflow nor all vanish is positive, and
its square is the exact square of the length up to a factor. Where the squares of small coordinates
do not count it is close to that. -/
theorem norm_bounds (hfinite : v.squares.isFinite) (hvanish : ¬ v.Vanishes) :
    v.norm.isFinite ∧ 0 < v.norm.toRat ∧ v.squaredLength ≤ 4 * v.norm.toRat ^ 2 ∧
      v.norm.toRat ^ 2 ≤ 5 * v.squaredLength ∧
      (1 / 2 ^ 131 ≤ v.squaredLength →
        |v.norm.toRat ^ 2 - v.squaredLength| ≤ 85 / 10 ^ 7 * v.squaredLength) := by
  obtain ⟨hnonneg, hnear, htimes⟩ := squares_bounds hfinite
  have hne : v.squares.toRat ≠ 0 := fun hzero => hvanish ((squares_eq_zero_iff hfinite).mp hzero)
  have hpos : 0 < v.squares.toRat := lt_of_le_of_ne hnonneg hne.symm
  obtain ⟨hroot, hrootPos, hrootNear⟩ := root_near hfinite hpos
  rw [← norm_eq] at hroot hrootPos hrootNear
  -- a sum that does not vanish is at least a unit
  have hunit : 1 / 2 ^ 149 ≤ v.squares.toRat := by
    rw [← Format.unit_single]
    exact Binary.unit_le_toRat hpos
  rw [abs_le] at hnear hrootNear
  refine ⟨hroot, hrootPos, by linarith, by linarith, fun hlarge => ?_⟩
  rw [abs_le]
  constructor <;> linarith

end Vector

end Polygon

end SceneSet
