import SceneSet.Proofs.Number.Cancellation
import SceneSet.Proofs.Polygon.Length

/-!
# Normals

A normal is taken from three corners of a polygon (`Corners`). It exists just if the rounded sum of
the squares of the cross product is finite and not all of the squares vanish
(`Vector.unit?_eq_none_iff`). What is divided by the length is then finite and not zero in all
coordinates, so the flag says just whether the normal is zero (`normal_wellBehaved`). The normal is
a unit vector where the squares do not lose what they are the squares of (`normal_unit`).
-/

namespace SceneSet

open Number (Binary Single Double Format)

namespace Point3

variable (p q : Point3)

/-- All coordinates are numbers that are not infinite. -/
structure IsFinite : Prop where
  x : p.x.isFinite
  y : p.y.isFinite
  z : p.z.isFinite

/-- All coordinates are zeros, of any sign. -/
structure IsZero : Prop where
  x : p.x.isZero
  y : p.y.isZero
  z : p.z.isZero

/-- The coordinates of both points compare equal. -/
structure Same : Prop where
  x : p.x.Same q.x
  y : p.y.Same q.y
  z : p.z.Same q.z

/-- The exact square of the distance to the origin. -/
def squaredLength : ℚ := p.x.toRat ^ 2 + p.y.toRat ^ 2 + p.z.toRat ^ 2

theorem isFinite_zero : zero.IsFinite := ⟨rfl, rfl, rfl⟩

theorem isZero_zero : zero.IsZero := ⟨rfl, rfl, rfl⟩

variable {p}

theorem squaredLength_of_isZero (h : p.IsZero) : p.squaredLength = 0 := by
  unfold squaredLength
  rw [Binary.toRat_of_isZero h.x, Binary.toRat_of_isZero h.y, Binary.toRat_of_isZero h.z]
  norm_num

end Point3

namespace Polygon

/-! ### Products that cancel -/

namespace Vector

variable (v w : Vector)

/-- All coordinates are zeros or not finite. -/
structure Null : Prop where
  x : v.x.Null
  y : v.y.Null
  z : v.z.Null

/-- The coordinates of both vectors compare equal. -/
structure Same : Prop where
  x : v.x.Same w.x
  y : v.y.Same w.y
  z : v.z.Same w.z

/-- All coordinates are zeros, of any sign. -/
structure IsZero : Prop where
  x : v.x.isZero
  y : v.y.isZero
  z : v.z.isZero

instance : Decidable v.IsFinite :=
  decidable_of_iff (v.x.isFinite ∧ v.y.isFinite ∧ v.z.isFinite)
    ⟨fun ⟨x, y, z⟩ => ⟨x, y, z⟩, fun ⟨x, y, z⟩ => ⟨x, y, z⟩⟩

instance : Decidable v.IsZero :=
  decidable_of_iff (v.x.isZero ∧ v.y.isZero ∧ v.z.isZero)
    ⟨fun ⟨x, y, z⟩ => ⟨x, y, z⟩, fun ⟨x, y, z⟩ => ⟨x, y, z⟩⟩

variable {v w}

theorem Same.ofPoint {p q : Point3} (h : p.Same q) : (ofPoint p).Same (ofPoint q) :=
  ⟨h.x.convert, h.y.convert, h.z.convert⟩

theorem Same.sub_right (h : v.Same w) (u : Vector) : (v.sub u).Same (w.sub u) :=
  ⟨h.x.sub_right u.x, h.y.sub_right u.y, h.z.sub_right u.z⟩

theorem Same.null_sub (h : v.Same w) : (v.sub w).Null :=
  ⟨h.x.null_sub, h.y.null_sub, h.z.null_sub⟩

/-- The cross product with a null vector is null. -/
theorem Null.cross (h : w.Null) (legacy : Bool) (v : Vector) : (cross legacy v w).Null where
  x := (h.z.mul_right v.y).sub (h.y.mul_left v.z)
  y := by
    cases legacy with
    | true => exact (h.z.mul_right v.x).sub (h.x.mul_left v.z)
    | false => exact (h.x.mul_right v.z).sub (h.z.mul_right v.x)
  z := (h.y.mul_right v.x).sub (h.x.mul_left v.y)

/-- The cross product of a vector with itself is null. -/
theorem Same.cross (h : v.Same w) (legacy : Bool) : (cross legacy v w).Null where
  x := (h.y.mul h.z.symm).null_sub
  y := by
    cases legacy with
    | true => exact (h.x.mul h.z.symm).null_sub
    | false =>
        have hsame := (h.z.mul h.x.symm).null_sub
        rwa [Binary.mul_comm w.z] at hsame
  z := (h.x.mul h.y.symm).null_sub

theorem IsZero.vanishes (h : v.IsZero) : v.Vanishes := by
  constructor
  · rw [Binary.toRat_of_isZero h.x]
    norm_num
  · rw [Binary.toRat_of_isZero h.y]
    norm_num
  · rw [Binary.toRat_of_isZero h.z]
    norm_num

theorem Null.isZero (h : v.Null) (hfinite : v.IsFinite) : v.IsZero :=
  ⟨h.x hfinite.x, h.y hfinite.y, h.z hfinite.z⟩

end Vector

/-! ### Quotients -/

/-- The quotient by a length that is not less than half of the dividend does not overflow, and its
square is nearly that of the exact quotient. -/
theorem quotient_near {x n : Single} (hx : x.isFinite) (hn : n.isFinite) (hpos : 0 < n.toRat)
    (hbound : x.toRat ^ 2 ≤ 4 * n.toRat ^ 2) :
    let quotient : Double := (x / n).convert
    quotient.isFinite ∧
      |quotient.toRat ^ 2 - (x.toRat / n.toRat) ^ 2| ≤
        1 / 2 ^ 22 * (x.toRat / n.toRat) ^ 2 + 1 / 2 ^ 200 := by
  have hzero : ¬ n.isZero := fun h => hpos.ne' (Binary.toRat_of_isZero h)
  obtain ⟨negative, hdiv⟩ := Binary.div_eq_round hx hn hzero
  have hsize : |x.toRat / n.toRat| ≤ 2 := by
    refine abs_le_of_sq_le_sq ?_ (by norm_num)
    rw [div_pow, div_le_iff₀ (by positivity)]
    linarith
  generalize x.toRat / n.toRat = exact at hdiv hsize ⊢
  have hfinite : (x / n).isFinite := by
    rw [hdiv]
    apply Binary.isFinite_round
    rw [Format.roundoff_single, Format.unit_single, Format.limit_single]
    have hmax : max (1 / 2 ^ 24 * |exact|) (1 / 2 ^ 149 / 2 : ℚ) ≤ 1 :=
      max_le (by linarith) (by norm_num)
    linarith
  obtain ⟨hwide, hvalue⟩ := convert_exact hfinite
  refine ⟨hwide, ?_⟩
  rw [hvalue]
  rw [hdiv] at hfinite ⊢
  have hnear := Binary.abs_toRat_round_sub_le hfinite
  rw [Format.roundoff_single, Format.unit_single] at hnear
  have hsquare := abs_sq_sub_sq_le hnear le_rfl
  have hsq : |exact| ^ 2 = exact ^ 2 := sq_abs exact
  have hnonneg : 0 ≤ |exact| := abs_nonneg exact
  refine hsquare.trans ?_
  rcases max_cases (1 / 2 ^ 24 * |exact|) (1 / 2 ^ 149 / 2 : ℚ) with ⟨hmax, -⟩ | ⟨hmax, hsmall⟩
  · rw [hmax, ← hsq]
    have : 0 ≤ |exact| ^ 2 := sq_nonneg _
    linarith
  · rw [hmax]
    have : 0 ≤ exact ^ 2 := sq_nonneg _
    linarith

namespace Vector

variable {v : Vector} {p : Point3}

/-- The vector divided by its length in 32 bits, if that is positive and finite. -/
def unit? (v : Vector) : Option Point3 :=
  if v.norm.isZero || !v.norm.isFinite then none else some (v.scaleDown v.norm)

/-- There is no unit vector just if the sum of the squares overflows or all squares vanish. -/
theorem unit?_eq_none_iff : v.unit? = none ↔ ¬ v.squares.isFinite ∨ v.Vanishes := by
  unfold unit?
  by_cases hfinite : v.squares.isFinite
  · by_cases hvanish : v.Vanishes
    · have hzero := (Binary.toRat_eq_zero_iff hfinite).mp ((squares_eq_zero_iff hfinite).mpr hvanish)
      simp [isZero_norm hzero, hvanish]
    · obtain ⟨hnorm, hpos, -⟩ := norm_bounds hfinite hvanish
      have hzero : v.norm.isZero = false :=
        Bool.eq_false_iff.mpr fun h => hpos.ne' (Binary.toRat_of_isZero h)
      simp [hzero, hnorm, hfinite, hvanish]
  · simp [not_isFinite_norm hfinite, hfinite]

theorem unit?_eq_some (h : v.unit? = some p) :
    v.squares.isFinite ∧ ¬ v.Vanishes ∧ p = v.scaleDown v.norm := by
  have hsome : ¬ v.unit? = none := by
    rw [h]
    exact Option.some_ne_none p
  rw [unit?_eq_none_iff, not_or, not_not] at hsome
  refine ⟨hsome.1, hsome.2, ?_⟩
  unfold unit? at h
  split at h
  · cases h
  · exact (Option.some.inj h).symm

/-- A vector divided by a number that is not less than half of its length is finite, and its length
is nearly the exact quotient. -/
theorem scaleDown_near {n : Single} (hv : v.IsFinite) (hn : n.isFinite) (hpos : 0 < n.toRat)
    (hbound : v.squaredLength ≤ 4 * n.toRat ^ 2) :
    (v.scaleDown n).IsFinite ∧
      |(v.scaleDown n).squaredLength - v.squaredLength / n.toRat ^ 2| ≤
        1 / 2 ^ 22 * (v.squaredLength / n.toRat ^ 2) + 3 / 2 ^ 200 := by
  have hx : 0 ≤ v.x.toRat ^ 2 := sq_nonneg _
  have hy : 0 ≤ v.y.toRat ^ 2 := sq_nonneg _
  have hz : 0 ≤ v.z.toRat ^ 2 := sq_nonneg _
  have hlength : v.squaredLength = v.x.toRat ^ 2 + v.y.toRat ^ 2 + v.z.toRat ^ 2 := rfl
  obtain ⟨hxFinite, hxNear⟩ := quotient_near hv.x hn hpos (by linarith)
  obtain ⟨hyFinite, hyNear⟩ := quotient_near hv.y hn hpos (by linarith)
  obtain ⟨hzFinite, hzNear⟩ := quotient_near hv.z hn hpos (by linarith)
  have hsum : v.squaredLength / n.toRat ^ 2 = (v.x.toRat / n.toRat) ^ 2 +
      (v.y.toRat / n.toRat) ^ 2 + (v.z.toRat / n.toRat) ^ 2 := by
    rw [hlength, div_pow, div_pow, div_pow, add_div, add_div]
  refine ⟨⟨hxFinite, hyFinite, hzFinite⟩, ?_⟩
  rw [hsum]
  unfold Point3.squaredLength scaleDown
  rw [abs_le] at hxNear hyNear hzNear ⊢
  constructor <;> linarith

/-- A unit vector is finite and not zero, and its length is nearly one where the sum of the squares
is large enough for what the least squares lose not to count. -/
theorem unit?_bounds (h : v.unit? = some p) :
    p.IsFinite ∧ ¬ p.IsZero ∧
      (1 / 2 ^ 131 ≤ v.squaredLength → |p.squaredLength - 1| ≤ 1 / 10 ^ 5) := by
  obtain ⟨hsquares, hvanish, rfl⟩ := unit?_eq_some h
  obtain ⟨hnorm, hpos, hlower, hupper, hclose⟩ := norm_bounds hsquares hvanish
  obtain ⟨hfinite, hnear⟩ := scaleDown_near (.of_squares hsquares) hnorm hpos hlower
  have hnormSq : 0 < v.norm.toRat ^ 2 := by positivity
  generalize hratio : v.squaredLength / v.norm.toRat ^ 2 = ratio at hnear
  -- the length is not much too great, so not all quotients vanish
  have hfifth : 1 / 5 ≤ ratio := by
    rw [← hratio, le_div_iff₀ hnormSq]
    linarith
  rw [abs_le] at hnear
  refine ⟨hfinite, fun hzero => ?_, fun hlarge => ?_⟩
  · rw [Point3.squaredLength_of_isZero hzero] at hnear
    linarith
  · have hcloseness := abs_le.mp (hclose hlarge)
    have hratioLower : 1 - 86 / 10 ^ 7 ≤ ratio := by
      rw [← hratio, le_div_iff₀ hnormSq]
      linarith
    have hratioUpper : ratio ≤ 1 + 86 / 10 ^ 7 := by
      rw [← hratio, div_le_iff₀ hnormSq]
      linarith
    rw [abs_le]
    constructor <;> linarith

end Vector

/-! ### Corners -/

/-- The vertices that the normal of a polygon is taken from. -/
structure Corners (vertices : List Point3) (first second last : Point3) : Prop where
  first : vertices[0]? = some first
  second : vertices[1]? = some second
  last : vertices.getLast? = some last

section Corners

variable {vertices others : List Point3} {first second last : Point3}

theorem exists_corners (h : 2 ≤ vertices.length) :
    ∃ first second last, Corners vertices first second last := by
  match vertices, h with
  | first :: second :: rest, _ =>
      exact ⟨first, second, rest.getLastD second, rfl, rfl, by simp [List.getLast?_cons]⟩

theorem unitNormal?_of_corners (legacy : Bool) (h : Corners vertices first second last) :
    unitNormal? legacy vertices = (crossProduct legacy first second last).unit? := by
  obtain ⟨hfirst, hsecond, hlast⟩ := h
  match vertices, hfirst, hsecond with
  | first :: second :: rest, rfl, rfl =>
      obtain rfl : rest.getLastD second = last := by simpa [List.getLast?_cons] using hlast
      rfl

theorem unitNormal?_of_length_lt (legacy : Bool) (h : vertices.length < 2) :
    unitNormal? legacy vertices = none := by
  match vertices, h with
  | [], _ => rfl
  | [_], _ => rfl

/-- Two polygons with the same corners, or both with too few vertices for corners. -/
inductive SameCorners (vertices others : List Point3) : Prop
  | few (h : vertices.length < 2) (h' : others.length < 2)
  | corners {first second last : Point3} (h : Corners vertices first second last)
      (h' : Corners others first second last)

theorem SameCorners.unitNormal?_eq (h : SameCorners vertices others) (legacy : Bool) :
    unitNormal? legacy others = unitNormal? legacy vertices := by
  cases h with
  | few h h' => rw [unitNormal?_of_length_lt legacy h, unitNormal?_of_length_lt legacy h']
  | corners h h' => rw [unitNormal?_of_corners legacy h, unitNormal?_of_corners legacy h']

/-- A unit normal is the unit vector of a cross product of corners. -/
theorem exists_corners_of_unitNormal? {legacy : Bool} {normal : Point3}
    (h : unitNormal? legacy vertices = some normal) :
    ∃ first second last, Corners vertices first second last ∧
      (crossProduct legacy first second last).unit? = some normal := by
  rcases Nat.lt_or_ge vertices.length 2 with hfew | hmany
  · rw [unitNormal?_of_length_lt legacy hfew] at h
    cases h
  · obtain ⟨first, second, last, hcorners⟩ := exists_corners hmany
    rw [unitNormal?_of_corners legacy hcorners] at h
    exact ⟨first, second, last, hcorners, h⟩

/-- Edges that are one edge, or of which one has no length, have a null cross product. -/
theorem null_crossProduct (legacy : Bool) (h : last.Same first ∨ last.Same second) :
    (crossProduct legacy first second last).Null := by
  rcases h with hfirst | hsecond
  · exact (Vector.Same.ofPoint hfirst).null_sub.cross legacy _
  · have hsame : second.Same last := ⟨hsecond.x.symm, hsecond.y.symm, hsecond.z.symm⟩
    exact ((Vector.Same.ofPoint hsame).sub_right _).cross legacy

theorem isDegenerate_iff (legacy : Bool) (vertices : List Point3) :
    isDegenerate legacy vertices = true ↔ unitNormal? legacy vertices = none :=
  Option.isNone_iff_eq_none

/-- A polygon with corners is degenerate just if the sum of the squares of the cross product
overflows or all squares vanish. -/
theorem isDegenerate_iff_of_corners (legacy : Bool) (h : Corners vertices first second last) :
    isDegenerate legacy vertices = true ↔
      ¬ (crossProduct legacy first second last).squares.isFinite ∨
        (crossProduct legacy first second last).Vanishes := by
  rw [isDegenerate_iff, unitNormal?_of_corners legacy h, Vector.unit?_eq_none_iff]

end Corners

/-- The normal of any polygon is finite, and the flag says just whether it is zero. Both depend on
the corners only. A polygon whose last vertex is its first or its second one is degenerate. -/
theorem normal_wellBehaved (legacy : Bool) (vertices : List Point3) :
    (normal legacy vertices).IsFinite ∧
      (isDegenerate legacy vertices = true ↔ normal legacy vertices = .zero) ∧
      (isDegenerate legacy vertices = true ↔ (normal legacy vertices).IsZero) ∧
      (∀ others, SameCorners vertices others →
        normal legacy others = normal legacy vertices ∧
          isDegenerate legacy others = isDegenerate legacy vertices) ∧
      ∀ first second last, Corners vertices first second last →
        last.Same first ∨ last.Same second → isDegenerate legacy vertices = true := by
  have hresult : (isDegenerate legacy vertices = true ∧ normal legacy vertices = .zero) ∨
      (¬ isDegenerate legacy vertices = true ∧ (normal legacy vertices).IsFinite ∧
        ¬ (normal legacy vertices).IsZero) := by
    rw [isDegenerate_iff]
    unfold normal
    cases hunit : unitNormal? legacy vertices with
    | none => exact .inl ⟨rfl, rfl⟩
    | some point =>
        obtain ⟨first, second, last, -, hvector⟩ := exists_corners_of_unitNormal? hunit
        obtain ⟨hfinite, hzero, -⟩ := Vector.unit?_bounds hvector
        exact .inr ⟨Option.some_ne_none point, hfinite, hzero⟩
  refine ⟨?_, ?_, ?_, fun others hsame => ?_, fun first second last hcorners hsame => ?_⟩
  · rcases hresult with ⟨-, hzero⟩ | ⟨-, hfinite, -⟩
    · exact hzero ▸ Point3.isFinite_zero
    · exact hfinite
  · rcases hresult with ⟨hflag, hzero⟩ | ⟨hflag, -, hzero⟩
    · exact iff_of_true hflag hzero
    · exact iff_of_false hflag fun heq => hzero (heq ▸ Point3.isZero_zero)
  · rcases hresult with ⟨hflag, hzero⟩ | ⟨hflag, -, hzero⟩
    · exact iff_of_true hflag (hzero ▸ Point3.isZero_zero)
    · exact iff_of_false hflag hzero
  · unfold normal isDegenerate
    rw [hsame.unitNormal?_eq legacy]
    exact ⟨rfl, rfl⟩
  · rw [isDegenerate_iff_of_corners legacy hcorners]
    -- a product that cancels overflows or is zero
    by_cases hfinite : (crossProduct legacy first second last).squares.isFinite
    · have hzero := (null_crossProduct legacy hsame).isZero (.of_squares hfinite)
      exact .inr hzero.vanishes
    · exact .inl hfinite

theorem normal_wellBehaved_odd :
    let odd : Point3 := ⟨.nan, .infinite true, .zero true⟩
    isDegenerate true [.zero, odd, .zero, odd] = true ∧
      normal true [.zero, odd, odd, odd] = normal true [.zero, odd, .zero, odd] := by
  intro odd
  obtain ⟨-, -, -, hcorners, hsame⟩ := normal_wellBehaved true [.zero, odd, .zero, odd]
  exact ⟨hsame _ _ _ ⟨rfl, rfl, rfl⟩ (.inr ⟨.inl rfl, .inl rfl, .inl rfl⟩),
    (hcorners _ (.corners ⟨rfl, rfl, rfl⟩ ⟨rfl, rfl, rfl⟩)).1⟩

/-- The length of a cross product is taken from squares in 32 bits, whose range is smaller than that
of the product. A polygon is degenerate just if it has no corners, if the sum of the squares
overflows or if all squares vanish, which are those of at most `2 ^ (-75)`. So it is if the product
is zero or not finite, and if the exact sum is out of range; in range, it is just if all squares
vanish. The normal is a unit vector if the sum of the squares is large enough for what they lose not
to count. -/
theorem normal_unit (legacy : Bool) (vertices : List Point3) :
    (vertices.length < 2 → isDegenerate legacy vertices = true) ∧
      ∀ first second last, Corners vertices first second last →
        let product := crossProduct legacy first second last
        (isDegenerate legacy vertices = true ↔ ¬ product.squares.isFinite ∨ product.Vanishes) ∧
          (product.IsZero ∨ ¬ product.IsFinite → isDegenerate legacy vertices = true) ∧
          (product.IsFinite → 2 ^ 128 + 2 ^ 107 ≤ product.squaredLength →
            isDegenerate legacy vertices = true) ∧
          (product.IsFinite → product.squaredLength ≤ 2 ^ 128 - 2 ^ 107 →
            (isDegenerate legacy vertices = true ↔ product.Vanishes)) ∧
          (isDegenerate legacy vertices = false → 1 / 2 ^ 131 ≤ product.squaredLength →
            |(normal legacy vertices).squaredLength - 1| ≤ 1 / 10 ^ 5) := by
  refine ⟨fun hfew => ?_, fun first second last hcorners => ?_⟩
  · rw [isDegenerate_iff]
    exact unitNormal?_of_length_lt legacy hfew
  · intro product
    have hflag := isDegenerate_iff_of_corners legacy hcorners
    refine ⟨hflag, ?_, fun hfinite hlarge => ?_, fun hfinite hlimit => ?_,
      fun hnormal hlarge => ?_⟩
    · rw [hflag]
      rintro (hzero | hinfinite)
      · exact .inr hzero.vanishes
      · exact .inl fun hsquares => hinfinite (.of_squares hsquares)
    · rw [hflag]
      exact .inl fun hsquares => absurd hlarge (not_le.mpr (Vector.squaredLength_lt hsquares))
    · rw [hflag]
      exact or_iff_right (not_not.mpr (Vector.isFinite_squares hfinite hlimit))
    · have hunit : ∃ point, unitNormal? legacy vertices = some point :=
        Option.isSome_iff_exists.mp (Option.isNone_eq_false_iff.mp hnormal)
      obtain ⟨point, hpoint⟩ := hunit
      have hresult : normal legacy vertices = point := by
        unfold normal
        rw [hpoint]
        rfl
      rw [unitNormal?_of_corners legacy hcorners] at hpoint
      rw [hresult]
      exact (Vector.unit?_bounds hpoint).2.2 hlarge

/-- A vertex on the first axis, where a word of 64 bits says. -/
def across (word : Nat) : Point3 := ⟨.ofBits word, .zero false, .zero false⟩

/-- A vertex on the second axis, where a word of 64 bits says. -/
def upward (word : Nat) : Point3 := ⟨.zero false, .ofBits word, .zero false⟩

/-- A right-angled triangle with these edges. -/
def triangle (width height : Nat) : List Point3 := [.zero, across width, upward height]

/-- The cross product of the edges of such a triangle. -/
def triangleProduct (width height : Nat) : Vector :=
  crossProduct false .zero (across width) (upward height)

theorem normal_unit_triangle :
    (isDegenerate false (triangle 0x3FF0000000000000 0x4000000000000000) = true ↔
        (triangleProduct 0x3FF0000000000000 0x4000000000000000).Vanishes) ∧
      |(normal false (triangle 0x3FF0000000000000 0x4000000000000000)).squaredLength - 1| ≤
        1 / 10 ^ 5 := by
  obtain ⟨-, -, -, hdegenerate, hunit⟩ :=
    (normal_unit false (triangle 0x3FF0000000000000 0x4000000000000000)).2 _ _ _ ⟨rfl, rfl, rfl⟩
  exact ⟨hdegenerate (by decide +kernel) (by decide +kernel),
    hunit (by decide +kernel) (by decide +kernel)⟩

/-- Squares out of range. Edges of `2 ^ (-40)`, or of `2 ^ 40`, have a product that is finite and not
zero, but the polygon has no normal. Edges of `2 ^ (-37)` and `27 / 16 * 2 ^ (-38)` have a normal
that is no unit vector. -/
theorem normal_out_of_range :
    ((triangleProduct 0x3D70000000000000 0x3D70000000000000).IsFinite ∧
        ¬ (triangleProduct 0x3D70000000000000 0x3D70000000000000).IsZero ∧
        isDegenerate false (triangle 0x3D70000000000000 0x3D70000000000000) = true) ∧
      ((triangleProduct 0x4270000000000000 0x4270000000000000).IsFinite ∧
        ¬ (triangleProduct 0x4270000000000000 0x4270000000000000).IsZero ∧
        isDegenerate false (triangle 0x4270000000000000 0x4270000000000000) = true) ∧
      isDegenerate false (triangle 0x3DA0000000000000 0x3D9B000000000000) = false ∧
      7 / 5 < (normal false (triangle 0x3DA0000000000000 0x3D9B000000000000)).squaredLength := by
  decide +kernel

end Polygon

end SceneSet
