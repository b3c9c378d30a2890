import SceneSet.Record

/-!
# Normals of polygons

The unit normal of a plane polygon, from its first, second and last vertex. All arithmetic is done
in 32 bits, each operation rounded on its own, so that the result is the one that the makers of
sets store.
-/

namespace SceneSet.Polygon

open Number (Binary Single Double)

/-- A vector of 32-bit numbers. -/
structure Vector where
  x : Single
  y : Single
  z : Single
  deriving DecidableEq

namespace Vector

/-- A point with its coordinates rounded to 32 bits. -/
def ofPoint (p : Point3) : Vector := ⟨p.x.convert, p.y.convert, p.z.convert⟩

/-- The difference, coordinate by coordinate. -/
def sub (v w : Vector) : Vector := ⟨v.x - w.x, v.y - w.y, v.z - w.z⟩

/-- The cross product; `legacy` gives its second coordinate the opposite sign. -/
def cross (legacy : Bool) (a b : Vector) : Vector where
  x := a.y * b.z - b.y * a.z
  y := if legacy then a.x * b.z - b.x * a.z else a.z * b.x - a.x * b.z
  z := a.x * b.y - b.x * a.y

/-- The length. The sum of the squares is rounded to 32 bits and its root is taken in 64. -/
def norm (v : Vector) : Single :=
  let squared : Single := v.x * v.x + v.y * v.y + v.z * v.z
  Binary.convert (Binary.sqrt (Binary.convert squared : Double))

/-- The vector divided by a length. -/
def scaleDown (v : Vector) (length : Single) : Point3 :=
  ⟨(v.x / length).convert, (v.y / length).convert, (v.z / length).convert⟩

end Vector

/-- The cross product of the edges from the first vertex to the second and to the last. -/
def crossProduct (legacy : Bool) (first second last : Point3) : Vector :=
  let origin := Vector.ofPoint first
  Vector.cross legacy ((Vector.ofPoint second).sub origin) ((Vector.ofPoint last).sub origin)

/-- The unit normal of a polygon. There is none if it has fewer than two vertices or if the cross
product has no finite positive length in 32 bits. -/
def unitNormal? (legacy : Bool) : List Point3 → Option Point3
  | first :: second :: rest =>
      let product := crossProduct legacy first second (rest.getLastD second)
      let length := product.norm
      if length.isZero || !length.isFinite then none else some (product.scaleDown length)
  | _ => none

/-- The normal of a polygon, zero for one that has no unit normal. -/
def normal (legacy : Bool) (vertices : List Point3) : Point3 :=
  (unitNormal? legacy vertices).getD .zero

/-- Whether a polygon has no unit normal. -/
def isDegenerate (legacy : Bool) (vertices : List Point3) : Bool :=
  (unitNormal? legacy vertices).isNone

end SceneSet.Polygon
