import SceneSet.Files.Path
import SceneSet.Preview.Scale
import SceneSet.Record

/-!
# Preview drawings

A preview shows the sectors of a scene on one of the coordinate planes. It is a list of drawing
calls: a new picture, then for each sector with vertices its outline in the colour of its type, or
a dot for a single vertex, and its name if labels are wanted, and at last the saving of the
picture. Sectors without vertices leave no trace.
-/

namespace SceneSet.Preview

open Number (Binary Double)
open Files (Path)

/-- A coordinate plane. -/
inductive Plane where
  | xy
  | xz
  | yz
  deriving DecidableEq

namespace Plane

/-- All planes. -/
def all : List Plane := [xy, xz, yz]

/-- The name of a plane. -/
def name : Plane → String
  | xy => "xy"
  | xz => "xz"
  | yz => "yz"

/-- The plane with a name. -/
def ofName? (name : String) : Option Plane := all.find? fun plane => plane.name == name

/-- The axes that span a plane. -/
def axes : Plane → Fin 3 × Fin 3
  | xy => (0, 1)
  | xz => (0, 2)
  | yz => (1, 2)

/-- A point seen on a plane. -/
def project (plane : Plane) (p : Point3) : Point2 Double :=
  ⟨p.coordinate plane.axes.1, p.coordinate plane.axes.2⟩

end Plane

/-- A colour with its opacity. -/
structure Color where
  red : Nat
  green : Nat
  blue : Nat
  alpha : Nat
  deriving DecidableEq

namespace Color

/-- The background of a preview, which is transparent. -/
def background : Color := ⟨255, 255, 255, 0⟩

/-- The colour for a sector of some type, or of an unknown one. -/
def ofType : Option SectorType → Color
  | some .walk => ⟨40, 120, 40, 255⟩
  | some .funnel => ⟨40, 160, 160, 255⟩
  | some .camera => ⟨40, 80, 200, 255⟩
  | some .special => ⟨200, 120, 20, 255⟩
  | some .hot => ⟨200, 40, 40, 255⟩
  | some .none | none => ⟨110, 110, 110, 255⟩

end Color

/-- A drawing call. -/
inductive Call where
  | newImage (size : Int) (color : Color)
  | line (points : List (Point2 Double)) (fill : Color) (width : Int)
  | ellipse (low high : Point2 Double) (fill : Color)
  | text (position : Point2 Double) (text : String) (fill : Color)
  | save (path : Path)
  deriving DecidableEq

/-- What a preview looks like: the size of the picture, the plane, whether sectors are labelled,
and the share of the margin. -/
structure Style where
  size : Int
  plane : Plane
  labels : Bool
  padding : Double

namespace Style

/-- The usual share of the margin. -/
def usualPadding : Double := Binary.round false (1 / 20)

/-- Whether the size is in the range of numbers, so that points can be placed in the picture. -/
def isDrawable (style : Style) : Bool := (Binary.ofInt style.size : Double).isFinite

/-- The width of lines: one, or more in large pictures. -/
def stroke (style : Style) : Int :=
  let width := (Binary.ofInt style.size / Binary.ofInt 256 : Double).toRat
  max 1 (width.num.tdiv width.den)

end Style

/-- A sector that is drawn: its name, its colour, and its vertices on the plane. -/
structure Shape where
  name : String
  color : Color
  first : Point2 Double
  rest : List (Point2 Double)

namespace Shape

/-- The shape of a sector, if it has vertices. -/
def ofSector? (plane : Plane) (sector : Sector) : Option Shape :=
  match sector.vertices.map plane.project with
  | [] => none
  | first :: rest => some ⟨sector.name, Color.ofType sector.type?, first, rest⟩

/-- The vertices of a shape. -/
def points (shape : Shape) : List (Point2 Double) := shape.first :: shape.rest

/-- The mean of some numbers, added from the first to the last. -/
def mean (values : List Double) : Double :=
  values.foldl (· + ·) (Binary.zero false) / Binary.ofInt values.length

/-- The calls for a shape. -/
def calls (style : Style) (scale : Scale Double) (shape : Shape) : List Call :=
  let start := scale.place shape.first
  let outline := shape.points.map scale.place
  let drawn :=
    if shape.rest.isEmpty then
      let stroke : Double := Binary.ofInt style.stroke
      Call.ellipse (start.map (· - stroke)) (start.map (· + stroke)) shape.color
    else Call.line (outline ++ [start]) shape.color style.stroke
  let label :=
    if style.labels then
      [Call.text ⟨mean (outline.map (·.x)), mean (outline.map (·.y))⟩ shape.name shape.color]
    else []
  drawn :: label

end Shape

/-- The scale for some shapes, from all their points; there is none without shapes. -/
def scaleOf? (style : Style) (shapes : List Shape) : Option (Scale Double) :=
  match shapes.flatMap (·.points) with
  | [] => none
  | first :: rest => some (Scale.fit (Binary.ofInt style.size) style.padding first rest)

/-- The shapes of the sectors that have vertices. -/
def shapesOf (plane : Plane) (sectors : List Sector) : List Shape :=
  sectors.filterMap (Shape.ofSector? plane)

/-- A drawing: its calls but for the saving, and how many sectors it shows. -/
structure Drawing where
  calls : List Call
  drawn : Nat

/-- The drawing of some sectors. There is none if no sector has vertices. -/
def Drawing.ofSectors? (style : Style) (sectors : List Sector) : Option Drawing :=
  let shapes := shapesOf style.plane sectors
  (scaleOf? style shapes).map fun scale =>
    { calls := Call.newImage style.size .background :: shapes.flatMap (Shape.calls style scale)
      drawn := shapes.length }

end SceneSet.Preview
