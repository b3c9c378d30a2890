import SceneSet.Number.Binary
import SceneSet.Text.Latin

/-!
# Records of a set

A set holds camera setups, lights and sectors. Offsets are those of the records in the buffer that
they were read from. The layout of lights is not known, so a light keeps its bytes.
-/

namespace SceneSet

open Number (Double)

/-- A point of space, or a direction. -/
structure Point3 where
  x : Double
  y : Double
  z : Double
  deriving DecidableEq

namespace Point3

/-- The three coordinates. -/
def coordinates (p : Point3) : List Double := [p.x, p.y, p.z]

/-- The coordinate on one of the three axes. -/
def coordinate (p : Point3) (axis : Fin 3) : Double := p.coordinates.get axis

/-- The origin. -/
def zero : Point3 := ⟨.zero false, .zero false, .zero false⟩

end Point3

/-- What a sector is for. -/
inductive SectorType where
  | none
  | walk
  | funnel
  | camera
  | special
  | hot
  deriving DecidableEq

namespace SectorType

/-- All types, in the order of their tags. -/
def all : List SectorType := [none, walk, funnel, camera, special, hot]

/-- The tag of a type. Tags are bit patterns, not a dense range. -/
def tag : SectorType → Int
  | none => 0x0000
  | walk => 0x1000
  | funnel => 0x1100
  | camera => 0x2000
  | special => 0x4000
  | hot => 0x8000

/-- The type with exactly this tag. -/
def ofTag? (tag : Int) : Option SectorType := all.find? fun type => type.tag = tag

/-- The name of a type. -/
def name : SectorType → String
  | none => "none"
  | walk => "walk"
  | funnel => "funnel"
  | camera => "camera"
  | special => "special"
  | hot => "hot"

/-- The name of a type as reports write it: none at all for sectors without a purpose. -/
def label : SectorType → String
  | none => ""
  | type => type.name

/-- The label for a tag; unknown tags have none. -/
def labelOfTag (tag : Int) : String := ((ofTag? tag).map label).getD ""

end SectorType

/-- What shape of light a light casts. No light of a set is decoded as far as that. -/
inductive LightType where
  | omni
  | direct
  deriving DecidableEq

namespace LightType

/-- All types, in the order of their tags. -/
def all : List LightType := [omni, direct]

/-- The tag of a type. -/
def tag : LightType → Int
  | omni => 0
  | direct => 1

/-- The name of a type. -/
def name : LightType → String
  | omni => "omni"
  | direct => "direct"

end LightType

/-- A camera setup. The set format stores neither background nor depth image. -/
structure Setup where
  offset : Int
  name : String
  tile : String
  position : Point3
  interest : Point3
  roll : Double
  fov : Double
  nearClip : Double
  farClip : Double
  background : String
  zbuffer : String
  deriving DecidableEq

/-- A light, kept as it is stored. -/
structure Light where
  offset : Int
  payload : Bytes
  deriving DecidableEq

namespace Light

/-- The fields that a stored light is known to have; none of them is decoded. -/
def fields : List String :=
  ["name", "type", "position", "direction", "intensity", "umbra_angle", "penumbra_angle", "color"]

end Light

/-- A sector: a polygon with a purpose. The tag of its type is kept also if it is unknown. -/
structure Sector where
  offset : Int
  name : String
  id : Int
  tag : Int
  visible : Bool
  height : Double
  vertices : List Point3
  normal : Point3
  deriving DecidableEq

namespace Sector

/-- The type of a sector, if its tag is known. -/
def type? (sector : Sector) : Option SectorType := SectorType.ofTag? sector.tag

end Sector

end SceneSet
