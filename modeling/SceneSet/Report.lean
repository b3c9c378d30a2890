import SceneSet.Number.Decimal
import SceneSet.Scene

/-!
# Text reports

The report of a scene is made of lines whose fields are separated by tabs. Numbers have six
decimal places. Colormaps are never listed, lights are empty records, and the announced count of
lights is zero unless the true one is asked for.
-/

namespace SceneSet.Report

open Number (Double)

/-- A number with six decimal places. -/
def number (value : Double) : String := value.fixed 6

/-- The coordinates of a point, separated by tabs. -/
def point (p : Point3) : String :=
  number p.x ++ "\t" ++ number p.y ++ "\t" ++ number p.z

/-- A line of a record: a name and a value. -/
def field (name value : String) : String := "\t" ++ name ++ "\t" ++ value ++ "\n"

/-- The record of a setup. -/
def setup (s : Setup) : String :=
  field "name" s.name ++ field "position" (point s.position) ++ field "interest" (point s.interest)
    ++ field "roll" (number s.roll) ++ field "fov" (number s.fov)
    ++ field "nclip" (number s.nearClip) ++ field "fclip" (number s.farClip)

/-- The record of a light, which says nothing. -/
def light (_ : Light) : String := ""

/-- The vertices of a sector. The first follows their heading on its line; without vertices that
line is not ended. -/
def vertices (points : List Point3) : String :=
  "\tvertices:\t\t" ++ String.intercalate "\t\t\t\t" (points.map fun p => point p ++ "\n")

/-- The record of a sector. -/
def sector (s : Sector) : String :=
  field "sector" s.name ++ field "ID" (Numeral.text s.id)
    ++ field "type" (SectorType.labelOfTag s.tag)
    ++ field "default visibility" (if s.visible then "visible" else "invisible")
    ++ field "height" (number s.height)
    ++ field "numvertices" (Numeral.text s.vertices.length)
    ++ field "normal\t\t" (point s.normal) ++ vertices s.vertices

/-- Records, each followed by two line feeds. -/
def records {α : Type} (record : α → String) (items : List α) : String :=
  String.join (items.map fun item => record item ++ "\n\n")

/-- The report of a scene; `trueCounts` announces the lights that there are. -/
def scene (trueCounts : Bool) (s : Scene) : String :=
  "section: colormaps\n"
    ++ "section: setups\n"
    ++ "\tnumsetups " ++ Numeral.text s.setups.length ++ "\n"
    ++ records setup s.setups
    ++ "section: lights\n"
    ++ "\tnumlights " ++ Numeral.text (if trueCounts then s.lights.length else 0) ++ "\n"
    ++ records light s.lights
    ++ "section: sectors\n"
    ++ records sector s.sectors

end SceneSet.Report
