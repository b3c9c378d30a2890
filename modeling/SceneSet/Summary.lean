import SceneSet.Json
import SceneSet.Scene

/-!
# JSON summaries

The JSON value of a scene. It holds all that is known of the scene but the background and the
depth image of its setups; a light is given by the names of the fields that it must have and by
its bytes in base sixteen.
-/

namespace SceneSet.Summary

/-- A point as an array of its coordinates. -/
def point (p : Point3) : Json := .array (p.coordinates.map .number)

/-- A setup. -/
def setup (s : Setup) : Json := .object
  [("offset", .integer s.offset), ("name", .string s.name), ("tile", .string s.tile),
   ("position", point s.position), ("interest", point s.interest), ("roll", .number s.roll),
   ("fov", .number s.fov), ("nclip", .number s.nearClip), ("fclip", .number s.farClip)]

/-- A light. -/
def light (l : Light) : Json := .object
  [("offset", .integer l.offset), ("decoded", .bool false),
   ("undecoded_fields", .array (Light.fields.map .string)),
   ("payload", .string (String.ofList (Numeral.hexBytes l.payload)))]

/-- A sector. -/
def sector (s : Sector) : Json := .object
  [("offset", .integer s.offset), ("name", .string s.name), ("id", .integer s.id),
   ("type_tag", .integer s.tag),
   ("type", match s.type? with
     | some type => .string type.name
     | none => .null),
   ("visible", .bool s.visible), ("height", .number s.height), ("normal", point s.normal),
   ("vertices", .array (s.vertices.map point))]

/-- A scene. -/
def scene (s : Scene) : Json := .object
  [("set_name", .string s.name), ("length", .integer s.length),
   ("colormaps", .array (s.colormaps.map .string)), ("num_setups", .integer s.setupCount),
   ("num_lights", .integer s.lightCount), ("num_sectors", .integer s.sectorCount),
   ("setups", .array (s.setups.map setup)), ("lights", .array (s.lights.map light)),
   ("sectors", .array (s.sectors.map sector))]

/-- A scene with the names of the file and of the archive that it was read from. -/
def bundle (source : String) (archive : Option String) (s : Scene) : Json := .object
  [("source", .string source),
   ("archive", match archive with
     | some path => .string path
     | none => .null),
   ("scene", scene s)]

end SceneSet.Summary
