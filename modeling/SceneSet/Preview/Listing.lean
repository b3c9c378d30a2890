import SceneSet.Json
import SceneSet.Preview.Drawing

/-!
# Listings of drawings

Drawing calls as JSON values, for those who paint the picture.
-/

namespace SceneSet.Preview

namespace Color

/-- The four parts of a colour. -/
def toJson (color : Color) : Json :=
  .array ([color.red, color.green, color.blue, color.alpha].map fun (part : Nat) => .integer part)

end Color

namespace Call

/-- A point as an array of its coordinates. -/
def pointJson (p : Point2 Number.Double) : Json := .array [.number p.x, .number p.y]

/-- A drawing call. -/
def toJson : Call → Json
  | newImage size color =>
      .object [("call", .string "new"), ("size", .integer size), ("color", color.toJson)]
  | line points fill width =>
      .object [("call", .string "line"), ("points", .array (points.map pointJson)),
        ("fill", fill.toJson), ("width", .integer width)]
  | ellipse low high fill =>
      .object [("call", .string "ellipse"), ("low", pointJson low), ("high", pointJson high),
        ("fill", fill.toJson)]
  | text position label fill =>
      .object [("call", .string "text"), ("at", pointJson position), ("text", .string label),
        ("fill", fill.toJson)]
  | save path => .object [("call", .string "save"), ("path", .string path.text)]

end Call

end SceneSet.Preview
