import SceneSet.Bytes.Cursor
import SceneSet.Diagnostics
import SceneSet.Polygon

/-!
# Stored records

How a setup, a light and a sector are read, and what is to be noted about a sector. Fields are
read in the order in which they are stored, because the sizes of later ones are stored before
them. A name is padded to the field that holds it.
-/

namespace SceneSet

open Number (Double)

/-- How a set is read: whether unknown sector tags are faults, and whether the second coordinate
of normals has the opposite sign. -/
structure ReadOptions where
  strict : Bool
  legacyNormal : Bool
  deriving DecidableEq

/-- Three numbers of 32 bits. -/
def Point3.read : Reader Point3 := do
  let x ← Reader.float32
  let y ← Reader.float32
  let z ← Reader.float32
  pure ⟨x, y, z⟩

namespace Setup

/-- The size of the field that holds the name of a setup. -/
def nameSize : Nat := 128

/-- The next setup. -/
def read : Reader Setup := do
  let offset ← Reader.offset
  let name ← Reader.fixedString nameSize
  Reader.skip 4
  let tile ← Reader.cString
  let position ← Point3.read
  let interest ← Point3.read
  let roll ← Reader.float32
  let fov ← Reader.float32
  let nearClip ← Reader.float32
  let farClip ← Reader.float32
  pure ⟨offset, name, tile, position, interest, roll, fov, nearClip, farClip, "", ""⟩

end Setup

namespace Light

/-- The size of a stored light. -/
def storedSize : Nat := 100

/-- The next light. -/
def read : Reader Light := do
  let offset ← Reader.offset
  let payload ← Reader.bytes storedSize
  pure ⟨offset, payload⟩

end Light

namespace Sector

/-- The size of a word of the part of a sector that is skipped. -/
def trailerWordSize : Nat := 4

/-- The next sector. Its tag is looked at when all of it has been read. -/
def read (options : ReadOptions) : Reader Sector := do
  let offset ← Reader.offset
  let vertexCount ← Reader.count "vertex count"
  let vertices ← repeated Point3.read vertexCount
  let nameLength ← Reader.count "sector name length"
  let name ← Reader.fixedString nameLength
  let id ← Reader.int32
  let visible ← Reader.bool8
  let tag ← Reader.int32
  let trailerWords ← Reader.count "sector trailer length"
  Reader.skip (trailerWords * trailerWordSize : Nat)
  let height ← Reader.float32
  if options.strict && (SectorType.ofTag? tag).isNone then
    throw (.unknownTag tag offset "SectorType")
  else
    pure ⟨offset, name, id, tag, visible, height, vertices,
      Polygon.normal options.legacyNormal vertices⟩

/-- The note that a sector has an unknown tag. -/
def unknownTagNote (sector : Sector) : Diagnostic :=
  ⟨"unknown-tag", sector.offset, "sector " ++ Quoted.text sector.name ++ " has type tag "
    ++ Numeral.tag sector.tag ++ "; rendered without a label"⟩

/-- The note that a sector has no normal. -/
def degenerateNote (sector : Sector) : Diagnostic :=
  ⟨"degenerate", sector.offset, "sector " ++ Quoted.text sector.name ++ " with "
    ++ Numeral.text sector.vertices.length
    ++ " vertex(es) has no usable normal; using zero vector"⟩

/-- What is to be noted about a sector that was read. -/
def notes (options : ReadOptions) (sector : Sector) : List Diagnostic :=
  (if sector.type?.isNone then [sector.unknownTagNote] else [])
    ++ (if Polygon.isDegenerate options.legacyNormal sector.vertices
        then [sector.degenerateNote] else [])

end Sector

end SceneSet
