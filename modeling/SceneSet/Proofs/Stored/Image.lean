import SceneSet.Proofs.Reader.Reads
import SceneSet.Scene

/-!
# Images of sets

An image of a record says all that is stored for it, down to the padding and the bytes that no
reader looks at. It has two sides: `bytes`, how it is stored, and the record that it stands for
(`SetupImage.setup`, `LightImage.light`, `SectorImage.sector`). A `SetImage` is a whole set.
Numbers of 32 bits are given by their patterns.
-/

namespace SceneSet

open Number (widened)

/-- Three numbers of 32 bits. -/
structure PointImage where
  x : UInt32
  y : UInt32
  z : UInt32

namespace PointImage

/-- How a point is stored. -/
def bytes (image : PointImage) : Bytes :=
  [Bytes.ofUInt32 image.x, Bytes.ofUInt32 image.y, Bytes.ofUInt32 image.z].flatten

/-- The point that is stored. -/
def point (image : PointImage) : Point3 where
  x := widened image.x.toNat
  y := widened image.y.toNat
  z := widened image.z.toNat

end PointImage

/-- All that is stored for a setup. The name is padded to the size of its field, and four bytes
between name and tile are not looked at. -/
structure SetupImage where
  name : Bytes
  padding : Bytes
  unknown : Bytes
  tile : Bytes
  position : PointImage
  interest : PointImage
  roll : UInt32
  fov : UInt32
  nearClip : UInt32
  farClip : UInt32
  name_plain : 0 ∉ name
  name_size : (Bytes.ofName name padding).length = Setup.nameSize
  unknown_size : unknown.length = 4
  tile_plain : 0 ∉ tile

namespace SetupImage

/-- How a setup is stored. -/
def bytes (image : SetupImage) : Bytes :=
  [Bytes.ofName image.name image.padding, image.unknown, Bytes.ofName image.tile [],
    image.position.bytes, image.interest.bytes, Bytes.ofUInt32 image.roll,
    Bytes.ofUInt32 image.fov, Bytes.ofUInt32 image.nearClip,
    Bytes.ofUInt32 image.farClip].flatten

/-- The setup that is stored at some offset. -/
def setup (offset : Nat) (image : SetupImage) : Setup where
  offset := offset
  name := Latin.decode image.name
  tile := Latin.decode image.tile
  position := image.position.point
  interest := image.interest.point
  roll := widened image.roll.toNat
  fov := widened image.fov.toNat
  nearClip := widened image.nearClip.toNat
  farClip := widened image.farClip.toNat
  background := ""
  zbuffer := ""

end SetupImage

/-- All that is stored for a light: a block of a fixed size. -/
structure LightImage where
  payload : Bytes
  size : payload.length = Light.storedSize

namespace LightImage

/-- How a light is stored. -/
def bytes (image : LightImage) : Bytes := image.payload

/-- The light that is stored at some offset. -/
def light (offset : Nat) (image : LightImage) : Light := ⟨offset, image.payload⟩

end LightImage

/-- All that is stored for a sector. The name is padded to a field whose size is stored before it,
and a trailer, whose number of words is stored before it, is not looked at. -/
structure SectorImage where
  vertices : List PointImage
  name : Bytes
  padding : Bytes
  id : Int32
  visible : UInt8
  tag : Int32
  trailerWords : Nat
  trailer : Bytes
  height : UInt32
  vertices_count : vertices.length < 2 ^ 31
  name_plain : 0 ∉ name
  name_size : (Bytes.ofName name padding).length < 2 ^ 31
  trailerWords_count : trailerWords < 2 ^ 31
  trailer_size : trailer.length = trailerWords * Sector.trailerWordSize

namespace SectorImage

/-- How a sector is stored. -/
def bytes (image : SectorImage) : Bytes :=
  [Bytes.ofNat 4 image.vertices.length, image.vertices.flatMap PointImage.bytes,
    Bytes.ofNat 4 (Bytes.ofName image.name image.padding).length,
    Bytes.ofName image.name image.padding, Bytes.ofInt32 image.id, [image.visible],
    Bytes.ofInt32 image.tag, Bytes.ofNat 4 image.trailerWords, image.trailer,
    Bytes.ofUInt32 image.height].flatten

/-- The sector that is stored at some offset. Its normal is not stored. -/
def sector (legacy : Bool) (offset : Nat) (image : SectorImage) : Sector where
  offset := offset
  name := Latin.decode image.name
  id := image.id.toInt
  tag := image.tag.toInt
  visible := image.visible != 0
  height := widened image.height.toNat
  vertices := image.vertices.map PointImage.point
  normal := Polygon.normal legacy (image.vertices.map PointImage.point)

end SectorImage

/-- All that is stored for a set. -/
structure SetImage where
  setups : List SetupImage
  lights : List LightImage
  sectors : List SectorImage
  setups_count : setups.length < 2 ^ 31
  lights_count : lights.length < 2 ^ 31
  sectors_count : sectors.length < 2 ^ 31

namespace SetImage

/-- How a set is stored. -/
def bytes (image : SetImage) : Bytes :=
  [Bytes.ofNat 4 image.setups.length, image.setups.flatMap SetupImage.bytes,
    Bytes.ofNat 4 image.lights.length, image.lights.flatMap LightImage.bytes,
    Bytes.ofNat 4 image.sectors.length, image.sectors.flatMap SectorImage.bytes].flatten

/-- The offset of the first light, behind the setups and the word with the number of lights. -/
def lightsStart (image : SetImage) : Nat :=
  4 + (image.setups.flatMap SetupImage.bytes).length + 4

/-- The offset of the first sector. -/
def sectorsStart (image : SetImage) : Nat :=
  image.lightsStart + (image.lights.flatMap LightImage.bytes).length + 4

/-- The scene that is stored. -/
def scene (legacy : Bool) (image : SetImage) : Scene where
  setups := laidOut SetupImage.bytes SetupImage.setup 4 image.setups
  lights := laidOut LightImage.bytes LightImage.light image.lightsStart image.lights
  sectors := laidOut SectorImage.bytes (SectorImage.sector legacy) image.sectorsStart image.sectors
  setupCount := image.setups.length
  lightCount := image.lights.length
  sectorCount := image.sectors.length
  length := image.bytes.length
  name := ""
  colormaps := []

end SetImage

end SceneSet
