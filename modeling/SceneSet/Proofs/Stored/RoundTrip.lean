import SceneSet.Proofs.Scene.Erasure
import SceneSet.Proofs.Stored.Image

/-!
# Reading images of sets

Each record is read from its image as the record that the image stands for, whatever follows
(`SetupImage.reads`, `LightImage.reads`, `SectorImage.reads`), and so a set is read from its image
as the scene that the image stands for (`SetImage.read_bytes_append`).
-/

namespace SceneSet

/-- A point is read from its image. -/
theorem PointImage.reads (image : PointImage) (start : Nat) :
    Reads Point3.read start image.bytes image.point := by
  refine (Reads.float32 image.x).bind ?_
  refine (Reads.float32 image.y).bind ?_
  refine (Reads.float32 image.z).bind ?_
  exact Reads.pure _

/-- A setup is read from its image. -/
theorem SetupImage.reads (image : SetupImage) (start : Nat) :
    Reads Setup.read start image.bytes (image.setup start) := by
  have hunknown : (4 : Int) = image.unknown.length := by
    rw [image.unknown_size]
    rfl
  refine Reads.offset_bind ?_
  refine (Reads.fixedString image.name_plain image.name_size.symm).bind ?_
  refine (Reads.skip hunknown).bind ?_
  refine (Reads.cString image.tile_plain).bind ?_
  refine (image.position.reads _).bind ?_
  refine (image.interest.reads _).bind ?_
  refine (Reads.float32 image.roll).bind ?_
  refine (Reads.float32 image.fov).bind ?_
  refine (Reads.float32 image.nearClip).bind ?_
  refine (Reads.float32 image.farClip).bind ?_
  exact Reads.pure _

/-- A light is read from its image. -/
theorem LightImage.reads (image : LightImage) (start : Nat) :
    Reads Light.read start image.bytes (image.light start) :=
  Reads.offset_bind (Reads.bytes (congrArg Nat.cast image.size.symm)).map

/-- A sector is read from its image, whatever its tag is, if unknown tags are no faults. -/
theorem SectorImage.reads (image : SectorImage) (legacy : Bool) (start : Nat) :
    Reads (Sector.read ⟨false, legacy⟩) start image.bytes (image.sector legacy start) := by
  have hvertices : ∀ start, Reads (repeated Point3.read image.vertices.length) start
      (image.vertices.flatMap PointImage.bytes) (image.vertices.map PointImage.point) := by
    intro start
    rw [← laidOut_const PointImage.bytes PointImage.point start]
    exact Reads.repeated fun point _ => point.reads
  have htrailer : ((image.trailerWords * Sector.trailerWordSize : Nat) : Int) =
      image.trailer.length := congrArg Nat.cast image.trailer_size.symm
  refine Reads.offset_bind ?_
  refine (Reads.count image.vertices_count _).bind ?_
  refine (hvertices _).bind ?_
  refine (Reads.count image.name_size _).bind ?_
  refine (Reads.fixedString image.name_plain rfl).bind ?_
  refine (Reads.int32 image.id).bind ?_
  refine (Reads.bool8 image.visible).bind ?_
  refine (Reads.int32 image.tag).bind ?_
  refine (Reads.count image.trailerWords_count _).bind ?_
  refine (Reads.skip htrailer).bind ?_
  refine (Reads.float32 image.height).bind ?_
  exact Reads.pure _

/-- A set is read from its image. -/
theorem SetImage.reads (image : SetImage) (legacy : Bool) :
    Reads (Scene.reader ⟨false, legacy⟩) 0 image.bytes (image.scene legacy) := by
  refine (Reads.count image.setups_count _).bind ?_
  refine (Reads.repeated fun setup _ => setup.reads).bind ?_
  refine (Reads.count image.lights_count _).bind ?_
  refine (Reads.repeated fun light _ => light.reads).bind ?_
  refine (Reads.count image.sectors_count _).bind ?_
  refine (Reads.repeated fun sector _ => sector.reads legacy).bind ?_
  refine Reads.offset_bind ?_
  -- the reader has come to the offsets at which the image says that the sections start
  have hlights : image.lightsStart = 0 + (Bytes.ofNat 4 image.setups.length).length +
      (image.setups.flatMap SetupImage.bytes).length +
      (Bytes.ofNat 4 image.lights.length).length := by
    simp [SetImage.lightsStart]
  have hsectors : image.sectorsStart = image.lightsStart +
      (image.lights.flatMap LightImage.bytes).length +
      (Bytes.ofNat 4 image.sectors.length).length := by
    simp [SetImage.sectorsStart]
  have hstop : image.bytes.length = image.sectorsStart +
      (image.sectors.flatMap SectorImage.bytes).length := by
    simp [SetImage.bytes, SetImage.sectorsStart, SetImage.lightsStart]
    omega
  rw [← hlights, ← hsectors, ← hstop]
  exact Reads.pure _

/-- Reading undoes storing: the image of a set, whatever bytes follow it, is read as the scene that
it stands for, with or without a log. The numbers of the scene are exactly those that the patterns
of the image store. -/
theorem SetImage.read_bytes_append (image : SetImage) (tail : Bytes) (legacy : Bool)
    (log : Option Log) :
    (Scene.read ⟨false, legacy⟩ log (image.bytes ++ tail)).1 = .ok (image.scene legacy) ∧
      ∀ pattern : UInt32, Number.Stores pattern.toNat (Number.widened pattern.toNat) := by
  refine ⟨?_, fun pattern => Number.stores_widened _⟩
  rw [Scene.read_fst]
  unfold Cursor.ofBytes
  rw [image.reads legacy tail]

/-- A setup, a light and two sectors. The first sector is a triangle with a trailer, and the second
has neither vertices nor a known tag. No padding is made of zeros, and one of the numbers is
infinite. -/
def SetImage.room : SetImage where
  setups := [{
    name := [0x76]
    padding := List.replicate 126 0xee
    unknown := [1, 2, 3, 4]
    tile := [0x61, 0x2e, 0x62, 0x6d]
    position := ⟨0x3f800000, 0xc0000000, 0x40400000⟩
    interest := ⟨0, 0x80000000, 0⟩
    roll := 0
    fov := 0x42280000
    nearClip := 0x3f800000
    farClip := 0x7f800000
    name_plain := by decide
    name_size := by simp [Bytes.ofName, Setup.nameSize]
    unknown_size := rfl
    tile_plain := by decide }]
  lights := [⟨List.replicate 100 0x55, List.length_replicate⟩]
  sectors := [{
    vertices := [⟨0, 0, 0⟩, ⟨0, 0, 0x3f800000⟩, ⟨0x3f800000, 0, 0⟩]
    name := [0x66, 0x6c, 0x6f, 0x6f, 0x72]
    padding := [0xff, 0xff]
    id := 7
    visible := 2
    tag := 0x1000
    trailerWords := 2
    trailer := [1, 2, 3, 4, 5, 6, 7, 8]
    height := 0x40000000
    vertices_count := by decide
    name_plain := by decide
    name_size := by decide
    trailerWords_count := by decide
    trailer_size := rfl }, {
    vertices := []
    name := []
    padding := []
    id := -1
    visible := 0
    tag := 0x1234
    trailerWords := 0
    trailer := []
    height := 0x80000000
    vertices_count := by decide
    name_plain := by decide
    name_size := by decide
    trailerWords_count := by decide
    trailer_size := rfl }]
  setups_count := by decide
  lights_count := by decide
  sectors_count := by decide

/-- All that is stored of the room is read, in spite of the bytes behind it. -/
theorem SetImage.read_bytes_append_room :
    ∃ scene, (Scene.read ⟨false, false⟩ (some .empty) (room.bytes ++ [0xff, 0xff])).1 = .ok scene ∧
      scene.setups = [{
        offset := 4
        name := "v"
        tile := "a.bm"
        position := ⟨.ofInt 1, .ofInt (-2), .ofInt 3⟩
        interest := ⟨.zero false, .zero true, .zero false⟩
        roll := .zero false
        fov := .ofInt 42
        nearClip := .ofInt 1
        farClip := .infinite false
        background := ""
        zbuffer := "" }] ∧
      scene.lights = [⟨185, List.replicate 100 0x55⟩] ∧
      scene.sectors.map (fun sector => (sector.offset, sector.name, sector.id, sector.tag,
        sector.visible, sector.height)) =
          [(289, "floor", 7, 0x1000, true, .ofInt 2), (366, "", -1, 0x1234, false, .zero true)] ∧
      scene.sectors.map (·.vertices) =
        [[⟨.zero false, .zero false, .zero false⟩, ⟨.zero false, .zero false, .ofInt 1⟩,
          ⟨.ofInt 1, .zero false, .zero false⟩], []] ∧
      scene.length = 392 := by
  obtain ⟨hread, -⟩ := read_bytes_append room [0xff, 0xff] false (some .empty)
  refine ⟨_, hread, ?_, ?_, ?_, ?_, ?_⟩
  all_goals decide +kernel

end SceneSet
