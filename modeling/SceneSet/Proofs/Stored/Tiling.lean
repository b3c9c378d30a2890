import SceneSet.Proofs.Reader.Walk
import SceneSet.Proofs.Scene.Erasure

/-!
# How a set tiles its buffer

`Setup.StoredAt`, `Light.StoredAt` and `Sector.StoredAt` say where in a buffer each field of a
record is stored and where the record ends. The readers of records follow every walk through a
buffer and give records that are stored there (`Walk.Follows.setup` and so on). `Scene.read_tiles`
shows that the records of every scene that is read are stored one right behind the other, each
section behind the word with its count, from the start of the buffer to `Scene.length`. Nothing is
assumed of the bytes: a name may run over the end of its field and of its record.
-/

namespace SceneSet

open Bytes (slice signedAt numberAt pointAt TextAt)

/-- The numbers of a setup follow the tile, and the tile the field of the name and four bytes. -/
def Setup.numbersStart (setup : Setup) (start : Nat) : Nat :=
  start + 128 + 4 + (setup.tile.length + 1)

/-- A setup is stored from `start` up to `stop`. -/
structure Setup.StoredAt (data : Bytes) (start : Nat) (setup : Setup) (stop : Nat) : Prop where
  offset : setup.offset = start
  name : TextAt data start setup.name
  tile : TextAt data (start + 128 + 4) setup.tile
  position : setup.position = pointAt data (setup.numbersStart start)
  interest : setup.interest = pointAt data (setup.numbersStart start + 12)
  roll : setup.roll = numberAt data (setup.numbersStart start + 24)
  fov : setup.fov = numberAt data (setup.numbersStart start + 28)
  nearClip : setup.nearClip = numberAt data (setup.numbersStart start + 32)
  farClip : setup.farClip = numberAt data (setup.numbersStart start + 36)
  background : setup.background = ""
  zbuffer : setup.zbuffer = ""
  stop : stop = start + (128 + 4 + (setup.tile.length + 1) + 12 + 12 + 16)

/-- A light is stored from `start` up to `stop`. -/
structure Light.StoredAt (data : Bytes) (start : Nat) (light : Light) (stop : Nat) : Prop where
  offset : light.offset = start
  payload : light.payload = slice data start 100
  stop : stop = start + 100

/-- The sizes that a stored sector announces: its vertices, the bytes of the field of its name, and
the words of its trailer. -/
structure Sector.Sizes where
  vertices : Nat
  name : Nat
  trailer : Nat

namespace Sector.Sizes

/-- The field of the name of a sector that starts at `start`. -/
def nameStart (sizes : Sizes) (start : Nat) : Nat := start + 4 + 12 * sizes.vertices + 4

/-- What follows the name of a sector that starts at `start`. -/
def nameStop (sizes : Sizes) (start : Nat) : Nat := sizes.nameStart start + sizes.name

/-- The height of a sector that starts at `start`, behind the trailer. -/
def height (sizes : Sizes) (start : Nat) : Nat :=
  sizes.nameStop start + 4 + 1 + 4 + 4 + 4 * sizes.trailer

/-- The size of a sector. -/
def total (sizes : Sizes) : Nat :=
  4 + 12 * sizes.vertices + 4 + sizes.name + 4 + 1 + 4 + 4 + 4 * sizes.trailer + 4

end Sector.Sizes

/-- A sector with these sizes is stored from `start` on. -/
structure Sector.StoredWith (legacy : Bool) (data : Bytes) (start : Nat) (sector : Sector)
    (sizes : Sizes) : Prop where
  offset : sector.offset = start
  vertexCount : signedAt data start = sizes.vertices
  vertices : sector.vertices =
    (List.range sizes.vertices).map fun i => pointAt data (start + 4 + 12 * i)
  nameLength : signedAt data (start + 4 + 12 * sizes.vertices) = sizes.name
  name : TextAt data (sizes.nameStart start) sector.name
  id : sector.id = signedAt data (sizes.nameStop start)
  visible : ∃ byte, data[sizes.nameStop start + 4]? = some byte ∧ sector.visible = (byte != 0)
  tag : sector.tag = signedAt data (sizes.nameStop start + 4 + 1)
  trailerWords : signedAt data (sizes.nameStop start + 4 + 1 + 4) = sizes.trailer
  height : sector.height = numberAt data (sizes.height start)
  normal : sector.normal = Polygon.normal legacy sector.vertices

/-- A sector is stored from `start` up to `stop`. -/
def Sector.StoredAt (legacy : Bool) (data : Bytes) (start : Nat) (sector : Sector) (stop : Nat) :
    Prop :=
  ∃ sizes : Sizes, sector.StoredWith legacy data start sizes ∧ stop = start + sizes.total

/-- The records of a scene are stored from `start` up to `stop`: each section starts with the word
with its count, the second at `lights` and the third at `sectors`, and its records follow one right
behind the other. -/
structure Scene.StoredAt (legacy : Bool) (data : Bytes) (start : Nat) (scene : Scene) (stop : Nat) :
    Prop where
  length : scene.length = stop
  setupCount : scene.setupCount = scene.setups.length
  lightCount : scene.lightCount = scene.lights.length
  sectorCount : scene.sectorCount = scene.sectors.length
  name : scene.name = ""
  colormaps : scene.colormaps = []
  sections : ∃ lights sectors,
    signedAt data start = scene.setupCount ∧
    Tiled (Setup.StoredAt data) (start + 4) scene.setups lights ∧
    signedAt data lights = scene.lightCount ∧
    Tiled (Light.StoredAt data) (lights + 4) scene.lights sectors ∧
    signedAt data sectors = scene.sectorCount ∧
    Tiled (Sector.StoredAt legacy data) (sectors + 4) scene.sectors stop

/-- Consecutive points are found by their index. -/
theorem Tiled.points {data : Bytes} {start stop : Nat} {points : List Point3}
    (h : Tiled (fun start value stop => stop = start + 12 ∧ value = pointAt data start)
      start points stop) :
    stop = start + 12 * points.length ∧
      points = (List.range points.length).map fun i => pointAt data (start + 12 * i) := by
  induction h with
  | nil start => exact ⟨rfl, rfl⟩
  | @cons start middle stop value values hvalue _ ih =>
      obtain ⟨rfl, rfl⟩ := hvalue
      obtain ⟨hstop, hvalues⟩ := ih
      rw [List.length_cons, List.range_succ_eq_map, List.map_cons, List.map_map]
      refine ⟨by omega, ?_⟩
      congr 1
      refine hvalues.trans (List.map_congr_left fun i _ => ?_)
      show pointAt data (start + 12 + 12 * i) = pointAt data (start + 12 * (i + 1))
      congr 1
      omega

/-- Where the name of a sector is stored, behind the vertices that it announces. -/
def Sector.nameStart (data : Bytes) (start : Nat) : Nat :=
  start + 4 + 12 * (signedAt data start).toNat + 4

/-- What is in front of the sectors of a scene is stored from `start` up to `stop`. -/
structure Scene.Front.StoredAt (data : Bytes) (start : Nat) (front : Scene.Front) (stop : Nat) :
    Prop where
  setupCount : front.setups.length = front.setupCount
  lightCount : front.lights.length = front.lightCount
  sections : ∃ lights sectors,
    signedAt data start = front.setupCount ∧
    Tiled (Setup.StoredAt data) (start + 4) front.setups lights ∧
    signedAt data lights = front.lightCount ∧
    Tiled (Light.StoredAt data) (lights + 4) front.lights sectors ∧
    signedAt data sectors = front.sectorCount ∧ stop = sectors + 4

/-- What is in front of the sectors, stored somewhere else. -/
def Scene.Front.moved (distance : Int) (front : Scene.Front) : Scene.Front :=
  { front with
    setups := front.setups.map (Setup.moved distance)
    lights := front.lights.map (Light.moved distance) }

/-- The scene that is stored somewhere else. -/
def Scene.moved (distance : Int) (scene : Scene) : Scene :=
  { scene with
    setups := scene.setups.map (Setup.moved distance)
    lights := scene.lights.map (Light.moved distance)
    sectors := scene.sectors.map (Sector.moved distance)
    length := scene.length + distance }

/-! ### Records on a walk -/

namespace Walk

variable {data : Bytes} {walk : Walk data} {start : Nat}

/-- An unknown tag may be refused by a strict reading, where a sector that has it is stored. -/
def Refuses (walk : Walk data) (options : ReadOptions) : Prop :=
  ∀ {start stop : Nat} {sector : Sector}, options.strict = true → stop ≤ data.length →
    sector.StoredAt options.legacyNormal data start stop → SectorType.ofTag? sector.tag = none →
    walk.met (.unknownTag sector.tag start "SectorType")

theorem refuses_between {origin kept : Nat} {front back : Bytes} {options : ReadOptions} :
    (between data origin kept front back).Refuses options :=
  fun _ _ _ _ => trivial

namespace Follows

/-- The NUL that ends the tile of a setup is behind the place of its name, so that the name needs
none of its own. -/
theorem setup : walk.Follows start (Setup.moved walk.distance) (Setup.StoredAt data start)
    Setup.read Setup.read := by
  refine of_named start (fun kept hname => ?_) fun setup stop hstored => ?_
  · refine offset_bind fun hplace => ?_
    refine (fixedString (.inl (Int.natCast_nonneg _)) hname).bind_same ?_
    rintro name _ ⟨rfl, hnameAt⟩
    refine (skip (.inl (by decide))).bind_same ?_
    rintro _ _ rfl
    refine cString.bind_same ?_
    rintro tile _ ⟨rfl, htile⟩
    refine point.bind_same ?_
    rintro _ _ ⟨rfl, rfl⟩
    refine point.bind_same ?_
    rintro _ _ ⟨rfl, rfl⟩
    refine float32.bind_same ?_
    rintro _ _ ⟨rfl, rfl⟩
    refine float32.bind_same ?_
    rintro _ _ ⟨rfl, rfl⟩
    refine float32.bind_same ?_
    rintro _ _ ⟨rfl, rfl⟩
    refine float32.bind_same ?_
    rintro _ _ ⟨rfl, rfl⟩
    refine pure (by rw [hplace]; rfl) ?_
    exact {
      offset := rfl
      name := hnameAt
      tile := htile
      position := rfl
      interest := rfl
      roll := rfl
      fov := rfl
      nearClip := rfl
      farClip := rfl
      background := rfl
      zbuffer := rfl
      stop := by simp only [Setup.nameSize]; omega }
  · have hstop := hstored.stop
    have htile := hstored.tile.firstNul
    exact ⟨_, Nat.le_trans (by omega) htile.le, htile.nul, by omega⟩

theorem light : walk.Follows start (Light.moved walk.distance) (Light.StoredAt data start)
    Light.read Light.read := by
  refine offset_bind fun hplace => ?_
  refine (bytes (.inl (Int.natCast_nonneg _))).bind_same ?_
  rintro _ _ ⟨rfl, rfl⟩
  exact pure (by rw [hplace]; rfl) ⟨rfl, rfl, rfl⟩

/-- The name of a sector may run over all that follows. The tag is looked at when all fields are
read, so it decides only whether there is a sector. -/
theorem sector {options : ReadOptions} (htag : walk.Refuses options)
    (hname : walk.Named (Sector.nameStart data start)) :
    walk.Follows start (Sector.moved walk.distance)
      (Sector.StoredAt options.legacyNormal data start) (Sector.read options)
      (Sector.read options) := by
  refine offset_bind fun hplace => ?_
  -- each field ends where the next one starts, and the counts that are read move the later ones
  refine (count _).bind_same ?_
  rintro vertexCount _ ⟨rfl, hvertexCount⟩
  refine ((repeated (fun _ => point) vertexCount).same List.map_id).bind_same ?_
  rintro vertices _ ⟨rfl, htiled⟩
  obtain ⟨rfl, hvertices⟩ := htiled.points
  refine (count _).bind_same ?_
  rintro nameLength _ ⟨rfl, hnameLength⟩
  rw [Sector.nameStart, hvertexCount, Int.toNat_natCast] at hname
  refine (fixedString (.inl (Int.natCast_nonneg nameLength)) hname).bind_same ?_
  rintro name _ ⟨rfl, hnameAt⟩
  refine int32.bind_same ?_
  rintro id _ ⟨rfl, hid⟩
  refine bool8.bind_same ?_
  rintro visible _ ⟨rfl, hvisible⟩
  refine int32.bind_same ?_
  rintro tag _ ⟨rfl, htagAt⟩
  refine (count _).bind_same ?_
  rintro trailerWords _ ⟨rfl, htrailerWords⟩
  rw [show trailerWords * Sector.trailerWordSize = 4 * trailerWords from Nat.mul_comm ..]
  refine (skip (.inl (Int.natCast_nonneg (4 * trailerWords)))).bind_same ?_
  rintro _ _ rfl
  refine float32.bind_same ?_
  rintro height stop ⟨hstop, hheight⟩
  have hstored : Sector.StoredAt options.legacyNormal data start
      ⟨start, name, id, tag, visible, height, vertices,
        Polygon.normal options.legacyNormal vertices⟩ stop := by
    refine ⟨⟨vertices.length, nameLength, trailerWords⟩, ?_, ?_⟩
    · exact {
        offset := rfl
        vertexCount := hvertexCount
        vertices := hvertices
        nameLength := hnameLength
        name := hnameAt
        id := hid
        visible := hvisible
        tag := htagAt
        trailerWords := htrailerWords
        height := hheight
        normal := rfl }
    · simp only [Sector.Sizes.total]
      omega
  refine ite (fun hunknown => ?_) fun _ => pure (by rw [hplace]; rfl) hstored
  obtain ⟨hstrict, htype⟩ := Bool.and_eq_true_iff.mp hunknown
  exact throw (fun hend => htag hstrict hend hstored (Option.isNone_iff_eq_none.mp htype))
    (.unknownTag _ _ hplace)

theorem front : walk.Follows start (Scene.Front.moved walk.distance)
    (Scene.Front.StoredAt data start) Scene.front Scene.front := by
  refine (count _).bind_same ?_
  rintro _ _ ⟨rfl, hsetupCount⟩
  refine (repeated (fun _ => setup) _).bind ?_
  rintro setups lightsAt ⟨rfl, hsetups⟩
  refine (count _).bind_same ?_
  rintro _ _ ⟨rfl, hlightCount⟩
  refine (repeated (fun _ => light) _).bind ?_
  rintro lights sectorsAt ⟨rfl, hlights⟩
  refine (count _).bind_same ?_
  rintro _ _ ⟨rfl, hsectorCount⟩
  exact pure rfl ⟨rfl, rfl, lightsAt, sectorsAt, hsetupCount, hsetups, hlightCount, hlights,
    hsectorCount, rfl⟩

/-- A whole set needs all bytes of the buffer to be in common, as any of them may end a name. -/
theorem scene {options : ReadOptions} (htag : walk.Refuses options)
    (hwhole : data.length ≤ walk.kept) :
    walk.Follows start (Scene.moved walk.distance) (Scene.StoredAt options.legacyNormal data start)
      (Scene.reader options) (Scene.reader options) := by
  rw [Scene.reader_eq]
  refine front.bind ?_
  rintro front _ ⟨hsetups, hlights, lightsAt, sectorsAt, hsetupCount, hsetupsAt, hlightCount,
    hlightsAt, hsectorCount, rfl⟩
  refine (repeated (fun _ => sector htag (named_of_whole hwhole _)) front.sectorCount).bind ?_
  rintro sectors stop ⟨hsectors, hsectorsAt⟩
  refine offset_bind fun hplace => ?_
  refine pure (by rw [hplace]; rfl) ?_
  exact {
    length := rfl
    setupCount := by rw [hsetups]
    lightCount := by rw [hlights]
    sectorCount := by rw [hsectors]
    name := rfl
    colormaps := rfl
    sections := ⟨lightsAt, sectorsAt, hsetupCount, hsetupsAt, hlightCount, hlightsAt,
      hsectorCount, hsectorsAt⟩ }

end Follows

end Walk

/-- A sector that is read is stored up to where the reader stops. -/
theorem Sector.storedAt_of_read {options : ReadOptions} {data : Bytes} {start : Nat}
    {sector : Sector} {after : Cursor} (hstart : start ≤ data.length)
    (h : Sector.read options (Cursor.within data start) = .ok sector after) :
    ∃ stop, after = Cursor.within data stop ∧ stop ≤ data.length ∧
      sector.StoredAt options.legacyNormal data start stop := by
  have hfollows : (Walk.alone data).Follows start _ _ (Sector.read options) _ :=
    .sector Walk.refuses_between (Walk.named_alone data _)
  obtain ⟨stop, hstop, -, hle, hstored, -⟩ := hfollows.of_ok (Nat.zero_le start) hstart h
  exact ⟨stop, hstop, hle, hstored⟩

/-- A scene that is read without a log is stored up to where the reader stops. -/
theorem Scene.storedAt_of_reader {options : ReadOptions} {data : Bytes} {scene : Scene}
    {after : Cursor} (h : Scene.reader options (Cursor.ofBytes data) = .ok scene after) :
    ∃ stop, after = Cursor.within data stop ∧ stop ≤ data.length ∧
      scene.StoredAt options.legacyNormal data 0 stop := by
  have hfollows : (Walk.alone data).Follows 0 _ _ (Scene.reader options) _ :=
    .scene Walk.refuses_between (Nat.le_refl _)
  obtain ⟨stop, hstop, -, hle, hstored, -⟩ :=
    hfollows.of_ok (Nat.le_refl 0) (Nat.zero_le data.length) h
  exact ⟨stop, hstop, hle, hstored⟩

/-- The records of every scene that is read tile the buffer, whatever its bytes are, from its start
to the length of the scene. -/
theorem Scene.read_tiles {options : ReadOptions} {log : Option Log} {data : Bytes} {scene : Scene}
    (h : (Scene.read options log data).1 = .ok scene) :
    ∃ stop, stop ≤ data.length ∧ scene.StoredAt options.legacyNormal data 0 stop := by
  obtain ⟨_, hreader⟩ := Scene.read_fst_eq_ok.mp h
  obtain ⟨stop, -, hle, hstored⟩ := Scene.storedAt_of_reader hreader
  exact ⟨stop, hle, hstored⟩

/-- A set with one sector whose name has no field of its own: the text runs over the identifier up
to the visibility, the first NUL. Its height is infinite. -/
def Scene.overrunBytes : Bytes :=
  [0, 0, 0, 0, 0, 0, 0, 0, 1, 0, 0, 0, 0, 0, 0, 0, 0, 0, 0, 0, 0x44, 0x43, 0x42, 0x41, 0,
    0, 0x10, 0, 0, 0, 0, 0, 0, 0, 0, 0x80, 0x7f]

/-- What the set with an overrunning name is read as. -/
def Scene.overrun : Scene :=
  ⟨[], [], [⟨12, "DCBA", 0x41424344, 0x1000, false, .infinite false, [], .zero⟩], 0, 0, 1, 37, "",
    []⟩

/-- The set with an overrunning name tiles its buffer too. -/
theorem Scene.read_tiles_overrun :
    (Scene.read ⟨true, false⟩ none overrunBytes).1 = .ok overrun ∧
      ∃ stop, stop ≤ overrunBytes.length ∧ overrun.StoredAt false overrunBytes 0 stop := by
  have hread : (Scene.read ⟨true, false⟩ none overrunBytes).1 = .ok overrun := by decide +kernel
  exact ⟨hread, Scene.read_tiles hread⟩

end SceneSet
