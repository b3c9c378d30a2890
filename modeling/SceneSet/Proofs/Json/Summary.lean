import SceneSet.Proofs.Json.Scanning
import SceneSet.Summary

/-!
# Summaries tell scenes apart

`Summary.scene?` takes a scene from its JSON value, member by member. It recovers everything but
what a summary leaves out, the background and the depth image of the setups (`Scene.exported`).
Together with the reader of JSON texts this shows that a summary loses nothing
(`Summary.lossless_scene`): the numbers, the texts and the bytes of a scene are all recovered from
its text.
-/

namespace SceneSet

open Number (Double)

namespace Json

/-- The value of a member of an object. -/
def member? (key : String) : Json → Option Json
  | .object members => (members.find? (·.1 == key)).map (·.2)
  | _ => none

/-- The items of an array. -/
def items? : Json → Option (List Json)
  | .array items => some items
  | _ => none

/-- An integer. -/
def integer? : Json → Option Int
  | .integer value => some value
  | _ => none

/-- A floating-point number. -/
def double? : Json → Option Double
  | .number value => some value
  | _ => none

/-- A string. -/
def string? : Json → Option String
  | .string value => some value
  | _ => none

/-- A truth value. -/
def bool? : Json → Option Bool
  | .bool value => some value
  | _ => none

/-- The bytes that are written with two digits each. -/
def bytes? : List Char → Option Bytes
  | [] => some []
  | [_] => none
  | high :: low :: text => do
      pure (UInt8.ofNat (← hexNumber? [high, low]) :: (← bytes? text))

/-- Bytes are read back from their digits. -/
theorem bytes?_hexBytes (bytes : Bytes) : bytes? (Numeral.hexBytes bytes) = some bytes := by
  unfold Numeral.hexBytes
  induction bytes with
  | nil => rfl
  | cons byte bytes ih =>
      have hlength := length_zeroPad (by decide) (show byte.toNat < 16 ^ 2 from byte.toNat_lt)
      have hnumber := hexNumber?_zeroPad 2 byte.toNat
      rw [List.flatMap_cons]
      match hdigits : Numeral.zeroPad 2 (Numeral.lowerHex byte.toNat), hlength with
      | [high, low], _ =>
          rw [hdigits] at hnumber
          simp [bytes?, hnumber, ih]

end Json

/-- A setup without its background and its depth image. -/
def Setup.exported (s : Setup) : Setup := { s with background := "", zbuffer := "" }

/-- A scene whose setups have neither backgrounds nor depth images. -/
def Scene.exported (s : Scene) : Scene := { s with setups := s.setups.map Setup.exported }

namespace Summary

open Json (member? items? integer? double? string? bool? bytes? read? Ascii)

/-- The point of an array of three coordinates. -/
def point? : Json → Option Point3
  | .array [.number x, .number y, .number z] => some ⟨x, y, z⟩
  | _ => none

/-- The setup of a JSON value. -/
def setup? (value : Json) : Option Setup := do
  let offset ← (← value.member? "offset").integer?
  let name ← (← value.member? "name").string?
  let tile ← (← value.member? "tile").string?
  let position ← point? (← value.member? "position")
  let interest ← point? (← value.member? "interest")
  let roll ← (← value.member? "roll").double?
  let fov ← (← value.member? "fov").double?
  let nearClip ← (← value.member? "nclip").double?
  let farClip ← (← value.member? "fclip").double?
  pure ⟨offset, name, tile, position, interest, roll, fov, nearClip, farClip, "", ""⟩

/-- The light of a JSON value. -/
def light? (value : Json) : Option Light := do
  let offset ← (← value.member? "offset").integer?
  let payload ← bytes? (← (← value.member? "payload").string?).toList
  pure ⟨offset, payload⟩

/-- The sector of a JSON value. -/
def sector? (value : Json) : Option Sector := do
  let offset ← (← value.member? "offset").integer?
  let name ← (← value.member? "name").string?
  let id ← (← value.member? "id").integer?
  let tag ← (← value.member? "type_tag").integer?
  let visible ← (← value.member? "visible").bool?
  let height ← (← value.member? "height").double?
  let normal ← point? (← value.member? "normal")
  let vertices ← (← (← value.member? "vertices").items?).mapM point?
  pure ⟨offset, name, id, tag, visible, height, vertices, normal⟩

/-- The scene of a JSON value. -/
def scene? (value : Json) : Option Scene := do
  let name ← (← value.member? "set_name").string?
  let length ← (← value.member? "length").integer?
  let colormaps ← (← (← value.member? "colormaps").items?).mapM string?
  let setupCount ← (← value.member? "num_setups").integer?
  let lightCount ← (← value.member? "num_lights").integer?
  let sectorCount ← (← value.member? "num_sectors").integer?
  let setups ← (← (← value.member? "setups").items?).mapM setup?
  let lights ← (← (← value.member? "lights").items?).mapM light?
  let sectors ← (← (← value.member? "sectors").items?).mapM sector?
  pure ⟨setups, lights, sectors, setupCount, lightCount, sectorCount, length, name, colormaps⟩

theorem point?_point (p : Point3) : point? (point p) = some p := rfl

theorem setup?_setup (s : Setup) : setup? (setup s) = some s.exported := by
  simp [setup?, setup, member?, integer?, string?, double?, point?_point, Setup.exported]

theorem light?_light (l : Light) : light? (light l) = some l := by
  simp [light?, light, member?, integer?, string?, Json.bytes?_hexBytes]

/-- Items are recovered one by one. -/
theorem mapM_map {α β : Type} {write : α → Json} {read : Json → Option β} {f : α → β}
    (h : ∀ item, read (write item) = some (f item)) (items : List α) :
    (items.map write).mapM read = some (items.map f) := by
  induction items with
  | nil => rfl
  | cons item items ih => simp [List.mapM_cons, h, ih]

theorem sector?_sector (s : Sector) : sector? (sector s) = some s := by
  have hvertices := mapM_map point?_point s.vertices
  simp [sector?, sector, member?, integer?, string?, double?, bool?, items?,
    point?_point, hvertices]

/-- All of a scene is recovered from its JSON value but what a summary leaves out. -/
theorem scene?_scene (s : Scene) : scene? (scene s) = some s.exported := by
  have hstring : ∀ text, string? (.string text) = some (id text) := fun _ => rfl
  have hcolormaps := mapM_map hstring s.colormaps
  have hlights := mapM_map light?_light s.lights
  have hsectors := mapM_map sector?_sector s.sectors
  have hsetups := mapM_map setup?_setup s.setups
  simp [scene?, scene, member?, integer?, string?, items?, hcolormaps, hlights,
    hsectors, hsetups, Scene.exported]

/-- What a summary leaves out does not matter to it. -/
theorem scene_exported (s : Scene) : scene s.exported = scene s := by
  have hsetups : (s.setups.map Setup.exported).map setup = s.setups.map setup := by
    rw [List.map_map]
    rfl
  unfold scene Scene.exported
  dsimp only
  rw [hsetups]

/-- Scenes have the same JSON value if they differ at most in what a summary leaves out. -/
theorem scene_eq_iff {s t : Scene} : scene t = scene s ↔ t.exported = s.exported := by
  constructor
  · intro h
    have hscene := congrArg scene? h
    rw [scene?_scene, scene?_scene] at hscene
    exact Option.some.inj hscene
  · intro h
    rw [← scene_exported t, h, scene_exported]

/-- A summary loses nothing. Its text is ASCII and is read as the JSON value that was written, with
all numbers, truth values and strings in their places, on one line as well as indented; from that
value the scene is recovered, its lights byte for byte. So scenes with one text differ at most in
the backgrounds and depth images of their setups. -/
theorem lossless_scene (s : Scene) :
    (Ascii (scene s).compact.toList ∧ read? (scene s).compact = some (scene s) ∧
        scene? (scene s) = some s.exported) ∧
      (∀ source archive, Ascii (bundle source archive s).indented.toList ∧
        read? (bundle source archive s).indented = some (bundle source archive s) ∧
        (bundle source archive s).member? "scene" = some (scene s)) ∧
      ∀ t, (scene t).compact = (scene s).compact ↔ t.exported = s.exported := by
  refine ⟨⟨Json.ascii_compact _, Json.read?_compact _, scene?_scene s⟩, fun source archive =>
    ⟨Json.ascii_indented _, Json.read?_indented _, rfl⟩, fun t => ⟨fun htext => ?_, fun h => ?_⟩⟩
  · have hread := congrArg read? htext
    rw [Json.read?_compact, Json.read?_compact] at hread
    exact scene_eq_iff.mp (Option.some.inj hread)
  · rw [scene_eq_iff.mpr h]

end Summary

end SceneSet
