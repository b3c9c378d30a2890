import SceneSet.Report

/-!
# What reports tell

A report is a text of lines. `Outline` holds what they tell of a scene, with numbers as they are
written, and `Outline.lines` are the lines for it: `toList_scene` shows that the report of a scene
consists of the lines for its outline and of nothing else.
-/

namespace SceneSet.Report

open Number (Double)

/-- The characters of a line, without the line feed that ends it. -/
abbrev Line := List Char

/-- The line of a field. -/
def fieldLine (name : String) (value : List Char) : Line := '\t' :: name.toList ++ '\t' :: value

/-- The coordinates of a point as they are written. -/
structure PointText where
  x : String
  y : String
  z : String
  deriving DecidableEq

namespace PointText

/-- The coordinates of a point. -/
def ofPoint (p : Point3) : PointText := ⟨number p.x, number p.y, number p.z⟩

/-- The coordinates, separated by tabs. -/
def text (p : PointText) : List Char := p.x.toList ++ '\t' :: (p.y.toList ++ '\t' :: p.z.toList)

theorem toList_point (p : Point3) : (point p).toList = (ofPoint p).text := by
  unfold point text ofPoint
  simp [String.toList_append]

end PointText

/-- What a report tells of a setup. -/
structure SetupOutline where
  name : String
  position : PointText
  interest : PointText
  roll : String
  fov : String
  nearClip : String
  farClip : String
  deriving DecidableEq

namespace SetupOutline

/-- The outline of a setup. -/
def ofSetup (s : Setup) : SetupOutline where
  name := s.name
  position := .ofPoint s.position
  interest := .ofPoint s.interest
  roll := number s.roll
  fov := number s.fov
  nearClip := number s.nearClip
  farClip := number s.farClip

/-- The lines of a setup. -/
def lines (s : SetupOutline) : List Line :=
  [fieldLine "name" s.name.toList, fieldLine "position" s.position.text,
   fieldLine "interest" s.interest.text, fieldLine "roll" s.roll.toList,
   fieldLine "fov" s.fov.toList, fieldLine "nclip" s.nearClip.toList,
   fieldLine "fclip" s.farClip.toList]

end SetupOutline

/-- What a report tells of a sector: unknown types and the type of sectors without a purpose have an
empty label. -/
structure SectorOutline where
  name : String
  id : Int
  label : String
  visible : Bool
  height : String
  normal : PointText
  vertices : List PointText
  deriving DecidableEq

namespace SectorOutline

/-- The outline of a sector. -/
def ofSector (s : Sector) : SectorOutline where
  name := s.name
  id := s.id
  label := SectorType.labelOfTag s.tag
  visible := s.visible
  height := number s.height
  normal := .ofPoint s.normal
  vertices := s.vertices.map .ofPoint

/-- What stands in front of a vertex that is not the first one. -/
def vertexIndent : Line := ['\t', '\t', '\t', '\t']

/-- The lines of the vertices of a sector, of which there is one also if there are no vertices. -/
def vertexLines : List PointText → List Line
  | [] => [fieldLine "vertices:\t" []]
  | first :: rest =>
      fieldLine "vertices:\t" first.text :: rest.map fun p => vertexIndent ++ p.text

/-- The lines of a sector. -/
def lines (s : SectorOutline) : List Line :=
  [fieldLine "sector" s.name.toList, fieldLine "ID" (Numeral.decimal s.id),
   fieldLine "type" s.label.toList,
   fieldLine "default visibility" (if s.visible then "visible" else "invisible").toList,
   fieldLine "height" s.height.toList,
   fieldLine "numvertices" (Numeral.decimal s.vertices.length),
   fieldLine "normal\t\t" s.normal.text] ++ vertexLines s.vertices

/-- The blank lines behind a sector. The first line feed ends the line of the vertices if there are
none. -/
def blanks (s : SectorOutline) : List Line := if s.vertices = [] then [[]] else [[], []]

end SectorOutline

/-- What a report tells of a scene. -/
structure Outline where
  setups : List SetupOutline
  lights : Nat
  sectors : List SectorOutline
  deriving DecidableEq

namespace Outline

/-- The outline of a scene. -/
def ofScene (s : Scene) : Outline where
  setups := s.setups.map .ofSetup
  lights := s.lights.length
  sectors := s.sectors.map .ofSector

/-- The line above the number of lights. -/
def lightsHeading : Line := "section: lights".toList

/-- The line above the first sector. -/
def sectorsHeading : Line := "section: sectors".toList

/-- The lines that stand above those of the setups. -/
def head (o : Outline) : List Line :=
  ["section: colormaps".toList, "section: setups".toList,
    '\t' :: "numsetups ".toList ++ Numeral.decimal o.setups.length]

/-- The lines of the setups, each of which is followed by two blank ones. -/
def setupLines (o : Outline) : List Line := o.setups.flatMap fun s => s.lines ++ [[], []]

/-- The line with the number of lights. -/
def lightCount (trueCounts : Bool) (o : Outline) : Line :=
  '\t' :: "numlights ".toList ++ Numeral.decimal (if trueCounts then o.lights else 0)

/-- The lines of the lights, which are all blank. -/
def lightLines (o : Outline) : List Line := List.replicate (2 * o.lights) []

/-- The lines of the sectors. -/
def sectorLines (o : Outline) : List Line := o.sectors.flatMap fun s => s.lines ++ s.blanks

/-- The lines of a report. -/
def lines (trueCounts : Bool) (o : Outline) : List Line :=
  o.head ++ o.setupLines ++ lightsHeading :: o.lightCount trueCounts :: o.lightLines
    ++ sectorsHeading :: o.sectorLines

end Outline

/-! ### Reports are made of these lines -/

/-- The text of some lines. -/
def unlines (lines : List Line) : List Char := lines.flatMap (· ++ ['\n'])

theorem unlines_append (first second : List Line) :
    unlines (first ++ second) = unlines first ++ unlines second := List.flatMap_append

theorem unlines_cons (line : Line) (rest : List Line) :
    unlines (line :: rest) = line ++ '\n' :: unlines rest := by
  simp [unlines]

theorem unlines_nil : unlines [] = [] := rfl

theorem unlines_flatMap {α : Type} (f : α → List Line) (items : List α) :
    unlines (items.flatMap f) = items.flatMap fun item => unlines (f item) :=
  List.flatMap_assoc

theorem toList_field (name value : String) :
    (field name value).toList = fieldLine name value.toList ++ ['\n'] := by
  simp [field, fieldLine, String.toList_append]

theorem toList_records {α : Type} (record : α → String) (items : List α) :
    (records record items).toList =
      items.flatMap fun item => (record item).toList ++ ['\n', '\n'] := by
  simp [records, String.toList_join, List.flatMap_map, String.toList_append]

theorem toList_setup (s : Setup) :
    (setup s).toList = unlines (SetupOutline.ofSetup s).lines := by
  simp [setup, SetupOutline.lines, SetupOutline.ofSetup, unlines_cons, unlines_nil, toList_field,
    PointText.toList_point, String.toList_append]

/-- All points but the first are indented. -/
theorem toList_intercalate_points (first : Point3) (rest : List Point3) :
    (String.intercalate "\t\t\t\t" ((first :: rest).map fun p => point p ++ "\n")).toList =
      (PointText.ofPoint first).text ++ '\n' :: unlines
        (rest.map fun p => SectorOutline.vertexIndent ++ (PointText.ofPoint p).text) := by
  induction rest generalizing first with
  | nil => simp [PointText.toList_point, unlines_nil, String.toList_append]
  | cons second rest ih =>
      have hrest := ih second
      rw [List.map_cons] at hrest ⊢
      rw [List.map_cons, String.intercalate_cons_cons, String.toList_append, hrest]
      simp [PointText.toList_point, SectorOutline.vertexIndent, unlines_cons,
        String.toList_append]

/-- The first vertex stands behind the heading, and the others on lines of their own. -/
theorem toList_vertices (points : List Point3) :
    (vertices points).toList ++ ['\n', '\n'] =
      unlines (SectorOutline.vertexLines (points.map .ofPoint) ++
        if points.map PointText.ofPoint = [] then [[]] else [[], []]) := by
  cases points with
  | nil => rfl
  | cons first rest =>
      rw [vertices, String.toList_append, toList_intercalate_points]
      simp [SectorOutline.vertexLines, fieldLine, unlines_append, unlines_cons, unlines_nil,
        Function.comp_def]

theorem toList_sector (s : Sector) :
    (sector s).toList ++ ['\n', '\n'] =
      unlines ((SectorOutline.ofSector s).lines ++ (SectorOutline.ofSector s).blanks) := by
  have hvertices := toList_vertices s.vertices
  unfold sector SectorOutline.lines SectorOutline.blanks SectorOutline.ofSector
  rw [List.append_assoc, unlines_append, ← hvertices]
  simp [toList_field, PointText.toList_point, unlines_cons, unlines_nil, Numeral.text,
    String.toList_append]

/-- The report of a scene is the text of the lines for its outline. -/
theorem toList_scene (trueCounts : Bool) (s : Scene) :
    (scene trueCounts s).toList = unlines ((Outline.ofScene s).lines trueCounts) := by
  have hsetups : (records setup s.setups).toList = unlines (Outline.ofScene s).setupLines := by
    show _ = unlines ((s.setups.map SetupOutline.ofSetup).flatMap fun s => s.lines ++ [[], []])
    rw [toList_records, unlines_flatMap, List.flatMap_map]
    simp [toList_setup, unlines_append, unlines_cons, unlines_nil]
  have hlights : (records light s.lights).toList = unlines (Outline.ofScene s).lightLines := by
    show _ = unlines (List.replicate (2 * s.lights.length) [])
    rw [toList_records]
    induction s.lights with
    | nil => rfl
    | cons first rest ih =>
        rw [List.flatMap_cons, ih]
        rfl
  have hsectors : (records sector s.sectors).toList = unlines (Outline.ofScene s).sectorLines := by
    show _ = unlines ((s.sectors.map SectorOutline.ofSector).flatMap fun s => s.lines ++ s.blanks)
    rw [toList_records, unlines_flatMap, List.flatMap_map]
    simp only [toList_sector]
  unfold scene Outline.lines
  simp only [unlines_append, unlines_cons, ← hsetups, ← hlights, ← hsectors]
  unfold Outline.head Outline.lightCount Outline.ofScene Outline.lightsHeading
    Outline.sectorsHeading
  simp [unlines_cons, unlines_nil, Numeral.text, String.toList_append]

end SceneSet.Report
