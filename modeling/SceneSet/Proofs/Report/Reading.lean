import Mathlib.Data.List.Basic
import SceneSet.Proofs.Report.Characters

/-!
# Reading a report back

A reader of reports, `read?`: it takes a report apart into lines, the lines of a section into runs
without blank lines, and each run into fields. If no name of a scene holds a line feed, then it finds
the outline of the scene in the report (`read?_scene`). So reports are the same just if the outlines
are (`scene_unambiguous`), whatever the names look like.
-/

namespace SceneSet.Report

open Number (Double)

/-! ### The reader -/

/-- The value on the line of a field with this name. -/
def value? (name : String) (line : Line) : Option (List Char) := line.dropPrefix? (fieldLine name [])

/-- The text on the line of a field. -/
def text? (name : String) (line : Line) : Option String := (value? name line).map String.ofList

/-- The coordinates in a text. -/
def PointText.read? (text : List Char) : Option PointText :=
  match text.splitOn '\t' with
  | [x, y, z] => some ⟨String.ofList x, String.ofList y, String.ofList z⟩
  | _ => none

/-- The coordinates on the line of a field. -/
def point? (name : String) (line : Line) : Option PointText :=
  (value? name line).bind PointText.read?

/-- The setup on some lines. -/
def SetupOutline.read? : List Line → Option SetupOutline
  | [name, position, interest, roll, fov, nearClip, farClip] => do
      pure ⟨← text? "name" name, ← point? "position" position, ← point? "interest" interest,
        ← text? "roll" roll, ← text? "fov" fov, ← text? "nclip" nearClip, ← text? "fclip" farClip⟩
  | _ => none

namespace SectorOutline

/-- Whether a sector is visible. -/
def visible? (line : Line) : Option Bool := do
  match ← text? "default visibility" line with
  | "visible" => some true
  | "invisible" => some false
  | _ => none

/-- The vertices on the line with their heading, and on the lines that follow it. -/
def vertices? (first : Line) (rest : List Line) : Option (List PointText) := do
  match ← value? "vertices:\t" first with
  | [] => some []
  | text => do
      let first ← PointText.read? text
      let rest ← rest.mapM fun line => (line.dropPrefix? vertexIndent).bind PointText.read?
      some (first :: rest)

/-- The sector on some lines. -/
def read? : List Line → Option SectorOutline
  | name :: id :: label :: visible :: height :: _ :: normal :: first :: rest => do
      pure ⟨← text? "sector" name, Numeral.ofDecimal (← value? "ID" id), ← text? "type" label,
        ← visible? visible, ← text? "height" height, ← point? "normal\t\t" normal,
        ← vertices? first rest⟩
  | _ => none

end SectorOutline

/-- The runs of lines between blank lines. -/
def paragraphs (lines : List Line) : List (List Line) := (lines.splitOn []).filter (· ≠ [])

/-- The lines in front of a heading, and those behind it. -/
def cut (heading : Line) (lines : List Line) : List Line × List Line :=
  (lines.takeWhile (· ≠ heading), (lines.dropWhile (· ≠ heading)).drop 1)

/-- The outline that a report tells. -/
def read? (report : String) : Option Outline := do
  let body := (report.toList.splitOn '\n').drop 3
  let (setupLines, body) := cut Outline.lightsHeading body
  let (lightLines, sectorLines) := cut Outline.sectorsHeading (body.drop 1)
  let setups ← (paragraphs setupLines).mapM SetupOutline.read?
  let sectors ← (paragraphs sectorLines).mapM SectorOutline.read?
  some ⟨setups, lightLines.length / 2, sectors⟩

/-! ### Lines and fields are found -/

/-- Lines without line feeds are found in their text. -/
theorem splitOn_unlines {lines : List Line} (h : ∀ line ∈ lines, '\n' ∉ line) :
    (unlines lines).splitOn '\n' = lines ++ [[]] := by
  induction lines with
  | nil => rfl
  | cons line rest ih =>
      rw [List.forall_mem_cons] at h
      have hline : ∀ c ∈ line, (c == '\n') = false := fun c hc =>
        beq_false_of_ne fun heq => h.1 (heq ▸ hc)
      rw [unlines_cons, List.splitOn, List.splitOnP_append_cons_of_forall_mem hline _ rfl,
        ← List.splitOn, ih h.2]
      rfl

/-- A run of lines that are not blank is found, if a blank line follows. -/
theorem paragraphs_append {lines rest : List Line} (hlines : lines ≠ [])
    (h : ∀ line ∈ lines, line ≠ []) : paragraphs (lines ++ [] :: rest) = lines :: paragraphs rest := by
  have hplain : ∀ line ∈ lines, (line == []) = false := fun line hline =>
    beq_false_of_ne (h line hline)
  rw [paragraphs, List.splitOn, List.splitOnP_append_cons_of_forall_mem hplain _ rfl,
    List.filter_cons_of_pos (by simpa using hlines)]
  rfl

/-- Further blank lines do not count. -/
theorem paragraphs_blank (rest : List Line) : paragraphs ([] :: rest) = paragraphs rest := by
  rw [paragraphs, ← List.nil_append ([] :: rest), List.splitOn,
    List.splitOnP_append_cons_of_forall_mem (by simp) _ rfl, List.filter_cons_of_neg (by simp)]
  rfl

/-- The runs of a section in which each record is followed by one or two blank lines. -/
theorem paragraphs_flatMap {α : Type} {record blanks : α → List Line} {items : List α}
    (hrecord : ∀ item ∈ items, record item ≠ [])
    (hlines : ∀ item ∈ items, ∀ line ∈ record item, line ≠ [])
    (hblanks : ∀ item ∈ items, blanks item = [[]] ∨ blanks item = [[], []]) (rest : List Line) :
    paragraphs (items.flatMap (fun item => record item ++ blanks item) ++ rest) =
      items.map record ++ paragraphs rest := by
  induction items with
  | nil => rfl
  | cons item items ih =>
      rw [List.forall_mem_cons] at hrecord hlines hblanks
      have hitems := ih hrecord.2 hlines.2 hblanks.2
      rw [List.flatMap_cons, List.append_assoc, List.append_assoc]
      rcases hblanks.1 with hone | htwo
      · rw [hone, List.singleton_append, paragraphs_append hrecord.1 hlines.1, hitems]
        rfl
      · rw [htwo, List.cons_append, List.singleton_append, paragraphs_append hrecord.1 hlines.1,
          paragraphs_blank, hitems]
        rfl

theorem value?_fieldLine (name : String) (value : List Char) :
    value? name (fieldLine name value) = some value := by
  refine List.dropPrefix?_eq_some_iff.mpr ⟨fieldLine name [], ?_, beq_self_eq_true _⟩
  simp [fieldLine]

theorem text?_fieldLine (name text : String) : text? name (fieldLine name text.toList) = some text := by
  rw [text?, value?_fieldLine, Option.map_some, String.ofList_toList]

theorem cut_heading {before : List Line} {heading : Line} (h : ∀ line ∈ before, line ≠ heading)
    (after : List Line) : cut heading (before ++ heading :: after) = (before, after) := by
  have hplain : ∀ line ∈ before, decide (line ≠ heading) = true := fun line hline =>
    decide_eq_true (h line hline)
  rw [cut, List.takeWhile_append_of_pos hplain, List.dropWhile_append_of_pos hplain]
  simp

/-! ### Lines of records -/

/-- A line as records have them: a tab in front tells it from blank lines and from headings. -/
def RecordLine (line : Line) : Prop := line.head? = some '\t'

theorem RecordLine.ne_nil {line : Line} (h : RecordLine line) : line ≠ [] := by
  rintro rfl
  cases h

theorem RecordLine.ne_lightsHeading {line : Line} (h : RecordLine line) :
    line ≠ Outline.lightsHeading := by
  rintro rfl
  revert h
  unfold RecordLine
  decide

theorem tab_not_mem_number (value : Double) : '\t' ∉ (number value).toList :=
  (Numeral.printable_fixed 6 value).not_mem (by decide)

namespace PointText

theorem text_ne_nil (p : PointText) : p.text ≠ [] := by
  simp [text]

/-- Coordinates are found in their text, since none of them holds a tab. -/
theorem read?_ofPoint (p : Point3) : read? (ofPoint p).text = some (ofPoint p) := by
  have hsplit : (ofPoint p).text.splitOn '\t' =
      [(number p.x).toList, (number p.y).toList, (number p.z).toList] := by
    have htexts : ∀ text ∈ [(number p.x).toList, (number p.y).toList, (number p.z).toList],
        '\t' ∉ text := by simp [tab_not_mem_number]
    rw [← List.splitOn_intercalate '\t' htexts (by simp)]
    simp [text, ofPoint, List.intercalate]
  unfold read?
  rw [hsplit]
  simp only [String.ofList_toList, ofPoint]

end PointText

theorem point?_fieldLine (name : String) (p : Point3) :
    point? name (fieldLine name (PointText.ofPoint p).text) = some (.ofPoint p) := by
  rw [point?, value?_fieldLine, Option.bind_some, PointText.read?_ofPoint]

namespace SetupOutline

theorem read?_ofSetup (s : Setup) : read? (ofSetup s).lines = some (ofSetup s) := by
  simp [lines, ofSetup, read?, text?_fieldLine, point?_fieldLine]

theorem recordLine_of_mem {s : SetupOutline} {line : Line} (h : line ∈ s.lines) :
    RecordLine line := by
  simp only [lines, List.mem_cons, List.not_mem_nil, or_false] at h
  obtain rfl | rfl | rfl | rfl | rfl | rfl | rfl := h <;> rfl

end SetupOutline

namespace SectorOutline

theorem visible?_fieldLine (visible : Bool) :
    visible? (fieldLine "default visibility"
      (if visible then "visible" else "invisible").toList) = some visible := by
  unfold visible?
  rw [text?_fieldLine]
  cases visible <;> rfl

/-- The vertices are found in their lines; without vertices there is nothing behind their
heading. -/
theorem vertices?_vertexLines (points : List Point3) :
    ∃ first rest, vertexLines (points.map .ofPoint) = first :: rest ∧
      vertices? first rest = some (points.map .ofPoint) := by
  cases points with
  | nil => exact ⟨_, _, rfl, by simp [vertices?, value?_fieldLine]⟩
  | cons point points =>
      have hrest : ((points.map PointText.ofPoint).map fun p => vertexIndent ++ p.text).mapM
          (fun line => (line.dropPrefix? vertexIndent).bind PointText.read?) =
            some (points.map .ofPoint) := by
        induction points with
        | nil => rfl
        | cons point points ih =>
            have hpoint : (vertexIndent ++ (PointText.ofPoint point).text).dropPrefix? vertexIndent =
                some (PointText.ofPoint point).text :=
              List.dropPrefix?_eq_some_iff.mpr ⟨vertexIndent, rfl, beq_self_eq_true _⟩
            rw [List.map_cons, List.map_cons, List.mapM_cons, hpoint, Option.bind_some,
              PointText.read?_ofPoint, ih]
            rfl
      refine ⟨_, _, rfl, ?_⟩
      unfold vertices?
      rw [value?_fieldLine]
      obtain ⟨c, text, htext⟩ := List.exists_cons_of_ne_nil (PointText.text_ne_nil (.ofPoint point))
      have hfirst := PointText.read?_ofPoint point
      rw [htext] at hfirst ⊢
      simp only [Option.bind_eq_bind, Option.bind_some, hfirst, hrest, List.map_cons]

theorem read?_ofSector (s : Sector) : read? (ofSector s).lines = some (ofSector s) := by
  obtain ⟨first, rest, hlines, hvertices⟩ := vertices?_vertexLines s.vertices
  unfold lines ofSector
  rw [hlines]
  simp [read?, text?_fieldLine, value?_fieldLine, point?_fieldLine, visible?_fieldLine, hvertices,
    Numeral.ofDecimal_decimal]

theorem recordLine_of_mem {s : SectorOutline} {line : Line} (h : line ∈ s.lines) :
    RecordLine line := by
  rw [lines, List.mem_append] at h
  rcases h with hfield | hvertex
  · simp only [List.mem_cons, List.not_mem_nil, or_false] at hfield
    obtain rfl | rfl | rfl | rfl | rfl | rfl | rfl := hfield <;> rfl
  · unfold vertexLines at hvertex
    split at hvertex
    · rw [List.mem_singleton.mp hvertex]
      rfl
    · rcases List.mem_cons.mp hvertex with rfl | hrest
      · rfl
      · obtain ⟨p, -, rfl⟩ := List.mem_map.mp hrest
        rfl

end SectorOutline

/-! ### Reports are read back -/

/-- No name of a setup or of a sector holds a line feed. -/
def NamesOnOneLine (s : Scene) : Prop :=
  (∀ setup ∈ s.setups, '\n' ∉ setup.name.toList) ∧
    ∀ sector ∈ s.sectors, '\n' ∉ sector.name.toList

instance (s : Scene) : Decidable (NamesOnOneLine s) := inferInstanceAs (Decidable (_ ∧ _))

namespace Outline

/-- The lines between the headings of setups and lights are lines of records or blank. -/
theorem setupLine_of_mem {o : Outline} {line : Line} (h : line ∈ o.setupLines) :
    RecordLine line ∨ line = [] := by
  simp only [setupLines, List.mem_flatMap, List.mem_append, List.mem_cons, List.not_mem_nil,
    or_false, or_self] at h
  obtain ⟨setup, -, hrecord | hblank⟩ := h
  · exact .inl (SetupOutline.recordLine_of_mem hrecord)
  · exact .inr hblank

/-- No line of a report holds a line feed. -/
theorem lf_not_mem {s : Scene} (h : NamesOnOneLine s) (trueCounts : Bool) {line : Line}
    (hline : line ∈ (ofScene s).lines trueCounts) : '\n' ∉ line := by
  have hcovers : Covers (· ≠ '\n') := by
    refine ⟨?_, by decide⟩
    rintro _ hprintable rfl
    revert hprintable
    decide
  have hnames : NamesOf (· ≠ '\n') s :=
    ⟨fun setup hsetup _ hc heq => h.1 setup hsetup (heq ▸ hc),
      fun sector hsector _ hc heq => h.2 sector hsector (heq ▸ hc)⟩
  exact fun hlf => forall_mem_lines hcovers hnames trueCounts line hline _ hlf rfl

end Outline

/-- The records of a section are read from its lines. -/
theorem mapM_paragraphs {α : Type} {record blanks : α → List Line} {read : List Line → Option α}
    {items : List α} {rest : List Line} (hread : ∀ item ∈ items, read (record item) = some item)
    (hrecord : ∀ item ∈ items, record item ≠ [])
    (hlines : ∀ item ∈ items, ∀ line ∈ record item, line ≠ [])
    (hblanks : ∀ item ∈ items, blanks item = [[]] ∨ blanks item = [[], []])
    (hrest : paragraphs rest = []) :
    (paragraphs (items.flatMap (fun item => record item ++ blanks item) ++ rest)).mapM read =
      some items := by
  rw [paragraphs_flatMap hrecord hlines hblanks, hrest, List.append_nil]
  clear hrecord hlines hblanks
  induction items with
  | nil => rfl
  | cons item items ih =>
      rw [List.forall_mem_cons] at hread
      rw [List.map_cons, List.mapM_cons, hread.1, ih hread.2]
      rfl

/-- A report tells the outline of its scene. -/
theorem read?_scene (trueCounts : Bool) {s : Scene} (h : NamesOnOneLine s) :
    read? (scene trueCounts s) = some (Outline.ofScene s) := by
  have hbody : ((Outline.ofScene s).lines trueCounts ++ [[]]).drop 3 =
      (Outline.ofScene s).setupLines ++ Outline.lightsHeading ::
        (Outline.ofScene s).lightCount trueCounts :: ((Outline.ofScene s).lightLines ++
          Outline.sectorsHeading :: ((Outline.ofScene s).sectorLines ++ [[]])) := by
    simp [Outline.lines, Outline.head]
  have hsetups : ∀ line ∈ (Outline.ofScene s).setupLines, line ≠ Outline.lightsHeading := by
    intro line hline
    rcases Outline.setupLine_of_mem hline with hrecord | rfl
    · exact hrecord.ne_lightsHeading
    · decide
  have hlights : ∀ line ∈ (Outline.ofScene s).lightLines, line ≠ Outline.sectorsHeading := by
    intro line hline
    rw [List.eq_of_mem_replicate hline]
    decide
  have hreadSetups : (paragraphs (Outline.ofScene s).setupLines).mapM SetupOutline.read? =
      some (Outline.ofScene s).setups := by
    rw [← List.append_nil (Outline.ofScene s).setupLines]
    refine mapM_paragraphs ?_ ?_ ?_ (fun _ _ => .inr rfl) rfl
    · simp [Outline.ofScene, SetupOutline.read?_ofSetup]
    · simp [SetupOutline.lines]
    · exact fun setup _ line hline => (SetupOutline.recordLine_of_mem hline).ne_nil
  have hreadSectors : (paragraphs ((Outline.ofScene s).sectorLines ++ [[]])).mapM
      SectorOutline.read? = some (Outline.ofScene s).sectors := by
    refine mapM_paragraphs ?_ ?_ ?_ ?_ rfl
    · simp [Outline.ofScene, SectorOutline.read?_ofSector]
    · simp [SectorOutline.lines]
    · exact fun sector _ line hline => (SectorOutline.recordLine_of_mem hline).ne_nil
    · intro sector _
      unfold SectorOutline.blanks
      split
      · exact .inl rfl
      · exact .inr rfl
  unfold read?
  rw [toList_scene, splitOn_unlines fun line => Outline.lf_not_mem h trueCounts]
  simp only [hbody, cut_heading hsetups, cut_heading hlights, List.drop_succ_cons, List.drop_zero,
    hreadSetups, hreadSectors, Option.bind_eq_bind, Option.bind_some]
  simp [Outline.lightLines]

/-- Reports without line feeds in names are unambiguous: the reader finds the outline of the scene
in them, so two of them are the same just if the outlines are. -/
theorem scene_unambiguous {trueCounts : Bool} {s t : Scene} (hs : NamesOnOneLine s)
    (ht : NamesOnOneLine t) :
    read? (scene trueCounts s) = some (Outline.ofScene s) ∧
      (scene trueCounts s = scene trueCounts t ↔ Outline.ofScene s = Outline.ofScene t) := by
  refine ⟨read?_scene trueCounts hs, fun hreport => ?_, fun houtline => ?_⟩
  · have hread := read?_scene trueCounts ht
    rw [← hreport, read?_scene trueCounts hs] at hread
    exact Option.some.inj hread
  · apply String.toList_injective
    rw [toList_scene, toList_scene, houtline]

/-- A scene with names that look like parts of a report, and with a sector without vertices. -/
def hut (lights : List Light) : Scene :=
  ⟨[⟨4, "\tsector\tdoor", "", .zero, .zero, .nan, .infinite true, .zero true, .zero false, "", ""⟩],
    lights, [⟨92, "section: sectors", -1, 0x1000, true, .zero false, [], .zero⟩], 1, lights.length,
    1, 140, "", []⟩

/-- Scenes that differ just in the number of lights have different reports, even if the number that
is announced is zero for both. -/
theorem scene_unambiguous_hut :
    read? (scene false (hut [⟨0, []⟩])) = some (Outline.ofScene (hut [⟨0, []⟩])) ∧
      scene false (hut [⟨0, []⟩]) ≠ scene false (hut []) := by
  have hlit : NamesOnOneLine (hut [⟨0, []⟩]) := by decide
  have hdark : NamesOnOneLine (hut []) := by decide
  obtain ⟨hread, hsame⟩ := @scene_unambiguous false _ _ hlit hdark
  refine ⟨hread, fun hreport => ?_⟩
  have hlights : 1 = 0 := congrArg Outline.lights (hsame.mp hreport)
  exact absurd hlights (by decide)

end SceneSet.Report
