import SceneSet.Proofs.Report.Outline
import SceneSet.Proofs.Text.Numeral

/-!
# Characters of reports

The lines of a report are made of printable characters, tabs, and the names of setups and sectors,
and of nothing else (`Outline.forall_mem_lines`).
-/

namespace SceneSet.Report

open Number (Double)

/-- A class of characters that has all those of lines, but for the names in them. -/
structure Covers (allowed : Char → Prop) : Prop where
  printable : ∀ {c}, Quoted.isAsciiPrintable c = true → allowed c
  tab : allowed '\t'

/-- The names of setups and sectors are made of some characters. -/
structure NamesOf (allowed : Char → Prop) (s : Scene) : Prop where
  setups : ∀ setup ∈ s.setups, ∀ c ∈ setup.name.toList, allowed c
  sectors : ∀ sector ∈ s.sectors, ∀ c ∈ sector.name.toList, allowed c

/-- A text as lines have it around names and values: of printable characters and tabs. -/
def isFixed (text : List Char) : Bool := text.all fun c => Quoted.isAsciiPrintable c || c == '\t'

namespace Covers

variable {allowed : Char → Prop} (h : Covers allowed)

include h

theorem fixed {text : List Char} (htext : isFixed text = true) : ∀ c ∈ text, allowed c := by
  intro c hc
  have hchar := List.all_eq_true.mp htext c hc
  rw [Bool.or_eq_true, beq_iff_eq] at hchar
  rcases hchar with hprintable | rfl
  · exact h.printable hprintable
  · exact h.tab

theorem numeral {text : List Char} (htext : Numeral.Printable text) : ∀ c ∈ text, allowed c :=
  fun c hc => h.printable (htext c hc)

theorem number (value : Double) : ∀ c ∈ (Report.number value).toList, allowed c :=
  h.numeral (Numeral.printable_fixed 6 value)

theorem point (p : Point3) : ∀ c ∈ (PointText.ofPoint p).text, allowed c := by
  simp only [PointText.text, PointText.ofPoint, List.forall_mem_append, List.forall_mem_cons]
  exact ⟨h.number _, h.tab, h.number _, h.tab, h.number _⟩

theorem fieldLine {name : String} {value : List Char} (hname : isFixed name.toList = true)
    (hvalue : ∀ c ∈ value, allowed c) : ∀ c ∈ Report.fieldLine name value, allowed c := by
  simp only [Report.fieldLine, List.cons_append, List.forall_mem_append, List.forall_mem_cons]
  exact ⟨h.tab, h.fixed hname, h.tab, hvalue⟩

theorem setup {s : Setup} (hname : ∀ c ∈ s.name.toList, allowed c) :
    ∀ line ∈ (SetupOutline.ofSetup s).lines, ∀ c ∈ line, allowed c := by
  simp only [SetupOutline.lines, List.forall_mem_cons]
  exact ⟨h.fieldLine (by decide) hname, h.fieldLine (by decide) (h.point _),
    h.fieldLine (by decide) (h.point _), h.fieldLine (by decide) (h.number _),
    h.fieldLine (by decide) (h.number _), h.fieldLine (by decide) (h.number _),
    h.fieldLine (by decide) (h.number _), List.forall_mem_nil _⟩

theorem vertices (points : List Point3) :
    ∀ line ∈ SectorOutline.vertexLines (points.map .ofPoint), ∀ c ∈ line, allowed c := by
  cases points with
  | nil =>
      rw [List.map_nil, SectorOutline.vertexLines, List.forall_mem_singleton]
      exact h.fieldLine (by decide) (List.forall_mem_nil _)
  | cons first rest =>
      simp only [List.map_cons, SectorOutline.vertexLines, List.forall_mem_cons, List.map_map,
        List.forall_mem_map, Function.comp_apply, List.forall_mem_append]
      exact ⟨h.fieldLine (by decide) (h.point first),
        fun p _ => ⟨h.fixed (by decide), h.point p⟩⟩

theorem label (tag : Int) : ∀ c ∈ (SectorType.labelOfTag tag).toList, allowed c := by
  refine h.numeral ?_
  unfold SectorType.labelOfTag
  cases SectorType.ofTag? tag with
  | none => decide
  | some type => cases type <;> decide

theorem visibility (visible : Bool) :
    ∀ c ∈ (if visible then "visible" else "invisible").toList, allowed c := by
  refine h.numeral ?_
  cases visible <;> decide

theorem sector {s : Sector} (hname : ∀ c ∈ s.name.toList, allowed c) :
    ∀ line ∈ (SectorOutline.ofSector s).lines, ∀ c ∈ line, allowed c := by
  simp only [SectorOutline.lines, List.forall_mem_append, List.forall_mem_cons]
  exact ⟨⟨h.fieldLine (by decide) hname,
    h.fieldLine (by decide) (h.numeral (Numeral.printable_decimal _)),
    h.fieldLine (by decide) (h.label _), h.fieldLine (by decide) (h.visibility _),
    h.fieldLine (by decide) (h.number _),
    h.fieldLine (by decide) (h.numeral (Numeral.printable_decimal _)),
    h.fieldLine (by decide) (h.point _), List.forall_mem_nil _⟩, h.vertices _⟩

end Covers

/-- All characters in the lines of a report are among those of its names, printable ones and
tabs. -/
theorem Outline.forall_mem_lines {allowed : Char → Prop} (h : Covers allowed) {s : Scene}
    (hnames : NamesOf allowed s) (trueCounts : Bool) :
    ∀ line ∈ (ofScene s).lines trueCounts, ∀ c ∈ line, allowed c := by
  have hsetups : ∀ line ∈ (ofScene s).setupLines, ∀ c ∈ line, allowed c := by
    simp only [setupLines, ofScene, List.flatMap_map, List.forall_mem_flatMap,
      List.forall_mem_append, List.forall_mem_cons]
    exact fun setup hsetup => ⟨h.setup (hnames.setups setup hsetup), List.forall_mem_nil _,
      List.forall_mem_nil _, List.forall_mem_nil _⟩
  have hsectors : ∀ line ∈ (ofScene s).sectorLines, ∀ c ∈ line, allowed c := by
    simp only [sectorLines, ofScene, List.flatMap_map, List.forall_mem_flatMap,
      List.forall_mem_append]
    refine fun sector hsector => ⟨h.sector (hnames.sectors sector hsector), ?_⟩
    unfold SectorOutline.blanks
    split <;> simp
  have hlights : ∀ line ∈ (ofScene s).lightLines, ∀ c ∈ line, allowed c := by
    intro line hline
    rw [List.eq_of_mem_replicate hline]
    exact List.forall_mem_nil _
  have hhead : ∀ line ∈ (ofScene s).head, ∀ c ∈ line, allowed c := by
    simp only [head, List.forall_mem_cons, List.forall_mem_append]
    exact ⟨h.fixed (by decide), h.fixed (by decide),
      ⟨⟨h.tab, h.fixed (by decide)⟩, h.numeral (Numeral.printable_decimal _)⟩,
      List.forall_mem_nil _⟩
  have hcount : ∀ c ∈ (ofScene s).lightCount trueCounts, allowed c := by
    simp only [lightCount, List.forall_mem_append, List.forall_mem_cons]
    exact ⟨⟨h.tab, h.fixed (by decide)⟩, h.numeral (Numeral.printable_decimal _)⟩
  simp only [lines, List.forall_mem_append, List.forall_mem_cons]
  exact ⟨⟨⟨hhead, hsetups⟩, h.fixed (by decide), hcount, hlights⟩, h.fixed (by decide), hsectors⟩

end SceneSet.Report
