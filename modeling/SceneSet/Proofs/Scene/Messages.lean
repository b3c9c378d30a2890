import SceneSet.Proofs.Command.Steps
import SceneSet.Proofs.Diagnostics.Lines
import SceneSet.Proofs.Report.Encoding
import SceneSet.Proofs.Scene.Notes

/-!
# Names in diagnostics

The names of sectors are any bytes, and the diagnostics quote them. All that is noted while a set is
read is legible nevertheless (`Scene.exists_legible`), and a note about a sector tells its name
(`Sector.quotedName?_unknownTagNote`, `Sector.quotedName?_degenerateNote`). So the file of a log has
one line for each entry, whatever the names are, and the lines tell the entries
(`Scene.read_legible`).
-/

namespace SceneSet

open Files (Path Action)

namespace Numeral

theorem latin_text (n : Int) : Latin.Printable (text n).toList := by
  rw [text, String.toList_ofList]
  exact .of_numeral (printable_decimal n)

theorem latin_tag (n : Int) : Latin.Printable (tag n).toList := by
  obtain ⟨word, hword⟩ :=
    Int.eq_ofNat_of_zero_le (Int.emod_nonneg n (by decide : (0x100000000 : Int) ≠ 0))
  rw [tag, hword, String.toList_append]
  exact .of_numeral (.append (by decide) (printable_upperHex 8 word))

end Numeral

namespace Sector

variable {sector : Sector} {legacy : Bool}

/-- The name that a message about a sector quotes. -/
def quotedName? (message : String) : Option String :=
  (Quoted.unquote? (message.toList.drop "sector ".length)).map fun (name, _) => String.ofList name

theorem quotedName?_append (name rest : String) :
    quotedName? ("sector " ++ (Quoted.text name ++ rest)) = some name := by
  rw [quotedName?, String.toList_append, String.toList_append, ← String.length_toList,
    List.drop_left, Quoted.unquote?_text, Option.map_some]
  exact congrArg some String.ofList_toList

theorem quotedName?_unknownTagNote (sector : Sector) :
    quotedName? sector.unknownTagNote.message = some sector.name := by
  unfold unknownTagNote
  simp only [String.append_assoc]
  exact quotedName?_append _ _

theorem quotedName?_degenerateNote (sector : Sector) :
    quotedName? sector.degenerateNote.message = some sector.name := by
  unfold degenerateNote
  simp only [String.append_assoc]
  exact quotedName?_append _ _

/-- A message that quotes a name is printable if the name has a byte for each character. -/
theorem printable_message {name rest : String} (hname : Latin.Fits name)
    (hrest : Latin.Printable rest.toList) :
    Latin.Printable ("sector " ++ (Quoted.text name ++ rest)).toList := by
  rw [String.toList_append, String.toList_append]
  exact .append (.of_numeral (by decide)) (.append (Quoted.printable_text hname) hrest)

theorem legible_unknownTagNote (hname : Latin.Fits sector.name) (hoffset : 0 ≤ sector.offset) :
    sector.unknownTagNote.Legible := by
  refine .of_message (by decide) hoffset ?_
  rw [String.append_assoc, String.append_assoc, String.append_assoc]
  refine printable_message hname ?_
  rw [String.toList_append, String.toList_append]
  exact .append (.of_numeral (by decide)) (.append (Numeral.latin_tag _) (.of_numeral (by decide)))

theorem legible_degenerateNote (hname : Latin.Fits sector.name) (hoffset : 0 ≤ sector.offset) :
    sector.degenerateNote.Legible := by
  refine .of_message (by decide) hoffset ?_
  rw [String.append_assoc, String.append_assoc, String.append_assoc]
  refine printable_message hname ?_
  rw [String.toList_append, String.toList_append]
  exact .append (.of_numeral (by decide)) (.append (Numeral.latin_text _) (.of_numeral (by decide)))

theorem legible_remarks (hname : Latin.Fits sector.name) (hoffset : 0 ≤ sector.offset) :
    ∀ note ∈ sector.remarks legacy, note.Legible := by
  refine List.forall_mem_append.mpr ⟨?_, ?_⟩
  · split
    · exact nofun
    · exact List.forall_mem_singleton.mpr (legible_unknownTagNote hname hoffset)
  · split
    · exact List.forall_mem_singleton.mpr (legible_degenerateNote hname hoffset)
    · exact nofun

end Sector

/-- The remarks about sectors that are stored somewhere are legible, whatever bytes their names
are. -/
theorem Tiled.legible_remarks {legacy : Bool} {data : Bytes} {start stop : Nat}
    {sectors : List Sector} (h : Tiled (Sector.StoredAt legacy data) start sectors stop) :
    ∀ note ∈ sectors.flatMap (Sector.remarks legacy), note.Legible := by
  refine List.forall_mem_flatMap.mpr (h.forall_mem fun {start sector stop} hsector => ?_)
  have hname := hsector.fits_name
  obtain ⟨sizes, hwith, -⟩ := hsector
  refine Sector.legible_remarks hname ?_
  rw [hwith.offset]
  exact Int.natCast_nonneg start

namespace Scene

variable {options : ReadOptions} {log : Log} {data : Bytes}

/-- All that is noted while a set is read is legible, also if the reading stops. -/
theorem exists_legible (options : ReadOptions) (log : Log) (data : Bytes) :
    ∃ notes, (read options (some log) data).2 = some (log.recordAll notes) ∧
      ∀ note ∈ notes, note.Legible := by
  cases hread : (read options (some log) data).1 with
  | ok scene =>
      obtain ⟨_, hreader⟩ := read_fst_eq_ok.mp hread
      obtain ⟨stop, -, -, hstored⟩ := Scene.storedAt_of_reader hreader
      obtain ⟨_, _, -, -, -, -, -, hsectors⟩ := hstored.sections
      refine ⟨_, (read_snd_of_ok hread).1,
        List.forall_mem_append.mpr ⟨hsectors.legible_remarks, ?_⟩⟩
      split
      · refine List.forall_mem_singleton.mpr (.of_message (by decide) ?_ ?_)
        · rw [hstored.length]
          exact Int.natCast_nonneg stop
        · rw [String.toList_append]
          exact .append (Numeral.latin_text _) (.of_numeral (by decide))
      · exact nofun
  | error fault =>
      obtain ⟨completed, hstops, hlog, -⟩ := read_snd_of_error hread
      refine ⟨_, hlog, ?_⟩
      cases hstops with
      | front => exact nofun
      | sector hfront _ hcompleted _ =>
          obtain ⟨_, _, -, -, htiled⟩ := tiled_of_front hfront hcompleted
          exact htiled.legible_remarks

/-- Whatever bytes a set has, and whether it is read or not, the messages that are recorded
meanwhile are made of printable characters, none of which ends a line. So when the log is written,
its file has one line for each entry, in their order, and each line tells its entry. Two sectors with
the same message about an unknown tag have the same name, and so have two with the same message about
a missing normal. -/
theorem read_legible (options : ReadOptions) (log : Log) (data : Bytes) :
    ∃ notes, (read options (some log) data).2 = some (log.recordAll notes) ∧
      (∀ note ∈ notes, ∀ c ∈ note.message.toList,
        Quoted.isPrintable c = true ∧ c.toNat < 0x100 ∧ Lines.isBreak c = false) ∧
      (log.Legible → ∀ (session : Session) (path : Path), session.tree.WellFormed →
        session.tree.Creatable path → ∃ after content lines,
          Tool.flush (log.recordAll notes) (some path) session = .ok () after ∧
          Action.read path after.tree = .ok content after.tree ∧
          Lines.ofBytes? content = some lines ∧
          lines.length = (log.recordAll notes).size ∧
          ∀ i : Nat,
            lines[i]? = (log.recordAll notes).entries[i]?.map (Log.line · (i + 1)) ∧
            lines[i]?.bind Log.entry? = (log.recordAll notes).entries[i]?.map (i + 1, ·)) ∧
      ∀ first second : Sector,
        first.unknownTagNote.message = second.unknownTagNote.message ∨
          first.degenerateNote.message = second.degenerateNote.message →
        first.name = second.name := by
  obtain ⟨notes, hnotes, hlegible⟩ := exists_legible options log data
  refine ⟨notes, hnotes, fun note hnote c hc => ?_, fun hlog session path hformed hpath => ?_, ?_⟩
  · have hmessage := (hlegible note hnote).message
    exact ⟨(hmessage c hc).1, (hmessage c hc).2, hmessage.isBreak_eq_false c hc⟩
  · have hall := hlog.recordAll hlegible
    obtain ⟨tree, hwrite, -, hplaced⟩ :=
      Tool.writeWithParents_of_creatable hformed hpath (utf8 (log.recordAll notes).text)
    refine ⟨_, _, _, hwrite, Action.read_eq_ok.mpr ⟨rfl, hplaced.holds hpath.admits⟩,
      Log.ofBytes?_text hall, Log.length_lines _, fun i => ?_⟩
    exact ⟨Log.getElem?_lines _ i, hall.entry?_lines i⟩
  · rintro first second (htag | hnormal)
    · have hnames := congrArg Sector.quotedName? htag
      rw [Sector.quotedName?_unknownTagNote, Sector.quotedName?_unknownTagNote] at hnames
      exact Option.some.inj hnames
    · have hnames := congrArg Sector.quotedName? hnormal
      rw [Sector.quotedName?_degenerateNote, Sector.quotedName?_degenerateNote] at hnames
      exact Option.some.inj hnames

/-- A set with one sector, whose name has a line feed, both delimiters, the character 0x85, a letter
beyond the first 128 and a backslash. Its tag is unknown, it has no vertices, and a byte follows. -/
def oddlyQuotedSet : Bytes :=
  [0, 0, 0, 0, 0, 0, 0, 0, 1, 0, 0, 0, 0, 0, 0, 0, 7, 0, 0, 0,
    0x0a, 0x27, 0x22, 0x85, 0xe9, 0x5c, 0,
    0, 0, 0, 0, 1, 0x34, 0x12, 0, 0, 0, 0, 0, 0, 0, 0, 0x80, 0x7f, 0xaa]

/-- The name splits none of the three lines. -/
theorem read_legible_odd :
    let session : Session := ⟨⟨["home"], [(["home"], .directory)]⟩, [], "", []⟩
    let path := Path.ofText "d.log"
    Log.empty.Legible ∧ session.tree.WellFormed ∧ session.tree.Creatable path ∧
      ∃ log after content, (read ⟨false, false⟩ (some .empty) oddlyQuotedSet).2 = some log ∧
        Tool.flush log (some path) session = .ok () after ∧
        Action.read path after.tree = .ok content after.tree ∧
        Lines.ofBytes? content = some
          ["#0001 offset=0x000C kind=unknown-tag      sector '\\n\\'\"\\x85é\\\\' has type tag " ++
            "0x00001234; rendered without a label",
           "#0002 offset=0x000C kind=degenerate       sector '\\n\\'\"\\x85é\\\\' with 0 vertex(es)" ++
            " has no usable normal; using zero vector",
           "#0003 offset=0x002C kind=trailing-bytes   1 byte(s) left after the last sector"] := by
  intro session path
  have hempty : Log.empty.Legible := nofun
  have hformed : session.tree.WellFormed := .of_nodes (by decide) (by decide)
  have hpath : session.tree.Creatable path :=
    Action.creatable_of_value? hformed
      (show value? (Action.create path [] session.tree) = some () by decide +kernel)
  obtain ⟨notes, hread, -, hfile, -⟩ := read_legible ⟨false, false⟩ .empty oddlyQuotedSet
  obtain ⟨after, content, lines, hflush, hcontent, hlines, -, hentries⟩ :=
    hfile hempty session path hformed hpath
  refine ⟨hempty, hformed, hpath, _, after, content, hread, hflush, hcontent, ?_⟩
  have hsame : lines = (Log.empty.recordAll notes).lines :=
    List.ext_getElem? fun i => (hentries i).1.trans (Log.getElem?_lines _ i).symm
  have hlog : (read ⟨false, false⟩ (some .empty) oddlyQuotedSet).2 = some
      ⟨[⟨"unknown-tag", 12, "sector '\\n\\'\"\\x85é\\\\' has type tag 0x00001234; " ++
          "rendered without a label"⟩,
        ⟨"degenerate", 12, "sector '\\n\\'\"\\x85é\\\\' with 0 vertex(es) has no usable normal; " ++
          "using zero vector"⟩,
        ⟨"trailing-bytes", 44, "1 byte(s) left after the last sector"⟩]⟩ := by decide +kernel
  refine hlines.trans (congrArg some (hsame.trans ?_))
  rw [Option.some.inj (hread.symm.trans hlog)]
  decide

end Scene

end SceneSet
