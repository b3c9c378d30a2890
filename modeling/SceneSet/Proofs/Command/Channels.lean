import SceneSet.Proofs.Command.Conversion
import SceneSet.Proofs.Report.Names

/-!
# Both ways of a report

A report goes to the output stream, or to a file if one is named. Each way has a writer of its own,
and they agree on all texts (`Tool.channels_agree`). `run_report` shows that the same bytes go
either way, whatever the names in the report are made of: they are those of `Report.bytes`, and line
feeds stay what they are.
-/

namespace SceneSet

open Files (Path Tree Action)

/-- A file that has been written is read back. -/
theorem Files.Action.read_of_write {path : Path} {content : Bytes} {tree after : Tree}
    (h : Action.write path content tree = .ok () after) :
    Action.read path after = .ok content after := by
  rw [Action.write_eq] at h
  cases hplace : tree.resolve path with
  | error cause =>
      rw [hplace] at h
      cases h
  | ok place =>
      rw [hplace] at h
      dsimp only at h
      split at h
      · cases h
      · rename_i hfile
        cases h
        exact Action.read_eq_ok.mpr ⟨rfl, place, (Tree.keeps_put hfile).resolve hplace,
          Tree.node?_put_self (Tree.ne_nil_of_not_directory hfile)⟩

namespace Tool

variable {text : String} {path : Path} {session other printed written : Session}

/-- A text is printed if each of its characters has a byte. -/
theorem printText_eq_ok : printText text session = .ok () printed ↔
    ∃ bytes, Latin.encode? text = some bytes ∧
      printed = { session with output := session.output ++ bytes } := by
  unfold printText
  cases hencode : Latin.encode? text with
  | none => exact ⟨nofun, nofun⟩
  | some bytes =>
      constructor
      · rintro ⟨⟩
        exact ⟨bytes, rfl, rfl⟩
      · rintro ⟨_, ⟨⟩, rfl⟩
        rfl

/-- It is written to a file if moreover the file can be written. -/
theorem writeText_eq_ok : writeText path text session = .ok () written ↔
    ∃ bytes tree, Latin.encode? text = some bytes ∧
      Action.write path bytes session.tree = .ok () tree ∧
      written = { session with tree := tree } := by
  unfold writeText
  cases hencode : Latin.encode? text with
  | none =>
      constructor
      · intro h
        obtain ⟨_, _, -, hthrow⟩ := bind_eq_ok.mp h
        cases hthrow
      · exact nofun
  | some bytes =>
      dsimp only [ofAction]
      rw [ofLoader_eq_ok]
      simp only [Source.ofAction_eq_ok]
      constructor
      · rintro ⟨tree, hwrite, rfl⟩
        exact ⟨bytes, tree, rfl, hwrite, rfl⟩
      · rintro ⟨_, tree, ⟨⟩, hwrite, rfl⟩
        exact ⟨tree, hwrite, rfl⟩

/-- The bytes that a text adds to the output stream are those that a file holds after the same text
has been written to it. -/
theorem channels_agree (hprint : printText text session = .ok () printed)
    (hwrite : writeText path text other = .ok () written) :
    ∃ bytes, printed.output = session.output ++ bytes ∧
      Action.read path written.tree = .ok bytes written.tree := by
  obtain ⟨bytes, hbytes, rfl⟩ := printText_eq_ok.mp hprint
  obtain ⟨_, tree, hsame, htree, rfl⟩ := writeText_eq_ok.mp hwrite
  cases hbytes.symm.trans hsame
  exact ⟨bytes, rfl, Action.read_of_write htree⟩

end Tool

namespace Command.Convert

variable {request : Request} {tree : Tree} {archive : Option Archive} {data : Bytes} {scene : Scene}

namespace Request

/-- Where the report goes has nothing to do with what is opened. -/
theorem Opens.output (h : request.Opens tree archive) (output : Option Path) :
    { request with output := output }.Opens tree archive := by
  cases h with
  | none harchive => exact .none harchive
  | some harchive hopen => exact .some harchive hopen

/-- A scene that is read from what is loaded is what a request yields. -/
theorem Yields.of_read {log : Option Log} (hopens : request.Opens tree archive)
    (hload : Source.load request.name archive tree = .ok data tree)
    (hscene : (Scene.read request.options log data).1 = .ok scene) :
    ∃ noted, request.Yields tree scene noted := by
  obtain ⟨noted, hnoted⟩ := Scene.read_log request.options .empty data
  refine ⟨noted, archive, data, hopens, hload, Prod.ext ?_ hnoted⟩
  -- the log of the run does not change what is read
  rw [Scene.read_fst, ← hscene, Scene.read_fst]

end Request

/-- The characters of a report are among the first 256, so that each is written as one byte. Without
a file these bytes are added to the output stream, and with one they are what the file holds in the
end. In either case each name stands in them as it is stored. -/
theorem run_report {line fileLine : List String} {session : Session} {path : Path}
    {log : Option Log} (hformed : session.tree.WellFormed)
    (hopens : request.Opens session.tree archive)
    (hload : Source.load request.name archive session.tree = .ok data session.tree)
    (hscene : (Scene.read request.options log data).1 = .ok scene)
    (houtput : request.output = none) (hjson : request.json = none)
    (hpaths : ∀ destination ∈ { request with output := some path }.destinations,
      session.tree.Creatable destination)
    (hapart : { request with output := some path }.destinations.Pairwise session.tree.Apart)
    (hmakes : Makes line request) (hmakesFile : Makes fileLine { request with output := some path }) :
    (∀ c ∈ (Report.scene request.trueCounts scene).toList, c.toNat ≤ 0xff) ∧
      Latin.encode? (Report.scene request.trueCounts scene) =
        some (Report.bytes request.trueCounts data scene) ∧
      (∃ final, run line session = .ok 0 final ∧
        final.output = session.output ++ Report.bytes request.trueCounts data scene) ∧
      ∃ final, run fileLine session = .ok 0 final ∧ final.output = session.output ∧
        Action.read path final.tree =
          .ok (Report.bytes request.trueCounts data scene) final.tree := by
  obtain ⟨hfits, hreport⟩ := Report.encode?_scene hscene request.trueCounts
  refine ⟨fun c hc => Nat.le_of_lt_succ (hfits c hc), hreport, ?_, ?_⟩
  · -- the file is the only destination that the first run does not have
    obtain ⟨noted, hyields⟩ := Request.Yields.of_read hopens hload hscene
    have hsublist : request.destinations.Sublist
        { request with output := some path }.destinations := by
      simp [Request.destinations, houtput]
    obtain ⟨hready, -⟩ := tool_of_yields hformed hyields hreport
      (fun other hother => hpaths other (hsublist.subset hother)) (hapart.sublist hsublist)
    obtain ⟨final, htool, hwrote⟩ := hready (Request.summaryReady_of_none hjson)
    refine ⟨final, by rw [run_eq_tool hmakes, htool], ?_⟩
    rw [hwrote.output, if_pos houtput]
  · obtain ⟨noted, hyields⟩ := Request.Yields.of_read (hopens.output (some path)) hload hscene
    obtain ⟨hready, -⟩ := tool_of_yields hformed hyields hreport hpaths hapart
    obtain ⟨final, htool, hwrote⟩ := hready (Request.summaryReady_of_none hjson)
    refine ⟨final, by rw [run_eq_tool hmakesFile, htool], ?_, ?_⟩
    · rw [hwrote.output, if_neg (Option.some_ne_none path), List.append_nil]
    · refine hwrote.read ?_
        (List.mem_append_left _ (List.mem_append_right _ (delivered rfl _)))
      refine List.pairwise_map.mp ?_
      rw [List.map_append, List.map_append, map_fst_delivery, map_fst_delivery, map_fst_delivery]
      exact hapart

/-- A set with one sector, whose name has a carriage return, a line feed and bytes that are not
ASCII. -/
def oddlyNamedSet : Bytes :=
  [0, 0, 0, 0, 0, 0, 0, 0, 1, 0, 0, 0, 0, 0, 0, 0, 6, 0, 0, 0, 0x41, 0x0d, 0x0a, 0x80, 0xff, 0,
    0, 0, 0, 0, 1, 0, 0x10, 0, 0, 0, 0, 0, 0, 0, 0, 0x80, 0x7f]

/-- The scene that is read from it. -/
def oddlyNamedScene : Scene :=
  ⟨[], [], [⟨12, Latin.decode [0x41, 0x0d, 0x0a, 0x80, 0xff], 0, 0x1000, true, .infinite false, [],
    .zero⟩], 0, 0, 1, 43, "", []⟩

/-- The name of the sector goes either way as it is. -/
theorem run_report_oddlyNamed :
    let session : Session :=
      ⟨⟨["home"], [(["home"], .directory), (["home", "a.set"], .file oddlyNamedSet)]⟩, [], "", []⟩
    let report := utf8 ("section: colormaps\nsection: setups\n\tnumsetups 0\nsection: lights\n" ++
        "\tnumlights 0\nsection: sectors\n\tsector\t") ++ [0x41, 0x0d, 0x0a, 0x80, 0xff] ++
      utf8 ("\n\tID\t0\n\ttype\twalk\n\tdefault visibility\tvisible\n\theight\tinf\n" ++
        "\tnumvertices\t0\n\tnormal\t\t\t0.000000\t0.000000\t0.000000\n\tvertices:\t\t\n\n")
    Latin.encode? (Report.scene false oddlyNamedScene) = some report ∧
      (∃ final, run ["a.set"] session = .ok 0 final ∧ final.output = report) ∧
      ∃ final, run ["a.set", "--output", "out/r"] session = .ok 0 final ∧ final.output = [] ∧
        Action.read (Path.ofText "out/r") final.tree = .ok report final.tree := by
  intro session report
  let request : Request := ⟨"a.set", none, none, none, none, ⟨false, false⟩, false⟩
  have hformed : session.tree.WellFormed := .of_nodes (by decide) (by decide)
  have hload := eq_ok_of_value? (show value? (Source.load "a.set" none session.tree) =
    some oddlyNamedSet by decide +kernel)
  rw [Source.endState_load] at hload
  have hscene : (Scene.read request.options none oddlyNamedSet).1 = .ok oddlyNamedScene := by
    decide +kernel
  have hcreatable : session.tree.Creatable (Path.ofText "out/r") :=
    (Action.create_eq_ok hformed).mp ⟨_, eq_ok_of_value?
      (show value? (Action.create (Path.ofText "out/r") [] session.tree) = some () by
        decide +kernel)⟩
  have hmakes : Makes ["a.set"] request := ⟨⟨[], [["a.set"], []]⟩, by decide, rfl⟩
  have hmakesFile : Makes ["a.set", "--output", "out/r"]
      { request with output := some (Path.ofText "out/r") } :=
    ⟨⟨[("--output", ["out/r"])], [["a.set"], []]⟩, by decide, rfl⟩
  obtain ⟨-, hreport, hstream, hfile⟩ := run_report hformed (.none rfl) hload hscene rfl rfl
    (List.forall_mem_singleton.mpr hcreatable) (List.pairwise_singleton _ _) hmakes hmakesFile
  have hbytes : Report.bytes request.trueCounts oddlyNamedSet oddlyNamedScene = report := by
    decide +kernel
  rw [hbytes] at hreport hstream hfile
  exact ⟨hreport, hstream, hfile⟩

end Command.Convert

end SceneSet
