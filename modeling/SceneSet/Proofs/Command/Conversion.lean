import SceneSet.Command.Convert
import SceneSet.Proofs.Command.Steps
import SceneSet.Proofs.Files.Deliveries
import SceneSet.Proofs.Report.Encoding
import SceneSet.Proofs.Scene.Growth

/-!
# What a conversion leaves behind

A request fails on the files there are, or it yields a scene (`Request.fails_or_yields`). If it
fails, then nothing is written but what was noted until then (`run_fails`). If it yields a scene, then
the notes and the report are written, and then the summary (`run_delivers`). The directory of the
summary is not made for it: a run ends there with an error if it is missing (`run_stops`).
-/

namespace SceneSet

open Files (Path Tree Place Action)

/-! ### Loading changes nothing -/

/-- A file that cannot be read is reported, if its path is free of NULs. -/
theorem Files.Action.isReported_of_read {tree after : Tree} {path : Path} {failure : Files.Failure}
    (h : path.text.toList.contains '\x00' = false)
    (hread : Action.read path tree = .error failure after) :
    (Problem.files failure).isReported = true := by
  rw [Action.read_eq] at hread
  refine decide_eq_true fun hcause => ?_
  cases hresolve : tree.resolve path with
  | error cause =>
      rw [hresolve] at hread
      cases hread
      have hnul : cause = .embeddedNul := hcause
      rw [hnul] at hresolve
      exact Tree.resolve_ne_embeddedNul h hresolve
  | ok place =>
      rw [hresolve] at hread
      dsimp only at hread
      split at hread <;> cases hread <;> cases hcause

/-- Looking a name up changes nothing. -/
theorem Source.endState_load (name : String) (archive : Option Archive) (tree : Tree) :
    endState (Source.load name archive tree) = tree := by
  have hread := Action.endState_read (Path.ofText name) tree
  unfold Source.load
  cases archive.bind (·.read? name) with
  | some data => rfl
  | none =>
      dsimp only
      cases hrun : Action.read (Path.ofText name) tree with
      | ok data after =>
          rw [hrun] at hread
          exact hread
      | error failure after =>
          rw [hrun] at hread
          exact hread

/-- A log that is given to a reading goes on. -/
theorem Scene.read_log (options : ReadOptions) (log : Log) (data : Bytes) :
    ∃ after, (Scene.read options (some log) data).2 = some after := by
  obtain ⟨entries, hsections⟩ :=
    (@Observer.Grows.sections [] options).adds ⟨Cursor.ofBytes data, some log⟩
  obtain ⟨further, hread⟩ := Scene.sections_extends options (some log) data
  rw [hsections] at hread
  exact ⟨_, hread⟩

/-- A reading that keeps a log gives the log back, whatever else it gives. -/
theorem Scene.exists_read (options : ReadOptions) (log : Log) (data : Bytes) :
    ∃ result after, Scene.read options (some log) data = (result, some after) := by
  obtain ⟨after, hafter⟩ := Scene.read_log options log data
  exact ⟨_, after, Prod.ext rfl hafter⟩

namespace Command.Convert

variable {request : Request} {tree : Tree} {session : Session} {archive : Option Archive}
  {problem : Problem} {scene : Scene} {log : Log}

/-! ### What a request comes to -/

namespace Request

/-- The archive of a request, if it names one, is opened. -/
inductive Opens (request : Request) (tree : Tree) : Option Archive → Prop where
  | none : request.archive = none → Opens request tree none
  | some {path : Path} {archive : Archive} : request.archive = some path →
      Source.openArchive path tree = .ok archive tree → Opens request tree (some archive)

/-- A request fails: the archive cannot be opened, its name leads to no set, or what it leads to is
none. The log is what was noted until then. -/
inductive Fails (request : Request) (tree : Tree) : Problem → Log → Prop where
  | archive {path : Path} {problem : Problem} : request.archive = some path →
      Source.openArchive path tree = .error problem tree → Fails request tree problem .empty
  | source {archive : Option Archive} {problem : Problem} : request.Opens tree archive →
      Source.load request.name archive tree = .error problem tree →
      Fails request tree problem .empty
  | data {archive : Option Archive} {data : Bytes} {fault : Fault} {log : Log} :
      request.Opens tree archive → Source.load request.name archive tree = .ok data tree →
      Scene.read request.options (some .empty) data = (.error fault, some log) →
      Fails request tree (.fault fault) log

/-- A request yields a scene, and a log of what was noted. -/
structure Yields (request : Request) (tree : Tree) (scene : Scene) (log : Log) : Prop where
  source : ∃ archive data, request.Opens tree archive ∧
    Source.load request.name archive tree = .ok data tree ∧
    Scene.read request.options (some .empty) data = (.ok scene, some log)

/-- The paths that a request reads from have no NULs. -/
structure Plain (request : Request) : Prop where
  name : (Path.ofText request.name).text.toList.contains '\x00' = false
  archive : ∀ path ∈ request.archive, path.text.toList.contains '\x00' = false

/-- The paths that are written to, in this order. -/
def destinations (request : Request) : List Path :=
  request.diagnostics.toList ++ request.output.toList ++ request.json.toList

/-- The directories above the summary are there, or are made for another destination. -/
def SummaryReady (request : Request) (tree : Tree) : Prop :=
  ∀ path ∈ request.json, ∀ place ∈ tree.above path, tree.node? place = some .directory ∨
    ∃ other ∈ request.diagnostics.toList ++ request.output.toList, place ∈ tree.above other

/-- Without a summary there is nothing to wait for. -/
theorem summaryReady_of_none (h : request.json = none) : request.SummaryReady tree := by
  intro path hpath
  rw [h] at hpath
  cases hpath

/-- The JSON summary of a scene, as it is written. -/
def summary (request : Request) (scene : Scene) : Bytes :=
  utf8 (Summary.bundle request.name (request.archive.map (·.text)) scene).indented

/-- Every request fails or yields a scene. -/
theorem fails_or_yields (request : Request) (tree : Tree) :
    (∃ problem log, request.Fails tree problem log) ∨
      ∃ scene log, request.Yields tree scene log := by
  have hopens : (∃ problem log, request.Fails tree problem log) ∨
      ∃ archive, request.Opens tree archive := by
    cases hpath : request.archive with
    | none => exact .inr ⟨_, .none hpath⟩
    | some path =>
        have hkeeps := Source.endState_openArchive path tree
        cases hopen : Source.openArchive path tree with
        | ok archive after =>
            rw [hopen] at hkeeps
            cases hkeeps
            exact .inr ⟨_, .some hpath hopen⟩
        | error problem after =>
            rw [hopen] at hkeeps
            cases hkeeps
            exact .inl ⟨problem, .empty, .archive hpath hopen⟩
  rcases hopens with hfails | ⟨archive, hopens⟩
  · exact .inl hfails
  have hkeeps := Source.endState_load request.name archive tree
  cases hload : Source.load request.name archive tree with
  | error problem after =>
      rw [hload] at hkeeps
      cases hkeeps
      exact .inl ⟨problem, .empty, .source hopens hload⟩
  | ok data after =>
      rw [hload] at hkeeps
      cases hkeeps
      obtain ⟨result, log, hread⟩ := Scene.exists_read request.options .empty data
      cases result with
      | error fault => exact .inl ⟨.fault fault, log, .data hopens hload hread⟩
      | ok scene => exact .inr ⟨scene, log, ⟨archive, data, hopens, hload, hread⟩⟩

/-- What makes a request fail is reported, if its paths have no NULs. -/
theorem Fails.isReported (h : request.Fails tree problem log) (hplain : request.Plain) :
    problem.isReported = true := by
  cases h with
  | @archive path _ hpath hopen =>
      unfold Source.openArchive at hopen
      rcases bind_eq_error.mp hopen with hread | ⟨data, _, _, hparse⟩
      · obtain ⟨failure, hrun, rfl⟩ := Source.ofAction_eq_error.mp hread
        exact Action.isReported_of_read (hplain.archive path hpath) hrun
      · cases hrun : Archive.read path.text data with
        | ok archive =>
            rw [hrun] at hparse
            cases hparse
        | error defect =>
            rw [hrun] at hparse
            cases hparse
            rfl
  | @source archive _ _ hload =>
      unfold Source.load at hload
      cases hmember : archive.bind (·.read? request.name) with
      | some data =>
          rw [hmember] at hload
          cases hload
      | none =>
          rw [hmember] at hload
          dsimp only at hload
          cases hrun : Action.read (Path.ofText request.name) tree with
          | ok data after =>
              rw [hrun] at hload
              cases hload
          | error failure after =>
              rw [hrun] at hload
              dsimp only at hload
              rw [if_pos (Action.isReported_of_read hplain.name hrun)] at hload
              cases hload
              rfl
  | data => rfl

end Request

/-! ### What the parts of a run write -/

/-- What a part of a run has written: some files, one after the other, and bytes of output. -/
structure Wrote (files : List (Path × Bytes)) (output : Bytes) (before after : Session) :
    Prop where
  formed : after.tree.WellFormed
  placed : Tree.PlacedAll files before.tree after.tree
  output : after.output = before.output ++ output

/-- What is written to a destination, if there is one. -/
def delivery (destination : Option Path) (content : Bytes) : List (Path × Bytes) :=
  destination.toList.map fun path => (path, content)

theorem mem_delivery {destination : Option Path} {content : Bytes} {file : Path × Bytes} :
    file ∈ delivery destination content ↔ file.1 ∈ destination ∧ file.2 = content := by
  obtain ⟨path, other⟩ := file
  simp only [delivery, List.mem_map, Option.mem_toList, Prod.mk.injEq]
  constructor
  · rintro ⟨_, hpath, rfl, rfl⟩
    exact ⟨hpath, rfl⟩
  · rintro ⟨hpath, rfl⟩
    exact ⟨path, hpath, rfl, rfl⟩

theorem delivered {destination : Option Path} {path : Path} (h : path ∈ destination)
    (content : Bytes) : (path, content) ∈ delivery destination content :=
  mem_delivery.mpr ⟨h, rfl⟩

theorem map_fst_delivery (destination : Option Path) (content : Bytes) :
    (delivery destination content).map (·.1) = destination.toList := by
  simp [delivery, Function.comp_def]

namespace Wrote

variable {files others : List (Path × Bytes)} {output further : Bytes}
  {before middle after : Session}

/-- Messages do not count. -/
theorem messages (h : session.tree.WellFormed) (messages : String) :
    Wrote [] [] session { session with messages := messages } :=
  ⟨h, .nil _, (List.append_nil _).symm⟩

theorem trans (h : Wrote files output before middle) (hnext : Wrote others further middle after) :
    Wrote (files ++ others) (output ++ further) before after where
  formed := hnext.formed
  placed := h.placed.append hnext.placed
  output := by rw [hnext.output, h.output, List.append_assoc]

/-- If no two ways meet, then each file is read back. -/
theorem read (h : Wrote files output before after)
    (hapart : files.Pairwise fun file other => before.tree.Apart file.1 other.1) {path : Path}
    {content : Bytes} (hfile : (path, content) ∈ files) :
    Action.read path after.tree = .ok content after.tree := by
  have hholds : after.tree.Holds path content := h.placed.holds hapart (path, content) hfile
  exact Action.read_eq_ok.mpr ⟨rfl, hholds⟩

end Wrote

/-- What is said when an archive is loaded comes before the set is looked up. -/
theorem load_of_opens (h : request.Opens session.tree archive) :
    ∃ messages, load request session = (do
      let data ← Tool.ofLoader (Source.load request.name archive)
      Tool.say ("[+] Loaded " ++ request.name ++ " (" ++ Numeral.text data.length ++ " bytes)")
      pure data : Tool Bytes) { session with messages := messages } := by
  unfold load
  cases h with
  | none hnone =>
      rw [hnone]
      exact ⟨session.messages, rfl⟩
  | @some path archive hpath hopen =>
      have hload := Tool.ofLoader_eq_ok.mpr ⟨_, hopen, rfl⟩
      rw [hpath]
      refine ⟨session.messages ++ ("[+] Loaded archive " ++ path.text ++ " ("
        ++ Numeral.text archive.size ++ " entries)") ++ "\n", ?_⟩
      exact bind_of_ok hload

theorem load_of_yields {data : Bytes} (h : request.Opens session.tree archive)
    (hload : Source.load request.name archive session.tree = .ok data session.tree) :
    ∃ messages, load request session = .ok data { session with messages := messages } := by
  obtain ⟨messages, hrest⟩ := load_of_opens h
  rw [hrest]
  exact ⟨_, bind_eq_ok.mpr ⟨data, _, Tool.ofLoader_eq_ok.mpr ⟨_, hload, rfl⟩, rfl⟩⟩

/-- What is obtained from a set that has been loaded is what is read from it. -/
theorem obtain_of_load {data : Bytes} {after : Session} {result : Except Fault Scene}
    (hload : load request session = .ok data after)
    (hread : Scene.read request.options (some .empty) data = (result, some log)) :
    obtain request session = .ok (result.mapError .fault, log) after := by
  have hattempt : Tool.attempt (load request) session = .ok (.ok data) after := by
    unfold Tool.attempt
    rw [hload]
  refine (bind_of_ok hattempt).trans ?_
  dsimp only
  rw [hread]
  rfl

/-- A request that fails gives its problem and what was noted. -/
theorem obtain_of_fails (hformed : session.tree.WellFormed)
    (h : request.Fails session.tree problem log) :
    ∃ after, obtain request session = .ok (.error problem, log) after ∧
      Wrote [] [] session after := by
  have hproblem : ∀ {after}, load request session = .error problem after →
      obtain request session = .ok (.error problem, .empty) after := by
    intro after hload
    have hattempt : Tool.attempt (load request) session = .ok (.error problem) after := by
      unfold Tool.attempt
      rw [hload]
    exact bind_of_ok hattempt
  cases h with
  | @archive path _ hpath hopen =>
      refine ⟨session, hproblem ?_, .messages hformed _⟩
      unfold load
      rw [hpath]
      exact bind_eq_error.mpr (.inl (Tool.ofLoader_eq_error.mpr ⟨_, hopen, rfl⟩))
  | source hopens hload =>
      obtain ⟨messages, hrest⟩ := load_of_opens hopens
      refine ⟨_, hproblem ?_, .messages hformed messages⟩
      rw [hrest]
      exact bind_eq_error.mpr (.inl (Tool.ofLoader_eq_error.mpr ⟨_, hload, rfl⟩))
  | data hopens hload hread =>
      obtain ⟨messages, hrun⟩ := load_of_yields hopens hload
      exact ⟨_, obtain_of_load hrun hread, .messages hformed messages⟩

/-- A request that yields a scene gives it, and what was noted. -/
theorem obtain_of_yields (hformed : session.tree.WellFormed)
    (h : request.Yields session.tree scene log) :
    ∃ after, obtain request session = .ok (.ok scene, log) after ∧ Wrote [] [] session after := by
  obtain ⟨archive, data, hopens, hload, hread⟩ := h.source
  obtain ⟨messages, hrun⟩ := load_of_yields hopens hload
  exact ⟨_, obtain_of_load hrun hread, .messages hformed messages⟩

/-- The notes are written to their destination, if it can be created. -/
theorem flush_of_creatable {destination : Option Path} (hformed : session.tree.WellFormed)
    (hpath : ∀ path ∈ destination, session.tree.Creatable path) (log : Log) :
    ∃ after, Tool.flush log destination session = .ok () after ∧
      Wrote (delivery destination (utf8 log.text)) [] session after := by
  cases destination with
  | none => exact ⟨session, rfl, .messages hformed _⟩
  | some path =>
      obtain ⟨tree, hwrite, hafter, hplaced⟩ :=
        Tool.writeWithParents_of_creatable hformed (hpath path rfl) (utf8 log.text)
      exact ⟨_, hwrite, hafter, .cons (hpath path rfl) hplaced (.nil _), (List.append_nil _).symm⟩

/-- What was read is announced. -/
theorem announce_eq_ok (hformed : session.tree.WellFormed) (scene : Scene) (log : Log) :
    ∃ after, announce scene log session = .ok () after ∧ Wrote [] [] session after := by
  unfold announce
  cases log.entries.isEmpty with
  | true => exact ⟨_, rfl, .messages hformed _⟩
  | false => exact ⟨_, rfl, .messages hformed _⟩

/-- Without a file the bytes of the report go to the output stream. -/
theorem deliverReport_of_none {report : Bytes} (houtput : request.output = none)
    (hreport : Latin.encode? (Report.scene request.trueCounts scene) = some report) :
    deliverReport request scene = Tool.emit report := by
  unfold deliverReport
  rw [houtput]
  exact Tool.printText_of_encode hreport

/-- With a file it is they that are written to it. -/
theorem deliverReport_of_some {report : Bytes} {path : Path} (houtput : request.output = some path)
    (hreport : Latin.encode? (Report.scene request.trueCounts scene) = some report) :
    deliverReport request scene = (do
      Tool.writeWithParents path report
      Tool.say ("[+] Report written to " ++ path.text)) := by
  unfold deliverReport Tool.writeWithParents
  rw [houtput]
  dsimp only
  rw [Tool.writeText_of_encode hreport]
  simp only [Tool.ofAction_bind, bind_assoc]

/-- The report is written to its file, if that can be created, or to the output stream. -/
theorem deliverReport_of_creatable {report : Bytes} (hformed : session.tree.WellFormed)
    (hreport : Latin.encode? (Report.scene request.trueCounts scene) = some report)
    (hpath : ∀ path ∈ request.output, session.tree.Creatable path) :
    ∃ after, deliverReport request scene session = .ok () after ∧
      Wrote (delivery request.output report) (if request.output = none then report else [])
        session after := by
  cases houtput : request.output with
  | none =>
      rw [deliverReport_of_none houtput hreport]
      exact ⟨_, rfl, hformed, .nil _, rfl⟩
  | some path =>
      have hcreatable := hpath path houtput
      obtain ⟨tree, hwrite, hafter, hplaced⟩ :=
        Tool.writeWithParents_of_creatable hformed hcreatable report
      rw [deliverReport_of_some houtput hreport]
      refine ⟨_, bind_eq_ok.mpr ⟨(), _, hwrite, rfl⟩, hafter, ?_, ?_⟩
      · exact .cons hcreatable hplaced (.nil _)
      · rw [if_neg nofun]
        exact (List.append_nil _).symm

section Summary

variable (hpath : ∀ path ∈ request.json, session.tree.Creatable path)

include hpath

/-- The summary is written if its directory is there. -/
theorem deliverSummary_of_directories (hformed : session.tree.WellFormed) (scene : Scene)
    (hdirectories : ∀ path ∈ request.json, ∀ place ∈ session.tree.above path,
      session.tree.node? place = some .directory) :
    ∃ after, deliverSummary request scene session = .ok () after ∧
      Wrote (delivery request.json (request.summary scene)) [] session after := by
  unfold deliverSummary
  cases hjson : request.json with
  | none => exact ⟨session, rfl, .messages hformed _⟩
  | some path =>
      have hcreatable := hpath path hjson
      obtain ⟨tree, hwrite, hplaced⟩ := Action.write_of_made hcreatable
        (.refl (hdirectories path hjson)) (request.summary scene)
      have hkept := Action.moves_write path (request.summary scene) session.tree hformed
      rw [hwrite] at hkept
      refine ⟨_, bind_eq_ok.mpr ⟨(), _, Tool.ofLoader_eq_ok.mpr
        ⟨tree, Source.ofAction_eq_ok.mpr hwrite, rfl⟩, rfl⟩, hkept.formed, ?_, ?_⟩
      · exact .cons hcreatable hplaced (.nil _)
      · exact (List.append_nil _).symm

/-- The summary is not written if its directory is missing. -/
theorem deliverSummary_of_missing (scene : Scene) {path : Path} (hjson : request.json = some path)
    (hmissing : ¬ ∀ place ∈ session.tree.above path, session.tree.node? place = some .directory) :
    deliverSummary request scene session = .error (.files ⟨.notFound, path⟩) session := by
  have hcreatable := hpath path hjson
  have hresolve := Tree.resolve_eq_notFound hcreatable.admits hcreatable.free hmissing
  unfold deliverSummary
  rw [hjson]
  refine bind_eq_error.mpr (.inl (Tool.ofLoader_eq_error.mpr ⟨_, ?_, rfl⟩))
  refine Source.ofAction_eq_error.mpr ⟨⟨.notFound, path⟩, ?_, rfl⟩
  rw [Action.write_eq, hresolve]

end Summary

/-! ### Whole runs -/

/-- A command line makes a request. -/
def Makes (line : List String) (request : Request) : Prop :=
  ∃ arguments, grammar.parse line = .ok arguments ∧ Request.ofArguments arguments = request

theorem run_eq_tool {line : List String} (h : Makes line request) : run line = tool request := by
  obtain ⟨arguments, hparse, rfl⟩ := h
  unfold run Command.run
  rw [hparse]

/-- If a request fails because of a problem that is reported, then only the notes are written. -/
theorem tool_of_reported (hformed : session.tree.WellFormed) (hreported : problem.isReported = true)
    (hdiagnostics : ∀ path ∈ request.diagnostics, session.tree.Creatable path)
    (hfails : request.Fails session.tree problem log) :
    ∃ final, tool request session = .ok 1 final ∧
      Wrote (delivery request.diagnostics (utf8 log.text)) [] session final := by
  obtain ⟨first, hobtain, hfirst⟩ := obtain_of_fails hformed hfails
  obtain ⟨second, hreport, hsecond⟩ : ∃ second,
      Tool.report problem (wording problem) first = .ok () second ∧ Wrote [] [] first second := by
    unfold Tool.report
    rw [if_pos hreported]
    exact ⟨_, rfl, .messages hfirst.formed _⟩
  have hbefore := hfirst.trans hsecond
  obtain ⟨final, hflush, hfinal⟩ := flush_of_creatable hsecond.formed
    (fun path hpath => hbefore.placed.creatable (hdiagnostics path hpath) nofun) log
  have hend : Tool.giveUp problem final = .ok 1 final := by
    unfold Tool.giveUp
    rw [if_pos hreported]
    rfl
  refine ⟨final, ?_, hbefore.trans hfinal⟩
  exact bind_eq_ok.mpr ⟨_, first, hobtain, bind_eq_ok.mpr ⟨(), second, hreport,
    bind_eq_ok.mpr ⟨(), final, hflush, hend⟩⟩⟩

/-- If a request whose paths have no NULs fails, then only the notes are written. -/
theorem tool_of_fails (hformed : session.tree.WellFormed) (hplain : request.Plain)
    (hdiagnostics : ∀ path ∈ request.diagnostics, session.tree.Creatable path)
    (hfails : request.Fails session.tree problem log) :
    ∃ final, tool request session = .ok 1 final ∧
      Wrote (delivery request.diagnostics (utf8 log.text)) [] session final :=
  tool_of_reported hformed (hfails.isReported hplain) hdiagnostics hfails

/-- If a request fails, then the tool ends with exit code 1. The output stream is as it was, and so
are all files but the one for the notes. That one, if it is asked for, holds what was noted until
then, and nothing if that is nothing. -/
theorem run_fails {line : List String} (hformed : session.tree.WellFormed)
    (hmakes : Makes line request) (hplain : request.Plain)
    (hdiagnostics : ∀ path ∈ request.diagnostics, session.tree.Creatable path)
    (hfails : request.Fails session.tree problem log) :
    ∃ final, run line session = .ok 1 final ∧ final.output = session.output ∧
      (∀ place, (∀ path ∈ request.diagnostics, place ≠ session.tree.target path) →
        final.tree.file? place = session.tree.file? place) ∧
      ∀ path ∈ request.diagnostics,
        Action.read path final.tree =
          .ok (utf8 (String.join (log.lines.map (· ++ "\n")))) final.tree ∧
        (log.entries = [] → Action.read path final.tree = .ok [] final.tree) := by
  obtain ⟨final, htool, hwrote⟩ := tool_of_fails hformed hplain hdiagnostics hfails
  have hread : ∀ path ∈ request.diagnostics,
      Action.read path final.tree = .ok (utf8 log.text) final.tree := by
    intro path hpath
    refine hwrote.read ?_ (delivered hpath _)
    cases request.diagnostics with
    | none => exact .nil
    | some other => exact List.pairwise_singleton _ _
  refine ⟨final, ?_, ?_, fun place hplace => ?_, fun path hpath => ⟨hread path hpath, ?_⟩⟩
  · rw [run_eq_tool hmakes, htool]
  · rw [hwrote.output, List.append_nil]
  · exact hwrote.placed.file?_other fun file hfile => hplace _ (mem_delivery.mp hfile).1
  · intro hnothing
    have hempty : utf8 log.text = [] := by
      unfold Log.text Log.lines
      rw [hnothing]
      rfl
    rw [hread path hpath, hempty]

/-- The summary is ready if its directory is there when the other files have been written. -/
theorem summaryReady_iff {files : List (Path × Bytes)} {before after : Tree}
    (hplaced : Tree.PlacedAll files before after)
    (hfiles : files.map (·.1) = request.diagnostics.toList ++ request.output.toList)
    (hapart : ∀ file ∈ files, ∀ path ∈ request.json, before.Apart file.1 path) :
    request.SummaryReady before ↔ ∀ path ∈ request.json, ∀ place ∈ after.above path,
      after.node? place = some .directory := by
  refine forall₂_congr fun path hpath => ?_
  rw [Tree.above_congr hplaced.working]
  refine forall₂_congr fun place hplace => ?_
  have hother : ∀ file ∈ files, place ≠ before.target file.1 := by
    rintro file hfile rfl
    exact (hapart file hfile path hpath).secondFree hplace
  rw [hplaced.directory_iff hother, ← hfiles]
  simp only [List.mem_map, exists_exists_and_eq_and]

/-- If a request yields a scene, then the notes and the report are written, and then the summary if
its directory is there or has been made for one of them. Otherwise the run ends with an error. -/
theorem tool_of_yields {report : Bytes} (hformed : session.tree.WellFormed)
    (hyields : request.Yields session.tree scene log)
    (hreport : Latin.encode? (Report.scene request.trueCounts scene) = some report)
    (hpaths : ∀ path ∈ request.destinations, session.tree.Creatable path)
    (hapart : request.destinations.Pairwise session.tree.Apart) :
    (request.SummaryReady session.tree → ∃ final, tool request session = .ok 0 final ∧
      Wrote (delivery request.diagnostics (utf8 log.text) ++ delivery request.output report ++
        delivery request.json (request.summary scene))
        (if request.output = none then report else []) session final) ∧
    (¬ request.SummaryReady session.tree → ∃ path ∈ request.json, ∃ final,
      tool request session = .error (.files ⟨.notFound, path⟩) final ∧
      Wrote (delivery request.diagnostics (utf8 log.text) ++ delivery request.output report)
        (if request.output = none then report else []) session final) := by
  simp only [Request.destinations, List.forall_mem_append, Option.mem_toList] at hpaths
  obtain ⟨⟨hdiagnostics, houtput⟩, hjson⟩ := hpaths
  simp only [Request.destinations, List.pairwise_append] at hapart
  obtain ⟨first, hobtain, hfirst⟩ := obtain_of_yields hformed hyields
  obtain ⟨second, hflush, hsecond⟩ := flush_of_creatable hfirst.formed
    (fun path hpath => hfirst.placed.creatable (hdiagnostics path hpath) nofun) log
  obtain ⟨third, hannounce, hthird⟩ := announce_eq_ok hsecond.formed scene log
  have hthree : Wrote (delivery request.diagnostics (utf8 log.text)) [] session third := by
    simpa using (hfirst.trans hsecond).trans hthird
  obtain ⟨fourth, hdeliver, hfourth⟩ := deliverReport_of_creatable hthird.formed hreport
    fun path hpath => hthree.placed.creatable (houtput path hpath) fun file hfile =>
      hapart.1.2.2 file.1 (Option.mem_toList.mpr (mem_delivery.mp hfile).1) path
        (Option.mem_toList.mpr hpath)
  have hfour := hthree.trans hfourth
  have hfiles : (delivery request.diagnostics (utf8 log.text) ++
      delivery request.output report).map (·.1) =
        request.diagnostics.toList ++ request.output.toList := by
    rw [List.map_append, map_fst_delivery, map_fst_delivery]
  have hfilesApart : ∀ file ∈ delivery request.diagnostics (utf8 log.text) ++
      delivery request.output report, ∀ path ∈ request.json, session.tree.Apart file.1 path := by
    intro file hfile path hpath
    refine hapart.2.2 file.1 ?_ path (Option.mem_toList.mpr hpath)
    rw [← hfiles]
    exact List.mem_map_of_mem hfile
  have hcreatable : ∀ path ∈ request.json, fourth.tree.Creatable path := fun path hpath =>
    hfour.placed.creatable (hjson path hpath) fun file hfile => hfilesApart file hfile path hpath
  have hready := summaryReady_iff hfour.placed hfiles hfilesApart
  constructor
  · intro h
    obtain ⟨final, hsummary, hfinal⟩ :=
      deliverSummary_of_directories hcreatable hfourth.formed scene (hready.mp h)
    refine ⟨final, ?_, by simpa using hfour.trans hfinal⟩
    exact bind_eq_ok.mpr ⟨_, first, hobtain, bind_eq_ok.mpr ⟨(), second, hflush,
      bind_eq_ok.mpr ⟨(), third, hannounce, bind_eq_ok.mpr ⟨(), fourth, hdeliver,
        bind_eq_ok.mpr ⟨(), final, hsummary, rfl⟩⟩⟩⟩⟩
  · intro h
    rw [hready] at h
    push Not at h
    obtain ⟨path, hpath, place, hplace, hnone⟩ := h
    have hsummary := deliverSummary_of_missing hcreatable scene hpath
      fun hall => hnone (hall place hplace)
    refine ⟨path, hpath, fourth, ?_, hfour⟩
    exact bind_eq_error.mpr (.inr ⟨_, first, hobtain, bind_eq_error.mpr (.inr ⟨(), second, hflush,
      bind_eq_error.mpr (.inr ⟨(), third, hannounce, bind_eq_error.mpr (.inr ⟨(), fourth, hdeliver,
        bind_eq_error.mpr (.inl hsummary)⟩)⟩)⟩)⟩)

/-- A set that announces some sectors. Only one is stored, without name or vertices, so that it is
noted as degenerate. -/
def deskSet (sectors : UInt8) : Bytes :=
  [0, 0, 0, 0, 0, 0, 0, 0, sectors, 0, 0, 0, 0, 0, 0, 0, 0, 0, 0, 0, 0, 0, 0, 0, 1, 0, 0x10, 0, 0,
    0, 0, 0, 0, 0, 0, 0x80, 0x7f]

/-- A working directory with this set. -/
def desk (sectors : UInt8) : Session where
  tree := ⟨["home"], [(["home"], .directory), (["home", "a.set"], .file (deskSet sectors))]⟩
  output := []
  messages := ""
  calls := []

/-- What is noted about the sector. -/
def deskNotes : Log :=
  ⟨[⟨"degenerate", 12, "sector '' with 0 vertex(es) has no usable normal; using zero vector"⟩]⟩

/-- The second sector is missing. What was noted about the first one is written, in a directory that
is made for it, but neither report nor summary is. -/
theorem run_fails_desk :
    let line := ["a.set", "--diagnostics", "d/notes", "--output", "o", "--json", "j"]
    let request : Request := ⟨"a.set", none, some (Path.ofText "o"), some (Path.ofText "j"),
      some (Path.ofText "d/notes"), ⟨false, false⟩, false⟩
    (desk 2).tree.WellFormed ∧ Makes line request ∧ request.Plain ∧
      (∀ path ∈ request.diagnostics, (desk 2).tree.Creatable path) ∧
      request.Fails (desk 2).tree (.fault (.truncated 37 4 37 "int32")) deskNotes ∧
      ∃ final, run line (desk 2) = .ok 1 final ∧ final.output = [] ∧
        final.tree.file? ["home", "o"] = none ∧
        Action.read (Path.ofText "d/notes") final.tree = .ok (utf8
          ("#0001 offset=0x000C kind=degenerate       sector '' with 0 vertex(es) has no usable " ++
            "normal; using zero vector\n")) final.tree := by
  intro line request
  have hformed : (desk 2).tree.WellFormed := .of_nodes (by decide) (by decide)
  have hmakes : Makes line request := ⟨⟨[("--json", ["j"]), ("--output", ["o"]),
    ("--diagnostics", ["d/notes"])], [["a.set"], []]⟩, by decide, rfl⟩
  have hplain : request.Plain := ⟨by decide, nofun⟩
  have hcreatable : ∀ path ∈ request.diagnostics, (desk 2).tree.Creatable path := by
    rintro _ ⟨⟩
    have hvalue : value? (Action.create (Path.ofText "d/notes") [] (desk 2).tree) = some () := by
      decide +kernel
    exact (Action.create_eq_ok hformed).mp ⟨_, eq_ok_of_value? hvalue⟩
  have hfails : request.Fails (desk 2).tree (.fault (.truncated 37 4 37 "int32")) deskNotes := by
    have hload := eq_ok_of_value? (show value? (Source.load request.name none (desk 2).tree) =
      some (deskSet 2) by decide +kernel)
    rw [Source.endState_load] at hload
    exact .data (.none rfl) hload (by decide +kernel)
  obtain ⟨final, hrun, houtput, hothers, hread⟩ :=
    run_fails hformed hmakes hplain hcreatable hfails
  refine ⟨hformed, hmakes, hplain, hcreatable, hfails, final, hrun, houtput, ?_, ?_⟩
  · refine hothers _ ?_
    rintro _ ⟨⟩
    decide
  · exact (hread _ rfl).1

/-- If a request yields a scene, and its destinations can be created and do not meet, then the report
is written to its file or to the output stream, and the notes are written. The summary is written
too, and the exit code is 0, unless a directory above it is missing that is not made for one of the
others. In that case the run ends with an error. -/
theorem run_delivers {line : List String} (hformed : session.tree.WellFormed)
    (hmakes : Makes line request) (hyields : request.Yields session.tree scene log)
    (hpaths : ∀ path ∈ request.destinations, session.tree.Creatable path)
    (hapart : request.destinations.Pairwise session.tree.Apart) :
    ∃ report final, Latin.encode? (Report.scene request.trueCounts scene) = some report ∧
      final.output = session.output ++ (if request.output = none then report else []) ∧
      (∀ path ∈ request.output, Action.read path final.tree = .ok report final.tree) ∧
      (∀ path ∈ request.diagnostics,
        Action.read path final.tree = .ok (utf8 log.text) final.tree) ∧
      (request.SummaryReady session.tree → run line session = .ok 0 final ∧
        ∀ path ∈ request.json,
          Action.read path final.tree = .ok (request.summary scene) final.tree) ∧
      (¬ request.SummaryReady session.tree → ∃ path ∈ request.json,
        run line session = .error (.files ⟨.notFound, path⟩) final) := by
  obtain ⟨archive, data, -, -, hread⟩ := hyields.source
  obtain ⟨report, hreport⟩ := Report.encode?_scene_of_read (congrArg Prod.fst hread)
    request.trueCounts
  obtain ⟨hall, hstops⟩ := tool_of_yields hformed hyields hreport hpaths hapart
  have hfiles : (delivery request.diagnostics (utf8 log.text) ++ delivery request.output report ++
      delivery request.json (request.summary scene)).Pairwise
        fun file other => session.tree.Apart file.1 other.1 := by
    refine List.pairwise_map.mp ?_
    rw [List.map_append, List.map_append, map_fst_delivery, map_fst_delivery, map_fst_delivery]
    exact hapart
  rw [run_eq_tool hmakes]
  by_cases hready : request.SummaryReady session.tree
  · obtain ⟨final, htool, hwrote⟩ := hall hready
    refine ⟨report, final, hreport, hwrote.output, fun path hpath => ?_, fun path hpath => ?_,
      fun _ => ⟨htool, fun path hpath => ?_⟩, fun hnot => absurd hready hnot⟩
    · exact hwrote.read hfiles
        (List.mem_append_left _ (List.mem_append_right _ (delivered hpath _)))
    · exact hwrote.read hfiles
        (List.mem_append_left _ (List.mem_append_left _ (delivered hpath _)))
    · exact hwrote.read hfiles (List.mem_append_right _ (delivered hpath _))
  · obtain ⟨json, hjson, final, htool, hwrote⟩ := hstops hready
    have htwo := (List.pairwise_append.mp hfiles).1
    refine ⟨report, final, hreport, hwrote.output, fun path hpath => ?_, fun path hpath => ?_,
      fun h => absurd h hready, fun _ => ⟨json, hjson, htool⟩⟩
    · exact hwrote.read htwo (List.mem_append_right _ (delivered hpath _))
    · exact hwrote.read htwo (List.mem_append_left _ (delivered hpath _))

/-- The scene that is read from the set if it announces just the one sector. -/
def deskScene : Scene :=
  ⟨[], [], [⟨12, "", 0, 0x1000, true, .infinite false, [], .zero⟩], 0, 0, 1, 37, "", []⟩

theorem yields_desk (hname : request.name = "a.set") (harchive : request.archive = none)
    (hoptions : request.options = ⟨false, false⟩) :
    request.Yields (desk 1).tree deskScene deskNotes := by
  have hload := eq_ok_of_value? (show value? (Source.load "a.set" none (desk 1).tree) =
    some (deskSet 1) by decide +kernel)
  rw [Source.endState_load] at hload
  refine ⟨none, deskSet 1, .none harchive, ?_, ?_⟩
  · rw [hname]
    exact hload
  · rw [hoptions]
    decide +kernel

theorem creatable_desk {path : Path}
    (h : value? (Action.create path [] (desk 1).tree) = some ()) : (desk 1).tree.Creatable path :=
  (Action.create_eq_ok (.of_nodes (by decide) (by decide))).mp ⟨_, eq_ok_of_value? h⟩

/-- All three files are written. The directory of the summary is made for the report. -/
theorem run_delivers_desk :
    let line := ["a.set", "--output", "out/r", "--json", "out/j", "--diagnostics", "d"]
    let request : Request := ⟨"a.set", none, some (Path.ofText "out/r"),
      some (Path.ofText "out/j"), some (Path.ofText "d"), ⟨false, false⟩, false⟩
    (desk 1).tree.WellFormed ∧ Makes line request ∧
      request.Yields (desk 1).tree deskScene deskNotes ∧
      (∀ path ∈ request.destinations, (desk 1).tree.Creatable path) ∧
      request.destinations.Pairwise (desk 1).tree.Apart ∧ request.SummaryReady (desk 1).tree ∧
      ∃ report final, Latin.encode? (Report.scene false deskScene) = some report ∧
        run line (desk 1) = .ok 0 final ∧ final.output = [] ∧
        Action.read (Path.ofText "out/r") final.tree = .ok report final.tree ∧
        Action.read (Path.ofText "out/j") final.tree =
          .ok (request.summary deskScene) final.tree ∧
        Action.read (Path.ofText "d") final.tree = .ok (utf8 deskNotes.text) final.tree := by
  intro line request
  have hformed : (desk 1).tree.WellFormed := .of_nodes (by decide) (by decide)
  have hmakes : Makes line request := ⟨⟨[("--diagnostics", ["d"]), ("--json", ["out/j"]),
    ("--output", ["out/r"])], [["a.set"], []]⟩, by decide, rfl⟩
  have hyields : request.Yields (desk 1).tree deskScene deskNotes := yields_desk rfl rfl rfl
  have hcreatable : ∀ path ∈ request.destinations, (desk 1).tree.Creatable path := by
    show ∀ path ∈ [Path.ofText "d", Path.ofText "out/r", Path.ofText "out/j"], _
    simp only [List.forall_mem_cons]
    exact ⟨creatable_desk (by decide +kernel), creatable_desk (by decide +kernel),
      creatable_desk (by decide +kernel), nofun⟩
  have hapart : request.destinations.Pairwise (desk 1).tree.Apart := by
    show [Path.ofText "d", Path.ofText "out/r", Path.ofText "out/j"].Pairwise _
    simp only [List.pairwise_cons, List.forall_mem_cons]
    exact ⟨⟨⟨by decide, by decide, by decide⟩, ⟨by decide, by decide, by decide⟩, nofun⟩,
      ⟨⟨by decide, by decide, by decide⟩, nofun⟩, nofun, .nil⟩
  have hready : request.SummaryReady (desk 1).tree := by
    rintro _ ⟨⟩
    decide
  obtain ⟨report, final, hreport, houtput, hfile, hnotes, hall, -⟩ :=
    run_delivers hformed hmakes hyields hcreatable hapart
  obtain ⟨hrun, hsummary⟩ := hall hready
  exact ⟨hformed, hmakes, hyields, hcreatable, hapart, hready, report, final, hreport, hrun,
    houtput, hfile _ rfl, hsummary _ rfl, hnotes _ rfl⟩

/-- A summary alone is not written if its directory is missing, although it could be created. -/
theorem run_stops :
    let line := ["a.set", "--json", "new/j"]
    let request : Request := ⟨"a.set", none, none, some (Path.ofText "new/j"), none,
      ⟨false, false⟩, false⟩
    Makes line request ∧ request.Yields (desk 1).tree deskScene deskNotes ∧
      (desk 1).tree.Creatable (Path.ofText "new/j") ∧
      ∃ final, run line (desk 1) = .error (.files ⟨.notFound, Path.ofText "new/j"⟩) final := by
  intro line request
  have hmakes : Makes line request := ⟨⟨[("--json", ["new/j"])], [["a.set"], []]⟩, by decide, rfl⟩
  have hyields : request.Yields (desk 1).tree deskScene deskNotes := yields_desk rfl rfl rfl
  have hcreatable : (desk 1).tree.Creatable (Path.ofText "new/j") :=
    creatable_desk (by decide +kernel)
  have hmissing : ¬ request.SummaryReady (desk 1).tree := by
    intro h
    have hnew := h _ rfl ["home", "new"] (by decide)
    revert hnew
    decide
  obtain ⟨archive, data, -, -, hread⟩ := hyields.source
  obtain ⟨report, hreport⟩ := Report.encode?_scene_of_read (congrArg Prod.fst hread) false
  obtain ⟨-, hstops⟩ := tool_of_yields (.of_nodes (by decide) (by decide)) hyields hreport
    (List.forall_mem_singleton.mpr hcreatable) (List.pairwise_singleton _ _)
  obtain ⟨_, ⟨⟩, final, htool, -⟩ := hstops hmissing
  exact ⟨hmakes, hyields, hcreatable, final, by rw [run_eq_tool hmakes, htool]⟩

end Command.Convert

end SceneSet
