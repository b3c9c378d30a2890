import SceneSet.Proofs.Command.Extraction
import SceneSet.Proofs.Command.Lines
import SceneSet.Proofs.Files.Obstacles

/-!
# Members of archives and copies of them

A set can be converted as a member of an archive, from a file with the same content, or from the copy
that is extracted from the archive. What is seen of a conversion depends only on the content, the
settings, and whether the file for the notes can be created (`Settings.outcome_of_creatable` and
`Settings.outcome_of_not_creatable`). So the three ways agree, unless the copy is in the way of the
notes (`outcome_agrees`).
-/

namespace SceneSet

open Files (Path Tree Action)

/-- A session that begins with some files. -/
def Session.start (tree : Tree) : Session := ⟨tree, [], "", []⟩

/-- One file is put just where it can be created. -/
theorem Files.Tree.PlacedAll.of_singleton {path : Path} {content : Bytes} {before after : Tree}
    (h : Tree.PlacedAll [(path, content)] before after) :
    before.Creatable path ∧ Tree.Placed path content before after := by
  cases h with
  | cons hcreatable hplaced hnone =>
      cases hnone
      exact ⟨hcreatable, hplaced⟩

/-- What is read for a name is the data of the member that is found. -/
theorem Archive.read?_of_find? {archive : Archive} {name : String} {entry : Entry}
    (h : archive.find? name = some entry) : archive.read? name = some (archive.dataOf entry) := by
  rw [read?, h]
  rfl

namespace Source

/-- An archive is opened just if its file holds one. -/
theorem openArchive_eq_ok {path : Path} {archive : Archive} {tree : Tree} :
    openArchive path tree = .ok archive tree ↔
      ∃ data, tree.Holds path data ∧ Archive.read path.text data = .ok archive := by
  constructor
  · intro h
    obtain ⟨data, middle, hread, hparse⟩ := bind_eq_ok.mp h
    obtain ⟨rfl, hholds⟩ := Action.read_eq_ok.mp (ofAction_eq_ok.mp hread)
    refine ⟨data, hholds, ?_⟩
    cases hrun : Archive.read path.text data with
    | ok other =>
        rw [hrun] at hparse
        cases hparse
        rfl
    | error defect =>
        rw [hrun] at hparse
        cases hparse
  · rintro ⟨data, hholds, hrun⟩
    refine bind_eq_ok.mpr ⟨data, tree, ofAction_eq_ok.mpr (Action.read_eq_ok.mpr ⟨rfl, hholds⟩), ?_⟩
    rw [hrun]
    rfl

/-- A file that is there is loaded if there is no archive. -/
theorem load_of_holds {name : String} {data : Bytes} {tree : Tree}
    (h : tree.Holds (Path.ofText name) data) : load name none tree = .ok data tree := by
  unfold load
  rw [Option.bind_none]
  dsimp only
  rw [Action.read_eq_ok.mpr ⟨rfl, h⟩]

end Source

namespace Command

namespace Members

/-- A command line makes a request. -/
def Makes (line : List String) (request : Request) : Prop :=
  ∃ arguments, grammar.parse line = .ok arguments ∧ Request.ofArguments arguments = request

variable {request : Request} {archive : Archive} {member : String} {entry : Entry} {code : Nat}
  {session final : Session}

theorem run_eq_tool {line : List String} (h : Makes line request) : run line = tool request := by
  obtain ⟨arguments, hparse, rfl⟩ := h
  unfold run Command.run
  rw [hparse]

/-- What is known when a single member has been extracted. -/
theorem placed_of_tool (hformed : session.tree.WellFormed)
    (hopen : Source.openArchive request.archive session.tree = .ok archive session.tree)
    (hextract : request.extract = [member]) (hfind : archive.find? member = some entry)
    (hrun : tool request session = .ok code final) :
    session.tree.Creatable (destination request.directory entry) ∧
      Tree.Placed (destination request.directory entry) (archive.dataOf entry) session.tree
        final.tree ∧ final.tree.WellFormed := by
  rw [tool_of_extract (by rw [hextract]; exact List.cons_ne_nil _ _) hopen, hextract] at hrun
  obtain ⟨_, told, hsay, hrest⟩ := bind_eq_ok.mp hrun
  obtain ⟨_, copied, hcopies, hcode⟩ := bind_eq_ok.mp hrest
  obtain ⟨_, first, hcopy, hothers⟩ := bind_eq_ok.mp hcopies
  obtain ⟨_, second, hnone, hpure⟩ := bind_eq_ok.mp hothers
  cases hsay
  cases hcode
  cases hnone
  cases hpure
  -- the line that is said first does not count, and there is one copy, since the name is found
  obtain ⟨-, hafter, -, hplaced, -⟩ := extractMember_ok (by exact hformed) hcopy
  rw [hfind] at hplaced
  have hcopies : copies archive request.directory (some entry).toList =
      [(destination request.directory entry, archive.dataOf entry)] := rfl
  rw [hcopies] at hplaced
  exact ⟨hplaced.of_singleton.1, hplaced.of_singleton.2, hafter⟩

end Members

namespace Convert

open Word (IsOperand)

/-- What is seen of a run: its exit code, unless it is ended by a problem that is not reported, what
it writes to the output stream, and what the file for the notes holds in the end. -/
structure Outcome where
  code : Option Nat
  output : Bytes
  notes : Option Bytes
  deriving DecidableEq

variable {settings : Settings} {operands : List String} {tree : Tree} {data : Bytes}
  {session final : Session}

/-- A run that has written nothing has the files that it has begun with. -/
theorem Wrote.tree_eq {before after : Session} (h : Wrote [] [] before after) :
    after.tree = before.tree := by
  have hplaced := h.placed
  generalize before.tree = first at hplaced
  generalize after.tree = last at hplaced
  cases hplaced
  rfl

theorem pairwise_toList {α : Type} (relation : α → α → Prop) (value : Option α) :
    value.toList.Pairwise relation := by
  cases value with
  | none => exact .nil
  | some value => exact List.pairwise_singleton relation value

/-- If the file for the notes cannot be created, then the attempt ends a run. -/
theorem flush_of_not_creatable {path : Path} (hformed : session.tree.WellFormed)
    (hpath : ¬ session.tree.Creatable path) (log : Log) :
    ∃ problem after, Tool.flush log (some path) session = .error problem after ∧
      after.output = session.output ∧
      Tree.Evolves (fun _ _ => False) session.tree after.tree := by
  obtain ⟨failure, made, hcreate, hevolves⟩ :=
    Action.create_of_not_creatable hformed hpath (utf8 log.text)
  exact ⟨_, { session with tree := made }, Tool.ofLoader_eq_error.mpr
    ⟨made, Source.ofAction_eq_error.mpr ⟨failure, hcreate, rfl⟩, rfl⟩, rfl, hevolves⟩

/-- When a set has been read, whether it is one or not, the notes are what is written first. -/
theorem tool_eq_flush {request : Request} {archive : Option Archive}
    (hformed : session.tree.WellFormed) (hopens : request.Opens session.tree archive)
    (hload : Source.load request.name archive session.tree = .ok data session.tree) :
    ∃ log middle rest, tool request session =
      (Tool.flush log request.diagnostics >>= fun _ => rest : Tool Nat) middle ∧
      Wrote [] [] session middle := by
  obtain ⟨result, log, hread⟩ := Scene.exists_read request.options .empty data
  cases result with
  | error fault =>
      obtain ⟨first, hobtain, hfirst⟩ := obtain_of_fails hformed (.data hopens hload hread)
      obtain ⟨second, hreport, hsecond⟩ : ∃ second,
          Tool.report (.fault fault) (wording (.fault fault)) first = .ok () second ∧
            Wrote [] [] first second := ⟨_, rfl, .messages hfirst.formed _⟩
      exact ⟨log, second, Tool.giveUp (.fault fault),
        (bind_of_ok hobtain).trans (bind_of_ok hreport), hfirst.trans hsecond⟩
  | ok scene =>
      obtain ⟨first, hobtain, hfirst⟩ :=
        obtain_of_yields hformed ⟨archive, data, hopens, hload, hread⟩
      exact ⟨log, first, _, bind_of_ok hobtain, hfirst⟩

namespace Settings

/-- What is seen of a conversion with some operands. -/
def outcome (settings : Settings) (operands : List String) (tree : Tree) : Outcome :=
  let result := run (settings.words ++ operands) (.start tree)
  { code := value? result
    output := (endState result).output
    notes := settings.destination.bind fun path =>
      value? (Action.read path (endState result).tree) }

/-- What is to be seen of a conversion of some data. -/
def shown (settings : Settings) (data : Bytes) : Outcome :=
  let (result, log) := Scene.read ⟨settings.strict, settings.legacyNormal⟩ (some .empty) data
  let notes := settings.destination.map fun _ => utf8 (log.getD .empty).text
  match result with
  | .ok scene =>
      ⟨some 0, (Latin.encode? (Report.scene settings.trueCounts scene)).getD [], notes⟩
  | .error _ => ⟨some 1, [], notes⟩

/-- Some operands lead to some data. -/
structure Reads (settings : Settings) (operands : List String) (tree : Tree) (data : Bytes) :
    Prop where
  source : ∃ name path archive, Makes (settings.words ++ operands) (settings.request name path) ∧
    (settings.request name path).Opens tree archive ∧
    Source.load name archive tree = .ok data tree

/-- A member of an archive is read. -/
theorem Reads.member (settings : Settings) {source member : String} {archive : Archive}
    {entry : Entry} (hsource : IsOperand source) (hmember : IsOperand member) (hne : member ≠ "")
    (hopen : Source.openArchive (Path.ofText source) tree = .ok archive tree)
    (hfind : archive.find? member = some entry) :
    settings.Reads [source, member] tree (archive.dataOf entry) := by
  refine ⟨_, _, some archive, settings.makes_member hsource hmember hne, .some rfl hopen, ?_⟩
  unfold Source.load
  rw [Option.bind_some, Archive.read?_of_find? hfind]
  rfl

/-- A file is read. -/
theorem Reads.file (settings : Settings) {file : String} (hfile : IsOperand file)
    (hholds : tree.Holds (Path.ofText file) data) : settings.Reads [file] tree data :=
  ⟨_, _, none, settings.makes_file hfile, .none rfl, Source.load_of_holds hholds⟩

/-- Only the notes are written to a file. -/
theorem destinations_request (settings : Settings) (name : String) (source : Option Path) :
    (settings.request name source).destinations = settings.destination.toList := by
  simp [Request.destinations, request]

/-- What is seen if a run ends normally. -/
theorem outcome_of_wrote {code : Nat} {output notes : Bytes}
    (hrun : run (settings.words ++ operands) (.start tree) = .ok code final)
    (hwrote : Wrote (delivery settings.destination notes) output (.start tree) final) :
    settings.outcome operands tree = ⟨some code, output, settings.destination.map fun _ => notes⟩ := by
  have hnotes : (settings.destination.bind fun path => value? (Action.read path final.tree)) =
      settings.destination.map fun _ => notes := by
    cases hpath : settings.destination with
    | none => rfl
    | some path =>
        have hread := hwrote.read (List.pairwise_map.mpr (pairwise_toList _ _))
          (delivered hpath notes)
        rw [Option.bind_some, hread]
        rfl
  have houtput : final.output = output := hwrote.output
  unfold outcome
  rw [hrun]
  show Outcome.mk (some code) final.output _ = _
  rw [houtput]
  exact congrArg _ hnotes

/-- What is seen of a conversion if the file for the notes can be created. -/
theorem outcome_of_creatable (h : settings.Reads operands tree data) (hformed : tree.WellFormed)
    (hpath : ∀ path ∈ settings.destination, tree.Creatable path) :
    settings.outcome operands tree = settings.shown data := by
  obtain ⟨name, source, archive, hmakes, hopens, hload⟩ := h.source
  have hrun := congrFun (run_eq_tool hmakes) (.start tree)
  have hstart : (Session.start tree).tree.WellFormed := hformed
  obtain ⟨result, log, hread⟩ :=
    Scene.exists_read ⟨settings.strict, settings.legacyNormal⟩ .empty data
  unfold shown
  rw [hread]
  cases result with
  | error fault =>
      have hfails : (settings.request name source).Fails tree (.fault fault) log :=
        .data hopens hload hread
      obtain ⟨final, htool, hwrote⟩ := tool_of_reported hstart rfl hpath hfails
      exact outcome_of_wrote (hrun.trans htool) hwrote
  | ok scene =>
      have hyields : (settings.request name source).Yields tree scene log :=
        ⟨archive, data, hopens, hload, hread⟩
      obtain ⟨report, hreport⟩ :=
        Report.encode?_scene_of_read (congrArg Prod.fst hread) settings.trueCounts
      have hpaths : ∀ path ∈ (settings.request name source).destinations,
          (Session.start tree).tree.Creatable path := by
        rw [destinations_request]
        exact fun path hmem => hpath path (Option.mem_toList.mp hmem)
      have hapart : (settings.request name source).destinations.Pairwise
          (Session.start tree).tree.Apart := by
        rw [destinations_request]
        exact pairwise_toList _ _
      obtain ⟨hready, -⟩ := tool_of_yields hstart hyields hreport hpaths hapart
      obtain ⟨final, htool, hwrote⟩ := hready (Request.summaryReady_of_none rfl)
      dsimp only
      rw [hreport]
      -- neither a report nor a summary is among the files
      have hfiles : delivery settings.destination (utf8 log.text) ++ [] ++ [] =
          delivery settings.destination (utf8 log.text) := by simp
      exact outcome_of_wrote (hrun.trans htool) (hfiles ▸ hwrote)

/-- What is seen of a run that is ended by a problem before anything is written. -/
theorem outcome_of_error {problem : Problem} {path : Path}
    (hrun : run (settings.words ++ operands) (.start tree) = .error problem final)
    (hdestination : settings.destination = some path) (hpath : ¬ tree.Creatable path)
    (houtput : final.output = []) (hevolves : Tree.Evolves (fun _ _ => False) tree final.tree) :
    settings.outcome operands tree = ⟨none, [], none⟩ := by
  have hnotes : value? (Action.read path final.tree) = none := by
    cases hread : Action.read path final.tree with
    | error failure after => rfl
    | ok content after => exact absurd (Action.read_eq_ok.mp hread).2 (hevolves.not_holds hpath)
  unfold outcome
  rw [hrun, hdestination]
  show Outcome.mk none final.output (value? (Action.read path final.tree)) = _
  rw [houtput, hnotes]

/-- What is seen of a conversion if the file for the notes cannot be created. -/
theorem outcome_of_not_creatable {path : Path} (h : settings.Reads operands tree data)
    (hformed : tree.WellFormed) (hdestination : settings.destination = some path)
    (hpath : ¬ tree.Creatable path) : settings.outcome operands tree = ⟨none, [], none⟩ := by
  obtain ⟨name, source, archive, hmakes, hopens, hload⟩ := h.source
  have hstart : (Session.start tree).tree.WellFormed := hformed
  obtain ⟨log, middle, rest, htool, hwrote⟩ := tool_eq_flush hstart hopens hload
  have hdiagnostics : (settings.request name source).diagnostics = some path := hdestination
  have htree : middle.tree = tree := hwrote.tree_eq
  obtain ⟨problem, final, hflush, houtput, hevolves⟩ :=
    flush_of_not_creatable hwrote.formed (by rw [htree]; exact hpath) log
  have hrun : run (settings.words ++ operands) (.start tree) = .error problem final := by
    rw [run_eq_tool hmakes, htool, hdiagnostics]
    exact bind_eq_error.mpr (.inl hflush)
  have hnothing : final.output = [] := houtput.trans hwrote.output
  exact outcome_of_error hrun hdestination hpath hnothing (htree ▸ hevolves)

/-- What is seen of two conversions of the same data with the same files is the same. -/
theorem outcome_congr {others : List String} (h : settings.Reads operands tree data)
    (hothers : settings.Reads others tree data) (hformed : tree.WellFormed) :
    settings.outcome operands tree = settings.outcome others tree := by
  by_cases hpath : ∀ path ∈ settings.destination, tree.Creatable path
  · rw [outcome_of_creatable h hformed hpath, outcome_of_creatable hothers hformed hpath]
  · push Not at hpath
    obtain ⟨path, hdestination, hcreatable⟩ := hpath
    rw [outcome_of_not_creatable h hformed hdestination hcreatable,
      outcome_of_not_creatable hothers hformed hdestination hcreatable]

/-- What is to be seen has an exit code. -/
theorem shown_ne (settings : Settings) (data : Bytes) : settings.shown data ≠ ⟨none, [], none⟩ := by
  unfold shown
  dsimp only
  split <;> exact fun h => nomatch congrArg Outcome.code h

/-- What is seen of a conversion is still seen when a file has been put somewhere, just if this file
is not in the way of the notes. -/
theorem outcome_placed_iff {others : List String} {path : Path} {content : Bytes} {after : Tree}
    (h : settings.Reads operands tree data) (hothers : settings.Reads others after data)
    (hformed : tree.WellFormed) (hafter : after.WellFormed) (hpath : tree.Creatable path)
    (hplaced : Tree.Placed path content tree after) :
    settings.outcome operands tree = settings.outcome others after ↔
      ∀ notes ∈ settings.destination, tree.Creatable notes → ¬ tree.Obstructs path notes := by
  cases hdestination : settings.destination with
  | none =>
      -- without notes there is nothing to be in the way of
      have hnone : ∀ tree : Tree, ∀ path ∈ settings.destination, tree.Creatable path := by
        rw [hdestination]
        exact fun _ _ => nofun
      rw [outcome_of_creatable h hformed (hnone tree),
        outcome_of_creatable hothers hafter (hnone after)]
      exact iff_of_true rfl nofun
  | some notes =>
      have hiff : after.Creatable notes ↔ tree.Creatable notes ∧ ¬ tree.Obstructs path notes :=
        hplaced.creatable_iff hpath
      have hall : ∀ {tree : Tree}, tree.Creatable notes →
          ∀ path ∈ settings.destination, tree.Creatable path := by
        rw [hdestination]
        rintro _ hcreatable _ ⟨⟩
        exact hcreatable
      simp only [Option.mem_some_iff, forall_eq']
      by_cases hbefore : tree.Creatable notes
      · -- the notes can be written before, so it counts whether they can be written after
        rw [outcome_of_creatable h hformed (hall hbefore)]
        by_cases hway : tree.Obstructs path notes
        · rw [outcome_of_not_creatable hothers hafter hdestination fun hlater =>
            (hiff.mp hlater).2 hway]
          exact iff_of_false (shown_ne settings data) fun hnot => hnot hbefore hway
        · rw [outcome_of_creatable hothers hafter (hall (hiff.mpr ⟨hbefore, hway⟩))]
          exact iff_of_true rfl fun _ => hway
      · -- what was in the way of the notes before is so after
        rw [outcome_of_not_creatable h hformed hdestination hbefore,
          outcome_of_not_creatable hothers hafter hdestination fun hlater =>
            hbefore (hiff.mp hlater).1]
        exact iff_of_true rfl fun hcreatable => absurd hcreatable hbefore

end Settings

/-- A member of an archive is converted like a file with the content that is read for its name. It is
also converted like the copy that is extracted from the archive, just if the copy is not where the
notes need a directory, and its own directories not where the notes should be; and if this is tried
after the extraction, then always, unless the copy has replaced the archive. -/
theorem outcome_agrees (settings : Settings) {tree : Tree} {source member : String}
    {archive : Archive} {entry : Entry} (hformed : tree.WellFormed) (hsource : IsOperand source)
    (hmember : IsOperand member) (hne : member ≠ "")
    (hopen : Source.openArchive (Path.ofText source) tree = .ok archive tree)
    (hfind : archive.find? member = some entry) :
    archive.read? member = some (archive.dataOf entry) ∧
      (∀ file, IsOperand file → tree.Holds (Path.ofText file) (archive.dataOf entry) →
        settings.outcome [source, member] tree = settings.outcome [file] tree) ∧
      ∀ line request dumped copy, Members.Makes line request →
        request.archive = Path.ofText source → request.extract = [member] →
        Members.run line (.start tree) = .ok 0 dumped → IsOperand copy →
        Path.ofText copy = Members.destination request.directory entry →
        (settings.outcome [source, member] tree = settings.outcome [copy] dumped.tree ↔
          ∀ path ∈ settings.destination, tree.Creatable path →
            ¬ tree.Obstructs (Path.ofText copy) path) ∧
        (tree.target (Path.ofText copy) ≠ tree.target (Path.ofText source) →
          settings.outcome [source, member] dumped.tree =
            settings.outcome [copy] dumped.tree) := by
  have hread : settings.Reads [source, member] tree (archive.dataOf entry) :=
    .member settings hsource hmember hne hopen hfind
  refine ⟨Archive.read?_of_find? hfind, fun file hfile hholds => ?_, ?_⟩
  · exact Settings.outcome_congr hread (.file settings hfile hholds) hformed
  · intro line request dumped copy hmakes harchive hextract hrun hcopy hpath
    rw [Members.run_eq_tool hmakes] at hrun
    obtain ⟨hcreatable, hplaced, hafter⟩ := Members.placed_of_tool
      (by exact hformed) (by rw [harchive]; exact hopen) hextract hfind hrun
    rw [← hpath] at hcreatable hplaced
    have hreadCopy : settings.Reads [copy] dumped.tree (archive.dataOf entry) :=
      .file settings hcopy (hplaced.holds hcreatable.admits)
    refine ⟨Settings.outcome_placed_iff hread hreadCopy hformed hafter hcreatable hplaced,
      fun htarget => ?_⟩
    -- the archive is where it was, so that the member can be read again
    obtain ⟨data, hholds, hparse⟩ := Source.openArchive_eq_ok.mp hopen
    have hlater : Source.openArchive (Path.ofText source) dumped.tree = .ok archive dumped.tree :=
      Source.openArchive_eq_ok.mpr
        ⟨data, hplaced.holds_other hcreatable htarget.symm hholds, hparse⟩
    exact Settings.outcome_congr (.member settings hsource hmember hne hlater hfind) hreadCopy hafter

/-- The files of a directory. -/
def folder (files : List (String × Bytes)) : Tree where
  working := ["home"]
  nodes := (["home"], .directory) :: files.map fun file => (["home", file.1], .file file.2)

/-- An archive with one member. -/
def boxBytes (name : String) (content : Bytes) : Bytes := Archive.pack .grim [⟨name, content⟩]

/-- The archive in which the one sector is stored as the member `B/M`. -/
def box : Archive where
  data := boxBytes "B/M" (deskSet 1)
  entries := [⟨"B/M", 36, 37⟩]
  layout := .grim
  source := "a.lab"

/-- The member is found under another spelling of its name, although there is a file of this name. -/
theorem outcome_agrees_box :
    let settings : Settings := ⟨false, true, false, some "d/notes"⟩
    let tree := folder [("a.lab", box.data), ("b\\m", [0]), ("copy.set", deskSet 1)]
    settings.outcome ["a.lab", "b\\m"] tree = settings.outcome ["copy.set"] tree ∧
      ∃ dumped, Members.run ["a.lab", "--extract", "b\\m", "--out-dir", "out"] (.start tree) =
          .ok 0 dumped ∧
        settings.outcome ["a.lab", "b\\m"] tree = settings.outcome ["out/M"] dumped.tree ∧
        settings.outcome ["a.lab", "b\\m"] dumped.tree = settings.outcome ["out/M"] dumped.tree := by
  intro settings tree
  have hformed : tree.WellFormed := .of_nodes (by decide) (by decide)
  have hopen := eq_ok_of_value? (show value? (Source.openArchive (Path.ofText "a.lab") tree) =
    some box by decide +kernel)
  rw [Source.endState_openArchive] at hopen
  have hfind : box.find? "b\\m" = some ⟨"B/M", 36, 37⟩ := by decide
  obtain ⟨-, hfile, hcopy⟩ := outcome_agrees settings hformed (by decide) (by decide) (by decide)
    hopen hfind
  have hholds := Action.read_eq_ok.mp (eq_ok_of_value?
    (show value? (Action.read (Path.ofText "copy.set") tree) = some (box.dataOf ⟨"B/M", 36, 37⟩) by
      decide +kernel))
  rw [Action.endState_read] at hholds
  have hmakes : Members.Makes ["a.lab", "--extract", "b\\m", "--out-dir", "out"]
      ⟨Path.ofText "a.lab", "*", none, ["b\\m"], Path.ofText "out"⟩ :=
    ⟨⟨[("--out-dir", ["out"]), ("--extract", ["b\\m"])], [["a.lab"]]⟩, by decide, rfl⟩
  have hrun := eq_ok_of_value? (show value? (Members.run
    ["a.lab", "--extract", "b\\m", "--out-dir", "out"] (.start tree)) = some 0 by decide +kernel)
  obtain ⟨hiff, hlater⟩ := hcopy _ _ _ "out/M" hmakes rfl rfl hrun (by decide) (by decide)
  refine ⟨hfile "copy.set" (by decide) hholds.2, _, hrun, hiff.mpr ?_, hlater (by decide)⟩
  rintro _ ⟨⟩ -
  decide

/-- The copy is put where the notes need a directory, so it is not converted, although the member
was. If the copy replaces the archive, and is one in which the name is found, then afterwards the
member of this one is converted, but the copy is not. -/
theorem outcome_disagrees :
    (let settings : Settings := ⟨false, false, false, some "m/notes"⟩
      let tree := folder [("a.lab", boxBytes "m" (deskSet 1))]
      ∃ dumped, Members.run ["a.lab", "--extract", "m"] (.start tree) = .ok 0 dumped ∧
        (settings.outcome ["a.lab", "m"] tree).code = some 0 ∧
        (settings.outcome ["m"] dumped.tree).code = none) ∧
      let settings : Settings := ⟨false, false, false, none⟩
      let tree := folder [("a.lab", boxBytes "a.lab" (boxBytes "a.lab" (deskSet 1)))]
      ∃ dumped, Members.run ["a.lab", "--extract", "a.lab"] (.start tree) = .ok 0 dumped ∧
        (settings.outcome ["a.lab", "a.lab"] dumped.tree).code = some 0 ∧
        (settings.outcome ["a.lab"] dumped.tree).code = some 1 := by
  constructor
  · intro settings tree
    have hrun := eq_ok_of_value? (show value? (Members.run ["a.lab", "--extract", "m"]
      (.start tree)) = some 0 by decide +kernel)
    exact ⟨_, hrun, by decide +kernel, by decide +kernel⟩
  · intro settings tree
    have hrun := eq_ok_of_value? (show value? (Members.run ["a.lab", "--extract", "a.lab"]
      (.start tree)) = some 0 by decide +kernel)
    exact ⟨_, hrun, by decide +kernel, by decide +kernel⟩

end Convert

end Command

end SceneSet
