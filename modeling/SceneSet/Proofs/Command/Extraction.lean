import SceneSet.Proofs.Command.Confinement
import SceneSet.Proofs.Files.Deliveries

/-!
# What extracted files hold

Members are copied one after the other into one directory, each under the last component of its
name. When a run that extracts members ends normally, each copy holds the data of the last member
that was copied to its place (`run_extracts`). So a member is lost, although it was announced, if
another one with the same last component is asked for behind it (`run_overwrites`).
-/

namespace SceneSet

open Files (Path Tree Place Action)

namespace Command.Members

variable {archive : Archive} {directory : Path} {entry other : Entry} {entries : List Entry}
  {before middle after : Tree}

/-! ### Where copies are put -/

theorem destination_eq (directory : Path) (entry : Entry) :
    destination directory entry = directory.child (lastName entry) := rfl

/-- The place of a copy tells the last component of its name. -/
theorem target_destination (tree : Tree) (hup : lastName entry ≠ "..") :
    tree.target (destination directory entry) =
      tree.target directory ++ if lastName entry = "" then [] else [lastName entry] := by
  rw [destination_eq]
  generalize lastName entry = name at hup ⊢
  by_cases hname : name = ""
  · rw [if_pos hname, hname, List.append_nil]
    rfl
  · rw [if_neg hname, Tree.target_child tree directory hname]
    exact if_neg hup

/-- Copies with other destinations are put in other places. -/
theorem target_destination_ne (tree : Tree) (hup : lastName entry ≠ "..")
    (hother : lastName other ≠ "..")
    (h : destination directory other ≠ destination directory entry) :
    tree.target (destination directory other) ≠ tree.target (destination directory entry) := by
  have hname : lastName other ≠ lastName entry := by
    intro hsame
    rw [destination_eq, destination_eq, hsame] at h
    exact h rfl
  intro htarget
  rw [target_destination tree hup, target_destination tree hother] at htarget
  have hsame := congrArg (List.headD · "") (List.append_cancel_left htarget)
  -- the list of no or one component gives the name back
  have hhead : ∀ name : String, (if name = "" then [] else [name]).headD "" = name := by
    intro name
    by_cases hempty : name = ""
    · rw [if_pos hempty, hempty]
      rfl
    · rw [if_neg hempty]
      rfl
  exact hname ((hhead _).symm.trans (hsame.trans (hhead _)))

/-- A copy that is put somewhere is not put in the place of the directory above. -/
theorem lastName_ne_up {content : Bytes} (hformed : after.WellFormed)
    (h : Tree.Placed (destination directory entry) content before after) :
    lastName entry ≠ ".." := by
  intro hup
  rw [destination_eq, hup] at h
  have hfile := h.target
  have hdirectory : after.node? (before.target directory) = some .directory := by
    refine h.above ?_
    rw [Tree.above_child before directory (by decide)]
    exact List.mem_append_right _ List.mem_cons_self
  rw [Tree.target_child before directory (by decide), Tree.step, if_pos rfl,
    hformed.parents hdirectory] at hfile
  cases hfile

/-! ### Copies that are put one after the other -/

/-- Where the copies of some members are put, and what they hold. -/
def copies (archive : Archive) (directory : Path) (entries : List Entry) : List (Path × Bytes) :=
  entries.map fun entry => (destination directory entry, archive.dataOf entry)

/-- Of some members, the last one whose copy is put at a path. -/
def lastCopy? (directory : Path) (entries : List Entry) (path : Path) : Option Entry :=
  entries.reverse.find? fun entry => destination directory entry = path

theorem lastCopy?_eq_some {path : Path} (h : lastCopy? directory entries path = some entry) :
    destination directory entry = path ∧ ∃ front back, entries = front ++ entry :: back ∧
      ∀ other ∈ back, destination directory other ≠ path := by
  obtain ⟨hpath, back, front, hentries, hback⟩ := List.find?_eq_some_iff_append.mp h
  refine ⟨of_decide_eq_true hpath, front.reverse, back.reverse, ?_, fun other hother hsame => ?_⟩
  · rw [← List.reverse_reverse entries, hentries]
    simp
  · have hfalse := hback other (List.mem_reverse.mp hother)
    rw [decide_eq_true hsame] at hfalse
    cases hfalse

/-- The place of a member's copy has a last copy, which is that of a member with this destination. -/
theorem exists_lastCopy (directory : Path) (h : entry ∈ entries) :
    ∃ last ∈ entries, lastCopy? directory entries (destination directory entry) = some last ∧
      destination directory last = destination directory entry := by
  have hsome : (lastCopy? directory entries (destination directory entry)).isSome = true :=
    List.find?_isSome.mpr ⟨entry, List.mem_reverse.mpr h, decide_eq_true rfl⟩
  obtain ⟨last, hlast⟩ := Option.isSome_iff_exists.mp hsome
  obtain ⟨hdestination, front, back, hentries, -⟩ := lastCopy?_eq_some hlast
  refine ⟨last, ?_, hlast, hdestination⟩
  rw [hentries]
  exact List.mem_append_right _ List.mem_cons_self

/-- In the end each path holds the data of the last member that was copied to it. -/
theorem holds_lastCopy {path : Path}
    (h : Tree.PlacedAll (copies archive directory entries) before after)
    (hup : ∀ entry ∈ entries, lastName entry ≠ "..")
    (hlast : lastCopy? directory entries path = some entry) :
    after.Holds path (archive.dataOf entry) := by
  obtain ⟨rfl, front, back, rfl, hback⟩ := lastCopy?_eq_some hlast
  rw [copies, List.map_append, List.map_cons] at h
  refine h.holds_last fun file hfile => ?_
  obtain ⟨other, hother, rfl⟩ := List.mem_map.mp hfile
  rw [List.forall_mem_append, List.forall_mem_cons] at hup
  have hne := target_destination_ne before hup.2.1 (hup.2.2 other hother) (hback other hother)
  dsimp only
  exact hne.symm

/-! ### Runs that extract members -/

/-- What the user is told about a name that is asked for. -/
def announcement (archive : Archive) (directory : Path) (name : String) : String :=
  match archive.find? name with
  | none => "[!] " ++ name ++ " not found in archive"
  | some entry => "[+] Extracted " ++ entry.name ++ " -> " ++ (destination directory entry).text

/-- What the user is told about an archive. -/
def summary (path : Path) (archive : Archive) : String :=
  "[+] " ++ path.text ++ ": " ++ Numeral.text archive.size ++ " member(s), "
    ++ archive.layout.name ++ " layout"

variable {session final : Session} {name : String} {names : List String}

/-- A name that is asked for is announced, and copied if it is found. -/
theorem extractMember_ok {found : Bool} (h : session.tree.WellFormed)
    (hrun : extractMember archive directory name session = .ok found final) :
    found = (archive.find? name).isSome ∧ final.tree.WellFormed ∧
      final.messages = session.messages ++ announcement archive directory name ++ "\n" ∧
      Tree.PlacedAll (copies archive directory (archive.find? name).toList) session.tree
        final.tree ∧ ∀ entry ∈ (archive.find? name).toList, lastName entry ≠ ".." := by
  unfold announcement
  cases hfind : archive.find? name with
  | none =>
      rw [extractMember_of_none hfind] at hrun
      cases hrun
      exact ⟨rfl, h, rfl, .nil _, nofun⟩
  | some entry =>
      rw [extractMember_of_find? hfind] at hrun
      obtain ⟨_, copied, hwrite, hsay⟩ := bind_eq_ok.mp hrun
      obtain ⟨tree, hcreate, rfl⟩ := Tool.writeWithParents_eq_ok.mp hwrite
      obtain ⟨hcreatable, hplaced, hformed⟩ := Action.placed_of_create h hcreate
      cases hsay
      exact ⟨rfl, hformed, rfl, .cons hcreatable hplaced (.nil _),
        List.forall_mem_singleton.mpr (lastName_ne_up hformed hplaced)⟩

/-- All names that are asked for are announced, and copied as far as they are found. -/
theorem extractAll_ok {found : Bool} (h : session.tree.WellFormed)
    (hrun : extractAll archive directory names session = .ok found final) :
    found = names.all (fun name => (archive.find? name).isSome) ∧
      final.messages = session.messages ++
        String.join (names.map fun name => announcement archive directory name ++ "\n") ∧
      Tree.PlacedAll (copies archive directory (names.filterMap archive.find?)) session.tree
        final.tree ∧ ∀ entry ∈ names.filterMap archive.find?, lastName entry ≠ ".." := by
  induction names generalizing session found with
  | nil =>
      cases hrun
      exact ⟨rfl, (String.append_empty).symm, .nil _, nofun⟩
  | cons name rest ih =>
      obtain ⟨first, middle, hfirst, hrest⟩ := bind_eq_ok.mp hrun
      obtain ⟨others, last, hothers, hpure⟩ := bind_eq_ok.mp hrest
      cases hpure
      obtain ⟨rfl, hformed, hmessage, hcopied, hup⟩ := extractMember_ok h hfirst
      obtain ⟨rfl, hmessages, hall, hups⟩ := ih hformed hothers
      have hentries : (name :: rest).filterMap archive.find? =
          (archive.find? name).toList ++ rest.filterMap archive.find? := by
        cases hfind : archive.find? name with
        | none => rw [List.filterMap_cons_none hfind, Option.toList_none, List.nil_append]
        | some entry => rw [List.filterMap_cons_some hfind, Option.toList_some,
            List.singleton_append]
      rw [hentries, copies, List.map_append]
      refine ⟨rfl, ?_, hcopied.append hall, List.forall_mem_append.mpr ⟨hup, hups⟩⟩
      rw [hmessages, hmessage, List.map_cons, String.join_cons]
      simp only [String.append_assoc]

/-- What the tool does when the archive is accepted and members are asked for. -/
theorem tool_of_extract {request : Request} (hextract : request.extract ≠ [])
    (hopen : Source.openArchive request.archive session.tree = .ok archive session.tree) :
    tool request session = (do
      Tool.say (summary request.archive archive)
      let found ← extractAll archive request.directory request.extract
      pure (if found then 0 else 1) : Tool Nat) session := by
  show EStateM.bind (Tool.attempt _) _ session = _
  unfold EStateM.bind Tool.attempt Tool.ofLoader
  rw [hopen]
  dsimp only
  rw [if_neg (by simpa using hextract)]
  rfl

/-- The exit code is 1 just if a name is not found. -/
theorem exitCode_eq (archive : Archive) (names : List String) :
    (if names.all (fun name => (archive.find? name).isSome) then 0 else 1) =
      if ∃ name ∈ names, archive.find? name = none then 1 else 0 := by
  have hfound : names.all (fun name => (archive.find? name).isSome) = true ↔
      ¬ ∃ name ∈ names, archive.find? name = none := by
    simp [Option.isSome_iff_ne_none]
  by_cases hmissing : ∃ name ∈ names, archive.find? name = none
  · rw [if_pos hmissing]
    exact if_neg fun h => hfound.mp h hmissing
  · rw [if_neg hmissing]
    exact if_pos (hfound.mpr hmissing)

/-- When a run that extracts members ends normally, its exit code is 1 just if a name that is asked
for is not found, each name is announced, and each copy holds the data of the last member that was
copied to its place. So it holds the data that is read for the name, unless another member that is
asked for has the same destination and other data. -/
theorem run_extracts {line : List String} {arguments : Arguments} {code : Nat}
    (hformed : session.tree.WellFormed) (hparse : grammar.parse line = .ok arguments)
    (hextract : (Request.ofArguments arguments).extract ≠ [])
    (hopen : Source.openArchive (Request.ofArguments arguments).archive session.tree =
      .ok archive session.tree)
    (hrun : run line session = .ok code final) :
    let request := Request.ofArguments arguments
    code = (if ∃ name ∈ request.extract, archive.find? name = none then 1 else 0) ∧
      final.messages = session.messages ++ summary request.archive archive ++ "\n" ++
        String.join (request.extract.map fun name =>
          announcement archive request.directory name ++ "\n") ∧
      ∀ name ∈ request.extract, ∀ entry, archive.find? name = some entry →
        ∃ last, lastCopy? request.directory (request.extract.filterMap archive.find?)
            (destination request.directory entry) = some last ∧
          Action.read (destination request.directory entry) final.tree =
            .ok (archive.dataOf last) final.tree ∧
          ((∀ rival ∈ request.extract, ∀ other, archive.find? rival = some other →
              destination request.directory other = destination request.directory entry →
              archive.read? rival = archive.read? name) →
            archive.read? name = some (archive.dataOf last)) := by
  intro request
  have htool : tool request session = .ok code final := by
    unfold run Command.run at hrun
    rw [hparse] at hrun
    exact hrun
  rw [tool_of_extract hextract hopen] at htool
  obtain ⟨_, told, hsay, hrest⟩ := bind_eq_ok.mp htool
  obtain ⟨found, copied, hcopy, hcode⟩ := bind_eq_ok.mp hrest
  cases hsay
  cases hcode
  obtain ⟨rfl, hmessages, hall, hup⟩ := extractAll_ok (by exact hformed) hcopy
  refine ⟨exitCode_eq archive request.extract, ?_, fun name hname entry hentry => ?_⟩
  · rw [hmessages]
  · have hmem : entry ∈ request.extract.filterMap archive.find? :=
      List.mem_filterMap.mpr ⟨name, hname, hentry⟩
    obtain ⟨last, hlastMem, hlast, hdestination⟩ := exists_lastCopy request.directory hmem
    refine ⟨last, hlast, Action.read_eq_ok.mpr ⟨rfl, holds_lastCopy hall hup hlast⟩,
      fun hrivals => ?_⟩
    obtain ⟨rival, hrival, hother⟩ := List.mem_filterMap.mp hlastMem
    rw [← hrivals rival hrival last hother hdestination, Archive.read?, hother]
    rfl

/-- Four members. The names of three of them end alike but for the case of a letter. -/
def shelfBytes : Bytes :=
  Archive.pack .emi [⟨"a/x", [1]⟩, ⟨"b\\y", [2]⟩, ⟨"c/X", [3]⟩, ⟨"b/x", [4]⟩]

/-- The archive of the four members. -/
def shelfArchive : Archive where
  data := shelfBytes
  entries := [⟨"a/x", 100, 1⟩, ⟨"b\\y", 101, 1⟩, ⟨"c/X", 102, 1⟩, ⟨"b/x", 103, 1⟩]
  layout := .emi
  source := "a.lab"

/-- A working directory with this archive. -/
def shelf : Session where
  tree := ⟨["home"], [(["home"], .directory), (["home", "a.lab"], .file shelfBytes)]⟩
  output := []
  messages := ""
  calls := []

/-- Arguments that ask for two members, and for a name that no member has. -/
def shelfArguments : Arguments where
  options := [("--out-dir", ["new/out"]), ("--extract", ["A\\X", "z", "C/x"])]
  operands := [["a.lab"]]

theorem openArchive_shelf :
    Source.openArchive (Path.ofText "a.lab") shelf.tree = .ok shelfArchive shelf.tree := by
  have hvalue : value? (Source.openArchive (Path.ofText "a.lab") shelf.tree) =
      some shelfArchive := by decide +kernel
  have hopen := eq_ok_of_value? hvalue
  rwa [Source.endState_openArchive] at hopen

/-- One name is not found. The copy of `a/x` stays as it is when `c/X` is copied beside it. -/
theorem run_extracts_shelf :
    let line := ["a.lab", "--extract", "A\\X", "z", "C/x", "--out-dir", "new/out"]
    shelf.tree.WellFormed ∧ grammar.parse line = .ok shelfArguments ∧
      (Request.ofArguments shelfArguments).extract ≠ [] ∧
      Source.openArchive (Request.ofArguments shelfArguments).archive shelf.tree =
        .ok shelfArchive shelf.tree ∧
      ∃ final, run line shelf = .ok 1 final ∧
        Action.read (Path.ofText "new/out/x") final.tree = .ok [1] final.tree := by
  intro line
  have hformed : shelf.tree.WellFormed := .of_nodes (by decide) (by decide)
  have hparse : grammar.parse line = .ok shelfArguments := by decide
  have hextract : (Request.ofArguments shelfArguments).extract ≠ [] := by decide
  have hrun := eq_ok_of_value? (show value? (run line shelf) = some 1 by decide +kernel)
  obtain ⟨-, -, hcopies⟩ := run_extracts hformed hparse hextract openArchive_shelf hrun
  obtain ⟨last, hlast, hread, -⟩ := hcopies "A\\X" (by decide) ⟨"a/x", 100, 1⟩ (by decide)
  obtain rfl : last = ⟨"a/x", 100, 1⟩ := by
    have hfirst : lastCopy? (Path.ofText "new/out") [⟨"a/x", 100, 1⟩, ⟨"c/X", 102, 1⟩]
      (Path.ofText "new/out/x") = some ⟨"a/x", 100, 1⟩ := by decide
    exact Option.some.inj (hlast.symm.trans hfirst)
  exact ⟨hformed, hparse, hextract, openArchive_shelf, _, hrun, hread⟩

/-- Both members are announced, and the exit code is 0, but the data of the first one is lost. -/
theorem run_overwrites :
    let line := ["a.lab", "--extract", "a/x", "b/x", "--out-dir", "out"]
    ∃ final, run line shelf = .ok 0 final ∧
      announcement shelfArchive (Path.ofText "out") "a/x" = "[+] Extracted a/x -> out/x" ∧
      shelfArchive.read? "a/x" = some [1] ∧
      Action.read (Path.ofText "out/x") final.tree = .ok [4] final.tree := by
  intro line
  have hrun := eq_ok_of_value? (show value? (run line shelf) = some 0 by decide +kernel)
  have hvalue : value? (Action.read (Path.ofText "out/x") (endState (run line shelf)).tree) =
      some [4] := by decide +kernel
  have hread := eq_ok_of_value? hvalue
  rw [Action.endState_read] at hread
  exact ⟨_, hrun, by decide, by decide, hread⟩

end Command.Members

end SceneSet
