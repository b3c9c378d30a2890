import SceneSet.Command.Members
import SceneSet.Proofs.Archive.Lookup
import SceneSet.Proofs.Archive.Packing
import SceneSet.Proofs.Command.Steps

/-!
# Where members are extracted to

The names of members may hold slashes, backslashes, and dots. Only their last component is used for
the copy, so that a copy is put right inside the directory that was asked for, whatever the name is
and however the run ends: `run_confined`. There is one exception, a name without any component. Its
copy is put in the place of the directory itself, if that is not there yet (`run_misplaces`).
-/

namespace SceneSet

open Files (Path Tree Place)

namespace Files.Path

theorem slash_not_mem_pieces {text piece : List Char} (h : piece ∈ pieces text) : '/' ∉ piece := by
  induction text generalizing piece with
  | nil =>
      rw [List.mem_singleton.mp h]
      exact List.not_mem_nil
  | cons c rest ih =>
      unfold pieces at h
      split at h
      · rcases List.mem_cons.mp h with rfl | hpiece
        · exact List.not_mem_nil
        · exact ih hpiece
      · rename_i hc
        split at h
        · rename_i first more hpieces
          rw [hpieces] at ih
          rcases List.mem_cons.mp h with rfl | hpiece
          · rw [List.mem_cons, not_or]
            exact ⟨fun hslash => hc hslash.symm, ih List.mem_cons_self⟩
          · exact ih (List.mem_cons_of_mem _ hpiece)
        · rw [List.mem_singleton.mp h, List.mem_singleton]
          exact fun hslash => hc hslash.symm

/-- The last component of a path that is read from text, if there is one, is neither empty nor a
single dot, and has no slash. -/
theorem name_ofText (text : String) : (ofText text).name = "" ∨
    (ofText text).name ≠ "" ∧ (ofText text).name ≠ "." ∧ '/' ∉ (ofText text).name.toList := by
  have hname : (ofText text).name ∈ "" :: (ofText text).components := List.getLastD_mem_cons
  rcases List.mem_cons.mp hname with hnone | hcomponent
  · exact .inl hnone
  · obtain ⟨piece, hpiece, hvalue⟩ := List.mem_map.mp hcomponent
    obtain ⟨hmem, hkept⟩ := List.mem_filter.mp hpiece
    obtain ⟨hempty, hdot⟩ := of_decide_eq_true hkept
    refine .inr ?_
    rw [← hvalue]
    refine ⟨fun h => hempty ?_, fun h => hdot ?_, ?_⟩
    · rw [← @String.toList_ofList piece, h]
      rfl
    · rw [← @String.toList_ofList piece, h]
      rfl
    · rw [String.toList_ofList]
      exact slash_not_mem_pieces hmem

end Files.Path

namespace Command.Members

/-- The name of something that lies right inside a directory. -/
structure IsComponent (name : String) : Prop where
  nonempty : name ≠ ""
  single : '/' ∉ name.toList
  notHere : name ≠ "."
  notUp : name ≠ ".."

/-- A place right inside the directory that a path leads to. -/
def DirectChild (directory : Path) (tree : Tree) (place : Place) : Prop :=
  ∃ parent component, tree.resolve directory = .ok parent ∧
    tree.node? parent = some .directory ∧ IsComponent component ∧ place = parent ++ [component]

/-- The last component of the name of a member. -/
def lastName (entry : Entry) : String :=
  (Path.ofText (String.ofList (entry.name.toList.map fun c => if c = '\\' then '/' else c))).name

/-- Among the members to extract there is one with a name without components. -/
def AsksForNameless (request : Request) (tree : Tree) : Prop :=
  ∃ archive, Source.openArchive request.archive tree = .ok archive tree ∧
    ∃ name ∈ request.extract, ∃ entry, archive.find? name = some entry ∧ lastName entry = ""

/-- The places where members are copied to: right inside the directory, or, if one of them is
nameless, where the directory is looked for. -/
def Copied (directory : Path) (nameless : Prop) (tree : Tree) (place : Place) : Prop :=
  DirectChild directory tree place ∨ nameless ∧ tree.resolve directory = .ok place

/-- The name has no component, or it ends in double dots or in something that can lie right inside
a directory. -/
theorem lastName_cases (entry : Entry) :
    lastName entry = "" ∨ lastName entry = ".." ∨ IsComponent (lastName entry) := by
  by_cases hup : lastName entry = ".."
  · exact .inr (.inl hup)
  · rcases Path.name_ofText _ with hnone | ⟨hnonempty, hdot, hslash⟩
    · exact .inl hnone
    · exact .inr (.inr ⟨hnonempty, hslash, hdot, hup⟩)

variable {directory : Path} {nameless : Prop} {archive : Archive}

theorem Copied.lasting : Tree.Lasting (Copied directory nameless) := by
  rintro before after place hkeeps (⟨parent, component, hparent, hdirectory, hrest⟩ | ⟨h, hplace⟩)
  · exact .inl ⟨parent, component, hkeeps.resolve hparent, hkeeps.directories hdirectory, hrest⟩
  · exact .inr ⟨h, hkeeps.resolve hplace⟩

/-- Where the destination of a member leads, if not to a directory. -/
theorem copied_destination {tree : Tree} {place : Place} {entry : Entry} (h : tree.WellFormed)
    (hname : lastName entry = "" → nameless)
    (hplace : tree.resolve (destination directory entry) = .ok place)
    (hfile : tree.node? place ≠ some .directory) : Copied directory nameless tree place := by
  have hchild : destination directory entry = directory.child (lastName entry) := rfl
  rw [hchild] at hplace
  rcases lastName_cases entry with hnone | hup | hcomponent
  · rw [hnone] at hplace
    exact .inr ⟨hname hnone, hplace⟩
  · rw [hup] at hplace
    exact absurd (h.directory_of_resolve_up hplace) hfile
  · obtain ⟨parent, hparent, hdirectory, hstep⟩ := Tree.resolve_child hcomponent.nonempty hplace
    rw [Tree.step, if_neg hcomponent.notUp] at hstep
    exact .inl ⟨parent, _, hparent, hdirectory, hcomponent, hstep⟩

/-- The user is told about a name that is not found. -/
theorem extractMember_of_none {name : String} (h : archive.find? name = none) :
    extractMember archive directory name = (do
      Tool.say ("[!] " ++ name ++ " not found in archive")
      pure false) := by
  unfold extractMember
  rw [h]

/-- A member that is found is copied, since it is found again under its own name. -/
theorem extractMember_of_find? {name : String} {entry : Entry}
    (h : archive.find? name = some entry) : extractMember archive directory name = (do
      Tool.writeWithParents (destination directory entry) (archive.dataOf entry)
      Tool.say ("[+] Extracted " ++ entry.name ++ " -> " ++ (destination directory entry).text)
      pure true) := by
  have hfetch : Tool.fetch archive entry.name = pure (archive.dataOf entry) := by
    rw [Tool.fetch, Archive.fetch_of_find? h]
  unfold extractMember Tool.writeWithParents
  rw [h]
  simp only [hfetch, pure_bind, Tool.ofAction_bind, bind_assoc]

/-- One member is copied. -/
theorem moves_extractMember {name : String}
    (hname : ∀ entry, archive.find? name = some entry → lastName entry = "" → nameless) :
    Moves (Tool.Steps (Copied directory nameless)) (extractMember archive directory name) := by
  cases hfind : archive.find? name with
  | none =>
      rw [extractMember_of_none hfind]
      exact (Tool.moves_say _).bind (Tool.Steps.trans Copied.lasting) fun _ => Tool.moves_pure false
  | some entry =>
      rw [extractMember_of_find? hfind]
      refine (Tool.moves_writeWithParents Copied.lasting _ ?_).bind
        (Tool.Steps.trans Copied.lasting) fun _ => ?_
      · exact fun h hplace => copied_destination h (hname entry hfind) hplace
      · exact (Tool.moves_say _).bind (Tool.Steps.trans Copied.lasting) fun _ =>
          Tool.moves_pure true

/-- Members are copied one after the other, until one of them cannot be copied. -/
theorem moves_extractAll {names : List String}
    (hnames : ∀ name ∈ names, ∀ entry, archive.find? name = some entry → lastName entry = "" →
      nameless) :
    Moves (Tool.Steps (Copied directory nameless)) (extractAll archive directory names) := by
  induction names with
  | nil => exact Tool.moves_pure true
  | cons name rest ih =>
      obtain ⟨hname, hrest⟩ := List.forall_mem_cons.mp hnames
      exact (moves_extractMember hname).bind (Tool.Steps.trans Copied.lasting) fun found =>
        (ih hrest).bind (Tool.Steps.trans Copied.lasting) fun others =>
          Tool.moves_pure (found && others)

/-- Listing members changes no files. -/
theorem moves_list (request : Request) :
    Moves (Tool.Steps (Copied directory nameless)) (list archive request) := by
  refine Moves.bind ?_ (Tool.Steps.trans Copied.lasting) fun entries => ?_
  · unfold upTo
    split
    · exact Tool.moves_pure _
    · split
      · exact Tool.moves_pure _
      · exact Tool.moves_throw _
  · refine (Tool.moves_emit _).bind (Tool.Steps.trans Copied.lasting) fun _ => ?_
    split
    · exact (Tool.moves_say _).bind (Tool.Steps.trans Copied.lasting) fun _ => Tool.moves_pure 1
    · exact Tool.moves_pure 0

/-- A problem with the archive ends the tool without further changes. -/
theorem moves_refuse (problem : Problem) : Moves (Tool.Steps (Copied directory nameless))
    (do Tool.report problem problem.message; Tool.giveUp problem : Tool Nat) := by
  refine Moves.bind ?_ (Tool.Steps.trans Copied.lasting) fun _ => ?_
  · unfold Tool.report
    split
    · exact Tool.moves_say _
    · exact Tool.moves_pure ()
  · unfold Tool.giveUp
    split
    · exact Tool.moves_pure 1
    · exact Tool.moves_throw problem

/-- What the tool does to the files. -/
theorem moves_tool (request : Request) : Moves (fun before after : Session =>
    Tree.Steps (Copied request.directory (AsksForNameless request before.tree)) before.tree
      after.tree) (tool request) := by
  intro session
  have hopen := Source.endState_openArchive request.archive session.tree
  show Tree.Steps _ _ (endState (EStateM.bind (Tool.attempt _) _ session)).tree
  unfold EStateM.bind Tool.attempt Tool.ofLoader
  cases hrun : Source.openArchive request.archive session.tree with
  | error problem kept =>
      rw [hrun] at hopen
      rw [← show kept = session.tree from hopen]
      exact moves_refuse problem { session with tree := kept }
  | ok archive kept =>
      rw [hrun] at hopen
      have hkept : kept = session.tree := hopen
      subst hkept
      refine (Tool.moves_say _).bind (Tool.Steps.trans Copied.lasting) (fun _ => ?_) session
      split
      · exact moves_list request
      · refine Moves.bind (moves_extractAll ?_) (Tool.Steps.trans Copied.lasting) fun found =>
          Tool.moves_pure _
        intro name hname entry hentry hnone
        exact ⟨archive, hrun, name, hname, entry, hentry, hnone⟩

/-- Each file that a run creates or changes, if it succeeds or fails, is right inside the directory
that was asked for. Only the member of a nameless entry may be put in the place of the directory, if
there was none. -/
theorem run_confined (line : List String) (session : Session) (h : session.tree.WellFormed)
    {place : Place} {content : Bytes}
    (hnew : (endState (run line session)).tree.node? place = some (.file content))
    (hold : session.tree.node? place ≠ some (.file content)) :
    ∃ arguments, grammar.parse line = .ok arguments ∧
      (DirectChild (Request.ofArguments arguments).directory (endState (run line session)).tree
          place ∨
        (endState (run line session)).tree.resolve (Request.ofArguments arguments).directory =
            .ok place ∧
          session.tree.isDirectory (Request.ofArguments arguments).directory = false ∧
          AsksForNameless (Request.ofArguments arguments) session.tree) := by
  unfold run Command.run at hnew ⊢
  cases hparse : grammar.parse line with
  | error refusal =>
      rw [hparse] at hnew
      exact absurd hnew hold
  | ok arguments =>
      rw [hparse] at hnew
      refine ⟨arguments, rfl, ?_⟩
      dsimp only at hnew ⊢
      generalize Request.ofArguments arguments = request at hnew ⊢
      have hevolves := moves_tool request session h
      rcases hevolves.allowed_of_file hnew hold with hchild | ⟨hnameless, hplace⟩
      · exact .inl hchild
      · have hfile : (endState (tool request session)).tree.node? place ≠ some .directory := by
          rw [hnew]
          exact nofun
        exact .inr ⟨hplace, hevolves.keeps.isDirectory_eq_false hplace hfile, hnameless⟩

/-- A working directory with an archive of two members, one with a name that leads elsewhere, and a
nameless one. -/
def trap : Session where
  tree := ⟨["home"], [(["home"], .directory),
    (["home", "a.lab"], .file (Archive.pack .grim [⟨"..\\..\\b", [1]⟩, ⟨"/", [2]⟩]))]⟩
  output := []
  messages := ""
  calls := []

theorem wellFormed_trap : trap.tree.WellFormed := .of_nodes (by decide) (by decide)

/-- The files after a member was extracted. -/
def extracted (name : String) : Tree :=
  (endState (run ["a.lab", "--extract", name, "--out-dir", "out"] trap)).tree

/-- A name that leads elsewhere does no harm. -/
theorem run_confined_trap : trap.tree.WellFormed ∧
    (extracted "../../B").node? ["home", "out", "b"] = some (.file [1]) ∧
    ∃ arguments,
      grammar.parse ["a.lab", "--extract", "../../B", "--out-dir", "out"] = .ok arguments ∧
      (DirectChild (Request.ofArguments arguments).directory (extracted "../../B")
          ["home", "out", "b"] ∨
        (extracted "../../B").resolve (Request.ofArguments arguments).directory =
            .ok ["home", "out", "b"] ∧
          trap.tree.isDirectory (Request.ofArguments arguments).directory = false ∧
          AsksForNameless (Request.ofArguments arguments) trap.tree) := by
  have hnew : (extracted "../../B").node? ["home", "out", "b"] = some (.file [1]) := by
    decide +kernel
  exact ⟨wellFormed_trap, hnew, run_confined _ trap wellFormed_trap hnew (by decide)⟩

/-- The nameless member is put in the place of the directory, and not into it. -/
theorem run_misplaces : trap.tree.WellFormed ∧ trap.tree.node? ["home", "out"] = none ∧
    (extracted "/").node? ["home", "out"] = some (.file [2]) ∧
    ¬ DirectChild (Path.ofText "out") (extracted "/") ["home", "out"] := by
  have hfile : (extracted "/").node? ["home", "out"] = some (.file [2]) := by decide +kernel
  have hresolve : (extracted "/").resolve (Path.ofText "out") = .ok ["home", "out"] := by
    decide +kernel
  refine ⟨wellFormed_trap, by decide, hfile, ?_⟩
  rintro ⟨parent, component, hparent, hdirectory, -⟩
  have hsame : Except.ok ["home", "out"] = Except.ok parent := hresolve.symm.trans hparent
  cases hsame
  rw [hfile] at hdirectory
  cases hdirectory

end Command.Members

end SceneSet
