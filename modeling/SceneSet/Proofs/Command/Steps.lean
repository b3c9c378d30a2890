import SceneSet.Command.Session
import SceneSet.Proofs.Files.Creation

/-!
# What tools do to the files

`Tool.Steps` compares the files before and after a part of a tool: what is written to the streams
does not count. Of the steps that tools are made of, only those that are actions on files change
any.
-/

namespace SceneSet

open Files (Path Tree Place Action)

/-! ### Actions as steps -/

section Actions

variable {α : Type} {action : Action α} {loader : Source.Loader α} {tree kept : Tree}
  {session after : Session} {value : α} {problem : Problem}

theorem Source.ofAction_eq_ok :
    ofAction action tree = .ok value kept ↔ action tree = .ok value kept := by
  unfold ofAction
  cases action tree with
  | ok other made =>
      constructor
      · intro h
        cases h
        rfl
      · intro h
        cases h
        rfl
  | error failure made => exact ⟨nofun, nofun⟩

theorem Source.ofAction_eq_error : ofAction action tree = .error problem kept ↔
    ∃ failure, action tree = .error failure kept ∧ problem = .files failure := by
  unfold ofAction
  cases action tree with
  | ok other made => exact ⟨nofun, nofun⟩
  | error failure made =>
      constructor
      · intro h
        cases h
        exact ⟨failure, rfl, rfl⟩
      · rintro ⟨_, h, rfl⟩
        cases h
        rfl

theorem Tool.ofLoader_eq_ok : ofLoader loader session = .ok value after ↔
    ∃ tree, loader session.tree = .ok value tree ∧ after = { session with tree := tree } := by
  unfold ofLoader
  cases loader session.tree with
  | ok other made =>
      constructor
      · intro h
        cases h
        exact ⟨made, rfl, rfl⟩
      · rintro ⟨_, h, rfl⟩
        cases h
        rfl
  | error failure made => exact ⟨nofun, nofun⟩

theorem Tool.ofLoader_eq_error : ofLoader loader session = .error problem after ↔
    ∃ tree, loader session.tree = .error problem tree ∧ after = { session with tree := tree } := by
  unfold ofLoader
  cases loader session.tree with
  | ok other made => exact ⟨nofun, nofun⟩
  | error failure made =>
      constructor
      · intro h
        cases h
        exact ⟨made, rfl, rfl⟩
      · rintro ⟨_, h, rfl⟩
        cases h
        rfl

end Actions

namespace Tool

/-- How a step takes a session to another, as far as the files are concerned. -/
def Steps (allowed : Tree → Place → Prop) (before after : Session) : Prop :=
  Tree.Steps allowed before.tree after.tree

variable {allowed : Tree → Place → Prop} {α : Type}

theorem Steps.trans (hlasting : Tree.Lasting allowed) (before middle after : Session) :
    Steps allowed before middle → Steps allowed middle after → Steps allowed before after :=
  Tree.Steps.trans hlasting _ _ _

theorem moves_pure (value : α) : Moves (Steps allowed) (pure value : Tool α) := fun _ => .refl

theorem moves_throw (problem : Problem) : Moves (Steps allowed) (throw problem : Tool α) :=
  fun _ => .refl

theorem moves_say (line : String) : Moves (Steps allowed) (say line) := fun _ => .refl

theorem moves_emit (bytes : Bytes) : Moves (Steps allowed) (emit bytes) := fun _ => .refl

theorem moves_ofAction {action : Action α} (h : Moves (Tree.Steps allowed) action) :
    Moves (Steps allowed) (ofAction action) := by
  intro session
  have hsession := h session.tree
  unfold ofAction ofLoader Source.ofAction
  cases hrun : action session.tree with
  | ok value after =>
      rw [hrun] at hsession
      exact hsession
  | error failure after =>
      rw [hrun] at hsession
      exact hsession

/-- A file is written with the directories above it, if it is allowed where the path leads. -/
theorem moves_writeWithParents (hlasting : Tree.Lasting allowed) {path : Path} (content : Bytes)
    (hpath : ∀ {tree : Tree} {place}, tree.WellFormed → tree.resolve path = .ok place →
      tree.node? place ≠ some .directory → allowed tree place) :
    Moves (Steps allowed) (writeWithParents path content) := by
  refine moves_ofAction ((Action.moves_makeParents hlasting path).bind
    (Tree.Steps.trans hlasting) fun _ => ?_)
  intro tree h
  have hwrite := Action.moves_write path content tree h
  exact hwrite.mono fun hplace => hpath hwrite.formed hplace

/-- Two actions on the files are done one after the other. -/
theorem ofAction_bind {β : Type} (action : Action α) (next : α → Action β) :
    ofAction (action >>= next) = ofAction action >>= fun value => ofAction (next value) := by
  funext session
  show ofAction (fun tree => EStateM.bind action next tree) session =
    EStateM.bind (ofAction action) _ session
  unfold EStateM.bind ofAction ofLoader Source.ofAction
  dsimp only
  cases action session.tree <;> rfl

section Texts

variable {text : String} {bytes : Bytes} (h : Latin.encode? text = some bytes)

include h

/-- The bytes of a text go to the output stream. -/
theorem printText_of_encode : printText text = emit bytes := by
  unfold printText
  rw [h]

/-- The bytes of a text go to a file. -/
theorem writeText_of_encode (path : Path) :
    writeText path text = ofAction (Action.write path bytes) := by
  unfold writeText
  rw [h]

end Texts

/-- Writing a file with the directories above it is one action on the files. -/
theorem writeWithParents_eq_ok {path : Path} {content : Bytes} {session after : Session} :
    writeWithParents path content session = .ok () after ↔
      ∃ tree, Action.create path content session.tree = .ok () tree ∧
        after = { session with tree := tree } := by
  show ofLoader (Source.ofAction (Action.create path content)) session = _ ↔ _
  rw [ofLoader_eq_ok]
  simp only [Source.ofAction_eq_ok]

/-- A file that can be created is put where its path leads. -/
theorem writeWithParents_of_creatable {path : Path} {session : Session}
    (h : session.tree.WellFormed) (hpath : session.tree.Creatable path) (content : Bytes) :
    ∃ tree, writeWithParents path content session = .ok () { session with tree := tree } ∧
      tree.WellFormed ∧ Tree.Placed path content session.tree tree := by
  obtain ⟨tree, hcreate, hplaced⟩ := Action.create_of_creatable h hpath content
  obtain ⟨-, -, hformed⟩ := Action.placed_of_create h hcreate
  exact ⟨tree, writeWithParents_eq_ok.mpr ⟨tree, hcreate, rfl⟩, hformed, hplaced⟩

end Tool

/-- Opening an archive changes nothing. -/
theorem Source.endState_openArchive (path : Path) (tree : Tree) :
    endState (openArchive path tree) = tree := by
  have hread := Action.endState_read path tree
  show endState (EStateM.bind (ofAction (Action.read path)) _ tree) = tree
  unfold EStateM.bind ofAction
  cases hrun : Action.read path tree with
  | ok data after =>
      rw [hrun] at hread
      dsimp only
      cases Archive.read path.text data <;> exact hread
  | error failure after =>
      rw [hrun] at hread
      exact hread

end SceneSet
