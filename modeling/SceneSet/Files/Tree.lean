import SceneSet.Files.Path
import SceneSet.Text.Latin
import SceneSet.Text.Quoted

/-!
# File trees

The files and directories that a tool works on, as a value. Actions on a tree (`Files.Action`)
read and write whole files and make directories; an action that fails keeps what was done to the
tree before. Components of paths are taken literally but for double dots, and every component on
the way has to be a directory.
-/

namespace SceneSet.Files

/-- What a path can lead to. -/
inductive Node where
  | directory
  | file (content : Bytes)
  deriving DecidableEq

/-- The components that lead from the root to a node. -/
abbrev Place := List String

/-- The nodes of a tree by their places, and the place of the working directory. The root is a
directory. -/
structure Tree where
  working : Place
  nodes : List (Place × Node)
  deriving DecidableEq

/-- A reason why an action on files fails. -/
inductive Cause where
  | notFound
  | exists
  | notDirectory
  | isDirectory
  | nameTooLong
  | embeddedNul
  deriving DecidableEq

/-- A failed action: the reason, and the path that was given. -/
structure Failure where
  cause : Cause
  path : Path
  deriving DecidableEq

namespace Cause

/-- The number of the reason, and its wording. Paths with a NUL are refused before any action is
tried, and so have no number. -/
def numbered? : Cause → Option (Nat × String)
  | notFound => some (2, "No such file or directory")
  | .exists => some (17, "File exists")
  | notDirectory => some (20, "Not a directory")
  | isDirectory => some (21, "Is a directory")
  | nameTooLong => some (36, "File name too long")
  | embeddedNul => none

end Cause

namespace Failure

/-- The wording of a failure. The path is quoted by the rule for the first 256 characters. -/
def message (failure : Failure) : String :=
  match failure.cause.numbered? with
  | some (number, wording) =>
      "[Errno " ++ String.ofList (Numeral.digits number) ++ "] " ++ wording ++ ": "
        ++ Quoted.text failure.path.text
  | none => "embedded null byte"

end Failure

/-- The greatest size of a component in UTF-8. -/
def maxComponentSize : Nat := 255

/-- The least size in UTF-8 of a path that is too long. -/
def pathSizeLimit : Nat := 4096

namespace Tree

/-- The node at a place. -/
def node? (tree : Tree) : Place → Option Node
  | [] => some .directory
  | place => tree.nodes.lookup place

/-- The tree with a node put at a place. -/
def put (tree : Tree) (place : Place) (node : Node) : Tree :=
  { tree with nodes := (place, node) :: tree.nodes.filter fun entry => entry.1 != place }

/-- One step down from a place, or up for double dots. -/
def step (place : Place) (component : String) : Place :=
  if component = ".." then place.dropLast else place ++ [component]

/-- Whether a place can be left through a component. -/
def enter (tree : Tree) (place : Place) (component : String) : Except Cause Place :=
  match tree.node? place with
  | none => .error .notFound
  | some (.file _) => .error .notDirectory
  | some .directory =>
      if maxComponentSize < component.utf8ByteSize then .error .nameTooLong
      else .ok (step place component)

/-- Where a path begins. -/
def base (tree : Tree) (path : Path) : Place :=
  if path.anchor = .working then tree.working else []

/-- The place that a path leads to. All components but the last have to lead to directories; a
node need not be at the place itself. -/
def resolve (tree : Tree) (path : Path) : Except Cause Place :=
  if path.text.toList.contains '\x00' then .error .embeddedNul
  else if pathSizeLimit ≤ path.text.utf8ByteSize then .error .nameTooLong
  else path.components.foldlM tree.enter (tree.base path)

/-- Whether a path leads to a directory. -/
def isDirectory (tree : Tree) (path : Path) : Bool :=
  match tree.resolve path with
  | .ok place => tree.node? place == some .directory
  | .error _ => false

end Tree

/-- An action on a tree. -/
abbrev Action := EStateM Failure Tree

namespace Action

/-- The place that a path leads to. -/
def resolve (path : Path) : Action Place := fun tree =>
  match tree.resolve path with
  | .ok place => .ok place tree
  | .error cause => .error ⟨cause, path⟩ tree

/-- The content of a file. -/
def read (path : Path) : Action Bytes := do
  let place ← resolve path
  match (← get).node? place with
  | some (.file content) => pure content
  | some .directory => throw ⟨.isDirectory, path⟩
  | none => throw ⟨.notFound, path⟩

/-- Writes a file, which replaces one that is there. -/
def write (path : Path) (content : Bytes) : Action Unit := do
  let place ← resolve path
  match (← get).node? place with
  | some .directory => throw ⟨.isDirectory, path⟩
  | _ => modify (·.put place (.file content))

/-- Makes a directory where there is nothing yet. -/
def makeDirectory (path : Path) : Action Unit := do
  let place ← resolve path
  match (← get).node? place with
  | some _ => throw ⟨.exists, path⟩
  | none => modify (·.put place .directory)

/-- Makes a directory unless there is one already. -/
def ensureDirectory (path : Path) : Action Unit := fun tree =>
  match makeDirectory path tree with
  | .ok _ made => .ok () made
  | .error failure kept =>
      if kept.isDirectory path then .ok () kept else .error failure kept

/-- Makes a directory unless there is one already, and before it those above it that are missing.
The components of the path are given with the last one first. -/
def ensureDirectories (anchor : Anchor) : List String → Action Unit
  | [] => ensureDirectory ⟨anchor, []⟩
  | last :: above => fun tree =>
      let path : Path := ⟨anchor, (last :: above).reverse⟩
      match ensureDirectory path tree with
      | .ok _ made => .ok () made
      | .error failure kept =>
          if failure.cause = .notFound then
            (do ensureDirectories anchor above; ensureDirectory path) kept
          else .error failure kept

/-- Makes the directory that a path lies in, and those above it, where they are missing. -/
def makeParents (path : Path) : Action Unit :=
  ensureDirectories path.anchor path.parent.components.reverse

end Action

end SceneSet.Files
