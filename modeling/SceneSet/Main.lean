import SceneSet.Command.Convert
import SceneSet.Command.Members
import SceneSet.Command.Preview
import SceneSet.Preview.Listing

/-!
# Command line

The first argument names the tool: `convert`, `members` or `preview`. The tool runs on a picture of
the files that its arguments name, and what it has done is then carried out: new directories and
files, the two output streams, and the exit code. Drawing calls are listed on the output stream.
-/

namespace SceneSet.Main

open Files (Node Path Place Tree)

/-- The text of the path from the root to a place. -/
def placeText (place : Place) : String := "/" ++ String.intercalate "/" place

/-- What is at a place. Whatever is there and cannot be read counts as a directory. -/
def look (place : Place) : IO (Option Node) := do
  try
    let content ← IO.FS.readBinFile (placeText place)
    pure (some (.file content.toList))
  catch
    | .noFileOrDirectory .. => pure none
    | .resourceExhausted .. => pure none
    | _ => pure (some .directory)

/-- The places on the way to where a path leads, with the last one. -/
def placesOf (base : Place) (path : Path) : List Place :=
  (path.components.foldl
    (fun (places : List Place) component => Tree.step (places.headD []) component :: places)
    [if path.anchor = .working then base else []])

/-- The paths that an argument may name: all of it, and what follows an equals sign. -/
def pathsOf (argument : String) : List Path :=
  let joined := (argument.toList.dropWhile (· != '=')).drop 1
  [Path.ofText argument, Path.ofText (String.ofList joined)]

/-- The nodes that the arguments of a tool name, and those on the way to them. -/
def survey (arguments : List String) : IO Tree := do
  let base := (Path.ofText (← IO.currentDir).toString).components
  let start : Tree :=
    ⟨base, (List.range (base.length + 1)).map fun count => (base.take count, .directory)⟩
  let places := (arguments.flatMap pathsOf).flatMap (placesOf base)
  places.foldlM (fun (tree : Tree) place => do
    if (tree.node? place).isSome then return tree
    match ← look place with
    | some node => return tree.put place node
    | none => return tree) start

/-- Makes the directories and writes the files that a tool has made or written. -/
def carryOut (before after : Tree) : IO Unit := do
  for (place, node) in after.nodes.reverse do
    if before.node? place ≠ some node then
      match node with
      | .directory => IO.FS.createDirAll (placeText place)
      | .file content => IO.FS.writeBinFile (placeText place) ⟨content.toArray⟩

/-- Runs a tool on the arguments that follow its name. -/
def runTool (tool : List String → Tool Nat) (arguments : List String) : IO UInt32 := do
  let tree ← survey arguments
  let (code, session) ← match tool arguments ⟨tree, [], "", []⟩ with
    | .ok code session => pure (UInt32.ofNat code, session)
    | .error problem session => do
        pure (1, { session with messages := session.messages ++ problem.message ++ "\n" })
  carryOut tree session.tree
  let output ← IO.getStdout
  output.write ⟨session.output.toArray⟩
  for call in session.calls do
    output.putStrLn call.toJson.compact
  output.flush
  IO.eprint session.messages
  return code

end SceneSet.Main

/-- Runs the tool that the first argument names. -/
def main (arguments : List String) : IO UInt32 :=
  match arguments with
  | "convert" :: rest => SceneSet.Main.runTool SceneSet.Command.Convert.run rest
  | "members" :: rest => SceneSet.Main.runTool SceneSet.Command.Members.run rest
  | "preview" :: rest => SceneSet.Main.runTool SceneSet.Command.Preview.run rest
  | _ => do
      IO.eprintln "usage: (convert | members | preview) ARGUMENTS"
      return 2
