import SceneSet.Command.Session
import SceneSet.Text.Glob
import SceneSet.Text.Letters

/-!
# Members of an archive

The tool that lists the members of an archive whose names match a pattern, one line each, or
copies members into a directory under the last component of their names.
-/

namespace SceneSet.Command.Members

open Files (Path Action)

/-- Which archive is looked at, what is listed, and what is extracted instead. -/
structure Request where
  archive : Path
  pattern : String
  limit : Option Int
  extract : List String
  directory : Path

/-- The arguments that the tool takes. -/
def grammar : Grammar where
  options :=
    [⟨"--pattern", .one, anyValue⟩, ⟨"--limit", .one, isInteger⟩,
     ⟨"--extract", .oneOrMore, anyValue⟩, ⟨"--out-dir", .one, anyValue⟩]
  operands := [.one]

/-- The request that arguments make. -/
def Request.ofArguments (arguments : Arguments) : Request where
  archive := Path.ofText ((arguments.operand 0).headD "")
  pattern := (arguments.value? "--pattern").getD "*"
  limit := (arguments.value? "--limit").bind Integer.ofText?
  extract := (arguments.values? "--extract").getD []
  directory := Path.ofText ((arguments.value? "--out-dir").getD ".")

/-- Where a member is copied to: the last component of its name, in the directory. -/
def destination (directory : Path) (entry : Entry) : Path :=
  let slashed := entry.name.toList.map fun c => if c = '\\' then '/' else c
  directory.child (Path.ofText (String.ofList slashed)).name

/-- Copies a member. Tells whether it was found. For its data it is looked up once more, under its
own name, when the directory has been made. -/
def extractMember (archive : Archive) (directory : Path) (name : String) : Tool Bool := do
  match archive.find? name with
  | none => do
      Tool.say ("[!] " ++ name ++ " not found in archive")
      pure false
  | some entry => do
      let path := destination directory entry
      Tool.ofAction (Action.makeParents path)
      let data ← Tool.fetch archive entry.name
      Tool.ofAction (Action.write path data)
      Tool.say ("[+] Extracted " ++ entry.name ++ " -> " ++ path.text)
      pure true

/-- Copies members, one after the other. Tells whether all were found. -/
def extractAll (archive : Archive) (directory : Path) : List String → Tool Bool
  | [] => pure true
  | name :: rest => do
      let found ← extractMember archive directory name
      let others ← extractAll archive directory rest
      pure (found && others)

/-- The greatest count of members that can be asked for. -/
def maxLimit : Int := 0x7fffffffffffffff

/-- The members that are listed: those with a matching name, in the order of the archive. Names and
patterns are compared in small letters. -/
def matching (archive : Archive) (pattern : String) : List Entry :=
  let items := Glob.parse (Letters.lower pattern.toList)
  archive.entries.filter fun entry => Glob.isMatch items (Letters.lower entry.name.toList)

/-- The first members, up to a limit if there is one. -/
def upTo (limit : Option Int) (entries : List Entry) : Tool (List Entry) :=
  match limit with
  | none => pure entries
  | some count =>
      if 0 ≤ count ∧ count ≤ maxLimit then pure (entries.take count.toNat)
      else throw .limitOutOfRange

/-- Lists members. -/
def list (archive : Archive) (request : Request) : Tool Nat := do
  let entries ← upTo request.limit (matching archive request.pattern)
  Tool.emit (utf8 (String.join (entries.map fun entry => entry.describe ++ "\n")))
  if entries.isEmpty then do
    Tool.say "No members matched the requested pattern."
    pure 1
  else pure 0

/-- The tool. -/
def tool (request : Request) : Tool Nat := do
  match ← Tool.attempt (Tool.ofLoader (Source.openArchive request.archive)) with
  | .error problem => do
      Tool.report problem problem.message
      Tool.giveUp problem
  | .ok archive => do
      Tool.say ("[+] " ++ request.archive.text ++ ": " ++ Numeral.text archive.size
        ++ " member(s), " ++ archive.layout.name ++ " layout")
      if request.extract.isEmpty then list archive request
      else do
        let found ← extractAll archive request.directory request.extract
        pure (if found then 0 else 1)

/-- The tool on a command line. -/
def run (line : List String) : Tool Nat :=
  Command.run grammar (fun arguments => tool (Request.ofArguments arguments)) line

end SceneSet.Command.Members
