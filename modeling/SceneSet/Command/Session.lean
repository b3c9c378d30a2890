import SceneSet.Command.Arguments
import SceneSet.Diagnostics
import SceneSet.Preview.Drawing
import SceneSet.Source

/-!
# Sessions

What the run of a tool sees and does: the files, what it writes to the two output streams, and the
drawing calls that it makes. A tool that is ended by a problem keeps what it has done until then.
-/

namespace SceneSet

/-- The state of a running tool. -/
structure Session where
  tree : Files.Tree
  output : Bytes
  messages : String
  calls : List Preview.Call

/-- A step of a tool. -/
abbrev Tool := EStateM Problem Session

namespace Tool

open Files (Path Action)

/-- A line for the user. -/
def say (line : String) : Tool Unit :=
  modify fun session => { session with messages := session.messages ++ line ++ "\n" }

/-- Bytes for the output stream. -/
def emit (bytes : Bytes) : Tool Unit :=
  modify fun session => { session with output := session.output ++ bytes }

/-- Drawing calls, for whoever paints the picture. None of them is taken to fail: not for a size
that is too large to be painted, and not for a file that cannot be written. -/
def draw (calls : List Preview.Call) : Tool Unit :=
  modify fun session => { session with calls := session.calls ++ calls }

/-- Work on the files. -/
def ofLoader {α : Type} (loader : Source.Loader α) : Tool α := fun session =>
  match loader session.tree with
  | .ok value tree => .ok value { session with tree := tree }
  | .error problem tree => .error problem { session with tree := tree }

/-- An action on the files. -/
def ofAction {α : Type} (action : Action α) : Tool α := ofLoader (Source.ofAction action)

/-- A step whose problem, if it meets one, is its result. What it did is kept. -/
def attempt {α : Type} (step : Tool α) : Tool (Except Problem α) := fun session =>
  match step session with
  | .ok value session => .ok (.ok value) session
  | .error problem session => .ok (.error problem) session

/-- Ends a tool because of a problem: with exit code 1 if the problem is one that was reported. -/
def giveUp (problem : Problem) : Tool Nat :=
  if problem.isReported then pure 1 else throw problem

/-- Tells the user about a problem that is reported, in some wording. -/
def report (problem : Problem) (wording : String) : Tool Unit :=
  if problem.isReported then say ("[error] " ++ wording) else pure ()

/-- Makes the directory for a file and writes it. -/
def writeWithParents (path : Path) (content : Bytes) : Tool Unit := ofAction do
  Action.makeParents path
  Action.write path content

/-- Writes a text to the output stream, with one byte for each character. -/
def printText (text : String) : Tool Unit :=
  match Latin.encode? text with
  | some bytes => emit bytes
  | none => throw .notByteText

/-- Writes a text to a file, with one byte for each character. Line feeds are written as they are.
The file is made before the text is looked at, so it is left empty if a character has no byte. -/
def writeText (path : Path) (text : String) : Tool Unit :=
  match Latin.encode? text with
  | some bytes => ofAction (Action.write path bytes)
  | none => do
      ofAction (Action.write path [])
      throw .notByteText

/-- The data of a member that has to be in an archive. -/
def fetch (archive : Archive) (name : String) : Tool Bytes :=
  match archive.fetch name with
  | .ok data => pure data
  | .error reason => throw (.missing reason)

/-- Writes a log to its destination, if it has one. -/
def flush (log : Log) (destination : Option Path) : Tool Unit :=
  match destination with
  | none => pure ()
  | some path => writeWithParents path (utf8 log.text)

end Tool

namespace Command

/-- The exit code for arguments that are not taken. -/
def Refusal.exitCode : Refusal → Nat
  | .help => 0
  | .misuse => 2

/-- Any value is accepted. -/
def anyValue (_ : String) : Bool := true

/-- Decimal integers are accepted. -/
def isInteger (value : String) : Bool := (Integer.ofText? value).isSome

/-- Runs a tool on the arguments of a command line, if they fit its grammar. -/
def run (grammar : Grammar) (tool : Arguments → Tool Nat) (line : List String) : Tool Nat :=
  match grammar.parse line with
  | .ok arguments => tool arguments
  | .error refusal => pure refusal.exitCode

end Command

end SceneSet
