import SceneSet.Archive
import SceneSet.Files.Tree

/-!
# Sources of sets

A set comes from a member of an archive or from a file. A name is looked up in the archive first,
if there is one, and then among the files. `Problem` collects the reasons why a tool cannot do
what it is asked for.
-/

namespace SceneSet

/-- A reason why a tool cannot do what it is asked for. -/
inductive Problem where
  /-- An action on files failed. -/
  | files (failure : Files.Failure)
  /-- The file with this name is no archive. -/
  | defect (source : String) (reason : Archive.Defect)
  /-- A name leads to no set, neither in the archive with this name nor among the files. -/
  | unavailable (name : String) (archive : Option String)
  /-- The data is no set. -/
  | fault (reason : Fault)
  /-- There is nothing that could be drawn. -/
  | nothingToDraw
  /-- A count of members to list is negative or too large. -/
  | limitOutOfRange
  /-- A text has a character that is no byte. -/
  | notByteText
  /-- The size of a picture is out of the range of numbers. -/
  | sizeOutOfRange
  /-- An archive has no member under a name that has to be there. -/
  | missing (reason : Archive.Missing)
  deriving DecidableEq

namespace Problem

/-- The wording of a problem. An archive without a name is not mentioned. -/
def message : Problem → String
  | files failure => failure.message
  | defect source reason => reason.message source
  | unavailable name archive =>
      let source := archive.getD ""
      "Could not open file " ++ name
        ++ if source = "" then "" else " (archive " ++ source ++ " or filesystem)"
  | fault reason => reason.message
  | nothingToDraw => "No sectors with vertices were found in the set."
  | limitOutOfRange =>
      "Stop argument for islice() must be None or an integer: 0 <= x <= sys.maxsize."
  | notByteText => "text cannot be written with one byte for each character"
  | sizeOutOfRange => "int too large to convert to float"
  | missing reason => reason.name

/-- Whether a tool reports a problem and ends by itself. The others end it at once: what was asked
for makes no sense, whatever the files are. -/
def isReported : Problem → Bool
  | files failure => failure.cause ≠ .embeddedNul
  | limitOutOfRange | notByteText | sizeOutOfRange | missing _ => false
  | _ => true

end Problem

namespace Source

open Files (Path Tree Action)

/-- An action on files that may meet any problem. -/
abbrev Loader := EStateM Problem Tree

/-- An action on files, whose failures are problems. -/
def ofAction {α : Type} (action : Action α) : Loader α := fun tree =>
  match action tree with
  | .ok value tree => .ok value tree
  | .error failure tree => .error (.files failure) tree

/-- The archive in a file. -/
def openArchive (path : Path) : Loader Archive := do
  let data ← ofAction (Action.read path)
  match Archive.read path.text data with
  | .ok archive => pure archive
  | .error defect => throw (.defect path.text defect)

/-- The bytes that a name leads to. -/
def load (name : String) (archive : Option Archive) : Loader Bytes :=
  match archive.bind (·.read? name) with
  | some data => pure data
  | none => fun tree =>
      match Action.read (Path.ofText name) tree with
      | .ok data tree => .ok data tree
      | .error failure tree =>
          let problem := Problem.files failure
          .error (if problem.isReported then .unavailable name (archive.map (·.source))
            else problem) tree

end Source

end SceneSet
