import SceneSet.Command.Session
import SceneSet.Scene

/-!
# Previewing a set

The tool that draws the sectors of a set. The set is a file, or a member of an archive if three
operands are given; the last operand is the file for the picture.
-/

namespace SceneSet.Command.Preview

open Files (Path Action)
open SceneSet.Preview (Call Drawing Plane Style)

/-- What is to be drawn and how. -/
structure Request where
  archive : Option Path
  name : String
  destination : String
  size : Int
  plane : Plane
  labels : Bool

/-- The arguments that the tool takes. -/
def grammar : Grammar where
  options :=
    [⟨"--size", .one, isInteger⟩, ⟨"--plane", .one, fun name => (Plane.ofName? name).isSome⟩,
     ⟨"--labels", .none, anyValue⟩]
  operands := [.oneOrMore]

/-- The request that arguments make, if there are two or three operands. -/
def Request.ofArguments? (arguments : Arguments) : Option Request :=
  let request (archive : Option Path) (name destination : String) : Request :=
    { archive := archive
      name := name
      destination := destination
      size := ((arguments.value? "--size").bind Integer.ofText?).getD 512
      plane := ((arguments.value? "--plane").bind Plane.ofName?).getD .xz
      labels := arguments.has "--labels" }
  match arguments.operand 0 with
  | [name, destination] => some (request none name destination)
  | [archive, name, destination] => some (request (some (Path.ofText archive)) name destination)
  | _ => none

/-- Draws sectors and saves the picture. Gives the number of sectors that are seen. As no drawing
call is taken to fail, the only failure behind the first one is that of making the directory. -/
def drawSectors (style : Style) (sectors : List Sector) (path : Path) : Tool Nat :=
  match Drawing.ofSectors? style sectors with
  | none => throw .nothingToDraw
  | some drawing =>
      if style.isDrawable then do
        Tool.draw drawing.calls
        Tool.ofAction (Action.makeParents path)
        Tool.draw [.save path]
        pure drawing.drawn
      else throw .sizeOutOfRange

/-- Loads, reads and draws a set. -/
def drawSet (request : Request) : Tool Nat := do
  let archive ← match request.archive with
    | none => pure none
    | some path => some <$> Tool.ofLoader (Source.openArchive path)
  let data ← Tool.ofLoader (Source.load request.name archive)
  match (Scene.read ⟨false, false⟩ none data).1 with
  | .error fault => throw (.fault fault)
  | .ok scene =>
      drawSectors ⟨request.size, request.plane, request.labels, Style.usualPadding⟩ scene.sectors
        (Path.ofText request.destination)

/-- The tool. -/
def tool (request : Request) : Tool Nat := do
  match ← Tool.attempt (drawSet request) with
  | .error problem => do
      Tool.report problem problem.message
      Tool.giveUp problem
  | .ok drawn => do
      Tool.say ("[+] Preview PNG with " ++ Numeral.text drawn ++ " sector(s) written to "
        ++ request.destination)
      pure 0

/-- The tool on a command line. -/
def run (line : List String) : Tool Nat :=
  Command.run grammar
    (fun arguments =>
      match Request.ofArguments? arguments with
      | some request => tool request
      | none => pure Refusal.misuse.exitCode) line

end SceneSet.Command.Preview
