import SceneSet.Command.Session
import SceneSet.Report
import SceneSet.Summary

/-!
# Converting a set

The tool that turns a set into a text report, and on demand writes a JSON summary and the
diagnostics. The set is a file, or a member of an archive if two operands are given. Nothing but
the diagnostics is written when the set cannot be loaded or read.
-/

namespace SceneSet.Command.Convert

open Files (Path Action)

/-- What is to be converted and what is to be written. -/
structure Request where
  name : String
  archive : Option Path
  output : Option Path
  json : Option Path
  diagnostics : Option Path
  options : ReadOptions
  trueCounts : Bool

/-- The arguments that the tool takes. -/
def grammar : Grammar where
  options :=
    [⟨"--output", .one, anyValue⟩, ⟨"--json", .one, anyValue⟩, ⟨"--diagnostics", .one, anyValue⟩,
     ⟨"--strict", .none, anyValue⟩, ⟨"--corrected-counts", .none, anyValue⟩,
     ⟨"--legacy-normal", .none, anyValue⟩]
  operands := [.one, .optional]

/-- The request that arguments make. An empty second operand counts as none. -/
def Request.ofArguments (arguments : Arguments) : Request :=
  let source := (arguments.operand 0).headD ""
  let member := (arguments.operand 1).headD ""
  let path (name : String) : Option Path := (arguments.value? name).map Path.ofText
  { name := if member = "" then source else member
    archive := if member = "" then none else some (Path.ofText source)
    output := path "--output"
    json := path "--json"
    diagnostics := path "--diagnostics"
    options := ⟨arguments.has "--strict", arguments.has "--legacy-normal"⟩
    trueCounts := arguments.has "--corrected-counts" }

/-- The bytes of the set. -/
def load (request : Request) : Tool Bytes := do
  let archive ← match request.archive with
    | none => pure none
    | some path => do
        let archive ← Tool.ofLoader (Source.openArchive path)
        Tool.say ("[+] Loaded archive " ++ path.text ++ " ("
          ++ Numeral.text archive.size ++ " entries)")
        pure (some archive)
  let data ← Tool.ofLoader (Source.load request.name archive)
  Tool.say ("[+] Loaded " ++ request.name ++ " (" ++ Numeral.text data.length ++ " bytes)")
  pure data

/-- The scene or the problem that prevents it, and what was noted. -/
def obtain (request : Request) : Tool (Except Problem Scene × Log) := do
  match ← Tool.attempt (load request) with
  | .error problem => pure (.error problem, .empty)
  | .ok data =>
      let (result, log) := Scene.read request.options (some .empty) data
      pure (result.mapError .fault, log.getD .empty)

/-- What the user is told about a problem. Of a failed action on files only the reason is told,
after the path. -/
def wording : Problem → String
  | .files failure =>
      "Could not open file " ++ failure.path.text ++ ": "
        ++ ((failure.cause.numbered?.map (·.2)).getD "")
  | problem => problem.message

/-- Writes the report to its file, or to the output stream if there is none. -/
def deliverReport (request : Request) (scene : Scene) : Tool Unit :=
  let report := Report.scene request.trueCounts scene
  match request.output with
  | none => Tool.printText report
  | some path => do
      Tool.ofAction (Action.makeParents path)
      Tool.writeText path report
      Tool.say ("[+] Report written to " ++ path.text)

/-- Writes the JSON summary, if it is asked for. Its directory has to exist. -/
def deliverSummary (request : Request) (scene : Scene) : Tool Unit := do
  match request.json with
  | none => pure ()
  | some path => do
      let bundle := Summary.bundle request.name (request.archive.map (·.text)) scene
      Tool.ofAction (Action.write path (utf8 bundle.indented))
      Tool.say ("[+] JSON summary written to " ++ path.text)

/-- Says what was read. -/
def announce (scene : Scene) (log : Log) : Tool Unit := do
  Tool.say ("[+] Decoded " ++ Numeral.text scene.setups.length ++ " setup(s), "
    ++ Numeral.text scene.lights.length ++ " light(s) and "
    ++ Numeral.text scene.sectors.length ++ " sector(s)")
  if log.entries.isEmpty then pure () else Tool.say ("[!] Diagnostics: " ++ log.summary)

/-- The tool. The diagnostics are written also if the set cannot be loaded or read. -/
def tool (request : Request) : Tool Nat := do
  let (result, log) ← obtain request
  match result with
  | .error problem => do
      Tool.report problem (wording problem)
      Tool.flush log request.diagnostics
      Tool.giveUp problem
  | .ok scene => do
      Tool.flush log request.diagnostics
      announce scene log
      deliverReport request scene
      deliverSummary request scene
      pure 0

/-- The tool on a command line. -/
def run (line : List String) : Tool Nat :=
  Command.run grammar (fun arguments => tool (Request.ofArguments arguments)) line

end SceneSet.Command.Convert
