import SceneSet.Record.Reader

/-!
# Scenes

A scene is a whole set: setups, then lights, then sectors, each section after a word with its
count. `Scene.read` reads one and notes in a log, if it is given one, what does not stop it.
-/

namespace SceneSet

/-- The content of a set, with the counts that it announces and the bytes that it takes. -/
structure Scene where
  setups : List Setup
  lights : List Light
  sectors : List Sector
  setupCount : Int
  lightCount : Int
  sectorCount : Int
  length : Int
  name : String
  colormaps : List String
  deriving DecidableEq

/-- The state of reading a set: the place in the buffer, and the log if one is kept. -/
structure Progress where
  cursor : Cursor
  log : Option Log

/-- An action that reads a set and may note what it sees. -/
abbrev Observer := EStateM Fault Progress

namespace Observer

/-- A reader, which notes nothing. -/
def ofReader {α : Type} (reader : Reader α) : Observer α := fun progress =>
  match reader progress.cursor with
  | .ok value cursor => .ok value { progress with cursor := cursor }
  | .error fault cursor => .error fault { progress with cursor := cursor }

/-- Adds to the log, if there is one. -/
def note (entries : List Diagnostic) : Observer Unit := fun progress =>
  .ok () { progress with log := progress.log.map (·.recordAll entries) }

/-- The next sector, with what there is to note about it. -/
def sector (options : ReadOptions) : Observer Sector := do
  let sector ← ofReader (Sector.read options)
  note (sector.notes options)
  pure sector

/-- The place in the buffer. -/
def cursor : Observer Cursor := fun progress => .ok progress.cursor progress

/-- The three sections of a set. -/
def sections (options : ReadOptions) : Observer Scene := do
  let setupCount ← ofReader (Reader.count "setup count")
  let setups ← ofReader (repeated Setup.read setupCount)
  let lightCount ← ofReader (Reader.count "light count")
  let lights ← ofReader (repeated Light.read lightCount)
  let sectorCount ← ofReader (Reader.count "sector count")
  let sectors ← repeated (sector options) sectorCount
  let stop ← cursor
  pure ⟨setups, lights, sectors, setupCount, lightCount, sectorCount, stop.offset, "", []⟩

/-- What there is to note about the bytes that follow the last sector. -/
def trailingNotes (stop : Cursor) : List Diagnostic :=
  if stop.atEnd then [] else
    [⟨"trailing-bytes", stop.offset,
      Numeral.text stop.remaining ++ " byte(s) left after the last sector"⟩]

/-- A whole set. -/
def scene (options : ReadOptions) : Observer Scene := do
  let scene ← sections options
  let stop ← cursor
  note (trailingNotes stop)
  pure scene

end Observer

namespace Scene

/-- The set that some bytes begin with, or the fault that stops its reading, and the log with what
was noted until then. -/
def read (options : ReadOptions) (log : Option Log) (data : Bytes) :
    Except Fault Scene × Option Log :=
  match Observer.scene options ⟨Cursor.ofBytes data, log⟩ with
  | .ok scene progress => (.ok scene, progress.log)
  | .error fault progress => (.error fault, progress.log)

end Scene

end SceneSet
