import SceneSet.Fault
import SceneSet.Text.Quoted

/-!
# Diagnostics

Observations made while a set is read that do not stop the reading. A log keeps them in order; it
can be summed up by kind and written with one line for each entry.
-/

namespace SceneSet

/-- An observation: its kind, the offset that it concerns, and what was seen. -/
structure Diagnostic where
  kind : String
  offset : Int
  message : String
  deriving DecidableEq

/-- Observations in the order in which they were made. -/
structure Log where
  entries : List Diagnostic
  deriving DecidableEq

namespace Log

/-- No observation yet. -/
def empty : Log := ⟨[]⟩

/-- The log with one more observation. -/
def record (log : Log) (entry : Diagnostic) : Log := ⟨log.entries ++ [entry]⟩

/-- The log with some more observations. -/
def recordAll (log : Log) (entries : List Diagnostic) : Log := ⟨log.entries ++ entries⟩

/-- How many observations were made. -/
def size (log : Log) : Nat := log.entries.length

/-- One more occurrence of a kind in a tally, which lists kinds in strictly increasing order. -/
def count (kind : String) : List (String × Nat) → List (String × Nat)
  | [] => [(kind, 1)]
  | (other, occurrences) :: rest =>
      if kind = other then (other, occurrences + 1) :: rest
      else if kind < other then (kind, 1) :: (other, occurrences) :: rest
      else (other, occurrences) :: count kind rest

/-- How often each kind occurs, in the order of the kinds. -/
def tally (log : Log) : List (String × Nat) :=
  (log.entries.map (·.kind)).foldr count []

/-- The tally on one line. -/
def summary (log : Log) : String :=
  if log.entries.isEmpty then "no diagnostics"
  else String.intercalate ", " <| log.tally.map fun (kind, occurrences) =>
    kind ++ "=" ++ Numeral.text occurrences

/-- The line of an entry, with its place in the log counted from one. -/
def line (entry : Diagnostic) (place : Nat) : String :=
  "#" ++ Numeral.padded 4 place ++ " offset=0x" ++ Numeral.upperHex 4 entry.offset
    ++ " kind=" ++ Numeral.padRight 16 entry.kind ++ " " ++ entry.message

/-- The lines of all entries. -/
def lines (log : Log) : List String :=
  (log.entries.zipIdx 1).map fun (entry, place) => line entry place

/-- The text of a log: its lines, each ended by a line feed. -/
def text (log : Log) : String :=
  String.join (log.lines.map (· ++ "\n"))

end Log

end SceneSet
