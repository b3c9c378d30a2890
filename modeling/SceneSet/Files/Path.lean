/-!
# Paths

A path is a list of components after its root, if it has one. Reading a path from text drops empty
components and single dots; double dots are kept, since what they lead to depends on the files.
-/

namespace SceneSet.Files

/-- Where a path begins: in the working directory, or at one of the two roots. -/
inductive Anchor where
  | working
  | root
  | doubleRoot
  deriving DecidableEq

/-- A path. -/
structure Path where
  anchor : Anchor
  components : List String
  deriving DecidableEq

namespace Path

/-- The pieces of a text between slashes. -/
def pieces : List Char → List (List Char)
  | [] => [[]]
  | c :: rest =>
      if c = '/' then [] :: pieces rest
      else match pieces rest with
        | piece :: more => (c :: piece) :: more
        | [] => [[c]]

/-- Where a text begins. Exactly two slashes are a root of their own. -/
def anchorOf : List Char → Anchor
  | '/' :: '/' :: '/' :: _ => .root
  | '/' :: '/' :: _ => .doubleRoot
  | '/' :: _ => .root
  | _ => .working

/-- The path that a text stands for. -/
def ofText (text : String) : Path where
  anchor := anchorOf text.toList
  components :=
    ((pieces text.toList).filter fun piece => piece ≠ [] ∧ piece ≠ ['.']).map String.ofList

/-- The text of a root. -/
def Anchor.text : Anchor → String
  | .working => ""
  | .root => "/"
  | .doubleRoot => "//"

/-- The text of a path; a path without components or root is a single dot. -/
def text (path : Path) : String :=
  if path.anchor = .working ∧ path.components = [] then "."
  else Anchor.text path.anchor ++ String.intercalate "/" path.components

/-- The last component, empty if there is none. -/
def name (path : Path) : String := path.components.getLastD ""

/-- The path without its last component. -/
def parent (path : Path) : Path := { path with components := path.components.dropLast }

/-- The path with one more component; an empty one adds nothing. -/
def child (path : Path) (name : String) : Path :=
  if name = "" then path else { path with components := path.components ++ [name] }

end Path

end SceneSet.Files
