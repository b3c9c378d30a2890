import SceneSet.Number.Decimal

/-!
# JSON values

The values of a JSON text with integers apart from floating-point numbers and with the members of
an object in the order in which they are written, and the two layouts in which they are written:
on one line, or indented by two blanks for each level. Texts are pure ASCII. The three numbers
that JSON lacks are written `NaN`, `Infinity` and `-Infinity`.
-/

namespace SceneSet

open Number (Double)

/-- A JSON value. -/
inductive Json where
  | null
  | bool (value : Bool)
  | integer (value : Int)
  | number (value : Double)
  | string (value : String)
  | array (items : List Json)
  | object (members : List (String × Json))

namespace Json

/-- Where the items of an array or object are put: all on one line, or each on a line of its own
at some depth. -/
inductive Layout where
  | line
  | indented (depth : Nat)
  deriving DecidableEq

namespace Layout

/-- The layout one level further in. -/
def inner : Layout → Layout
  | line => line
  | indented depth => indented (depth + 1)

/-- What stands between a bracket and an item. -/
def edge : Layout → List Char
  | line => []
  | indented depth => '\n' :: List.replicate (2 * depth) ' '

/-- What stands between two items. -/
def separator : Layout → List Char
  | line => [',', ' ']
  | indented depth => ',' :: edge (indented depth)

end Layout

/-- A code unit by its number in base sixteen. -/
def unitEscape (unit : Nat) : List Char :=
  ['\\', 'u'] ++ Numeral.zeroPad 4 (Numeral.lowerHex unit)

/-- One character of a string. Characters beyond the first 65536 are written as two code units. -/
def escape (c : Char) : List Char :=
  let n := c.toNat
  if c = '"' then ['\\', '"']
  else if c = '\\' then ['\\', '\\']
  else if c = '\n' then ['\\', 'n']
  else if c = '\r' then ['\\', 'r']
  else if c = '\t' then ['\\', 't']
  else if n = 0x0c then ['\\', 'f']
  else if n = 0x08 then ['\\', 'b']
  else if 0x20 ≤ n ∧ n ≤ 0x7e then [c]
  else if n < 0x10000 then unitEscape n
  else unitEscape (0xd800 + (n - 0x10000) / 0x400) ++ unitEscape (0xdc00 + (n - 0x10000) % 0x400)

/-- A string with its delimiters. -/
def quoted (text : String) : List Char :=
  '"' :: text.toList.flatMap escape ++ ['"']

mutual

/-- The text of a value whose items are laid out as given. -/
def render (layout : Layout) : Json → List Char
  | null => ['n', 'u', 'l', 'l']
  | bool true => ['t', 'r', 'u', 'e']
  | bool false => ['f', 'a', 'l', 's', 'e']
  | integer value => Numeral.decimal value
  | number value => value.shortest.toList
  | string value => quoted value
  | array [] => ['[', ']']
  | array (first :: rest) =>
      '[' :: layout.inner.edge ++ render layout.inner first ++ renderItems layout.inner rest
        ++ layout.edge ++ [']']
  | object [] => ['{', '}']
  | object ((key, first) :: rest) =>
      '{' :: layout.inner.edge ++ quoted key ++ [':', ' '] ++ render layout.inner first
        ++ renderMembers layout.inner rest ++ layout.edge ++ ['}']

/-- The items after the first, each after a separator. -/
def renderItems (layout : Layout) : List Json → List Char
  | [] => []
  | item :: rest => layout.separator ++ render layout item ++ renderItems layout rest

/-- The members after the first, each after a separator. -/
def renderMembers (layout : Layout) : List (String × Json) → List Char
  | [] => []
  | (key, value) :: rest =>
      layout.separator ++ quoted key ++ [':', ' '] ++ render layout value
        ++ renderMembers layout rest

end

/-- A value on one line. -/
def compact (value : Json) : String := String.ofList (value.render .line)

/-- A value with each item on a line of its own. -/
def indented (value : Json) : String := String.ofList (value.render (.indented 0))

end Json

end SceneSet
