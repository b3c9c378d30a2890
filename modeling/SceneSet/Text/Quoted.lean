import SceneSet.Text.Numeral

/-!
# Quoted text

Texts are quoted in messages so that they stay on one line and can be read back. The delimiter is
an apostrophe unless the text holds an apostrophe and no quotation mark. The delimiter and the
backslash are escaped with a backslash; tabs, line feeds and carriage returns have escapes of
their own; every other character that is not `plain` is written by its number.
-/

namespace SceneSet.Quoted

/-- The delimiter for a text. -/
def delimiter (text : List Char) : Char :=
  if text.contains '\'' && !text.contains '"' then '"' else '\''

/-- One character inside quotes. -/
def escape (plain : Char → Bool) (delim c : Char) : List Char :=
  if c = delim ∨ c = '\\' then ['\\', c]
  else if c = '\t' then ['\\', 't']
  else if c = '\n' then ['\\', 'n']
  else if c = '\r' then ['\\', 'r']
  else if plain c then [c]
  else ['\\', 'x'] ++ Numeral.zeroPad 2 (Numeral.lowerHex c.toNat)

/-- A quoted text, for a class of characters that stand for themselves. -/
def quoteWith (plain : Char → Bool) (text : List Char) : List Char :=
  let delim := delimiter text
  delim :: text.flatMap (escape plain delim) ++ [delim]

/-- Printable characters: not the controls, the no-break blank or the soft hyphen. This is the rule
for the first 256 characters, which names in sets and archives are made of. All others count as
printable here, also the few that are not, such as the zero-width blank; only the paths that
failures of file actions tell can have such characters. -/
def isPrintable (c : Char) : Bool :=
  let n := c.toNat
  (0x20 ≤ n && n < 0x7f) || (0xa1 ≤ n && n != 0xad)

/-- The printable characters of the first 128. -/
def isAsciiPrintable (c : Char) : Bool :=
  let n := c.toNat
  0x20 ≤ n && n < 0x7f

/-- A quoted text. -/
def text (s : String) : String := String.ofList (quoteWith isPrintable s.toList)

/-- Quoted bytes, marked by a letter in front. -/
def bytes (b : Bytes) : String :=
  String.ofList ('b' :: quoteWith isAsciiPrintable (b.map Latin.char))

end SceneSet.Quoted
