import SceneSet.Text.Latin

/-!
# Numerals

Integers written in base ten and sixteen, with zeros or blanks up to a width, and bytes written as
pairs of digits.
-/

namespace SceneSet.Numeral

/-- A natural number in base ten, without superfluous leading zeros. -/
def digits (n : Nat) : List Char := Nat.toDigits 10 n

/-- An integer in base ten. -/
def decimal (n : Int) : List Char :=
  (if n < 0 then ['-'] else []) ++ digits n.natAbs

/-- An integer in base ten, as text. -/
def text (n : Int) : String := String.ofList (decimal n)

/-- A natural number in base sixteen with small letters. -/
def lowerHex (n : Nat) : List Char := Nat.toDigits 16 n

/-- Zeros in front up to `width` characters. -/
def zeroPad (width : Nat) (text : List Char) : List Char := List.leftpad width '0' text

/-- An integer in base sixteen with capital letters, the sign first and then zeros so that there
are at least `width` characters. -/
def upperHex (width : Nat) (n : Int) : String :=
  let body := (lowerHex n.natAbs).map Char.toUpper
  String.ofList <|
    if n < 0 then '-' :: zeroPad (width - 1) body else zeroPad width body

/-- An offset as it is written in messages. -/
def offset (n : Int) : String := "0x" ++ upperHex 0 n

/-- A tag as it is written in messages: its last 32 bits, in eight digits. -/
def tag (n : Int) : String := "0x" ++ upperHex 8 (n % 0x100000000)

/-- A natural number in base ten with zeros in front. -/
def padded (width n : Nat) : String := String.ofList (zeroPad width (digits n))

/-- A text with blanks after it, up to `width` characters. -/
def padRight (width : Nat) (text : String) : String :=
  String.ofList (text.toList.rightpad width ' ')

/-- Two digits of base sixteen for each byte. -/
def hexBytes (bytes : Bytes) : List Char :=
  bytes.flatMap fun byte => zeroPad 2 (lowerHex byte.toNat)

end SceneSet.Numeral
