/-!
# Integers on a command line

A decimal integer may have a sign, blanks around it, and single low lines between its digits. The
digits may be those of any script.
-/

namespace SceneSet.Integer

/-- Characters that may surround a number on a command line. -/
def isBlank (c : Char) : Bool :=
  let n := c.toNat
  (0x09 ≤ n && n ≤ 0x0d) || (0x2000 ≤ n && n ≤ 0x200a) ||
    [0x20, 0x85, 0xa0, 0x1680, 0x2028, 0x2029, 0x202f, 0x205f, 0x3000].contains n

/-- The zeros of the scripts that have decimal digits; the nine other digits follow each. -/
def scriptZeros : List Nat :=
  [0x30, 0x660, 0x6f0, 0x7c0, 0x966, 0x9e6, 0xa66, 0xae6, 0xb66, 0xbe6, 0xc66, 0xce6, 0xd66,
   0xde6, 0xe50, 0xed0, 0xf20, 0x1040, 0x1090, 0x17e0, 0x1810, 0x1946, 0x19d0, 0x1a80, 0x1a90,
   0x1b50, 0x1bb0, 0x1c40, 0x1c50, 0xa620, 0xa8d0, 0xa900, 0xa9d0, 0xa9f0, 0xaa50, 0xabf0,
   0xff10, 0x104a0, 0x10d30, 0x11066, 0x110f0, 0x11136, 0x111d0, 0x112f0, 0x11450, 0x114d0,
   0x11650, 0x116c0, 0x11730, 0x118e0, 0x11950, 0x11c50, 0x11d50, 0x11da0, 0x16a60, 0x16ac0,
   0x16b50, 0x1d7ce, 0x1d7d8, 0x1d7e2, 0x1d7ec, 0x1d7f6, 0x1e140, 0x1e2f0, 0x1e950, 0x1fbf0]

/-- The value of a decimal digit of any script. -/
def digit? (c : Char) : Option Nat :=
  scriptZeros.findSome? fun first =>
    if first ≤ c.toNat ∧ c.toNat < first + 10 then some (c.toNat - first) else none

/-- The longest run of digits that is read as a number. -/
def maxDigits : Nat := 4300

/-- The digits of a number: at least one, with at most one low line between two of them. -/
def digits? : List Char → Option (List Nat)
  | [] => none
  | [c] => (digit? c).map ([·])
  | c :: '_' :: rest => do pure ((← digit? c) :: (← digits? rest))
  | c :: d :: rest => do pure ((← digit? c) :: (← digits? (d :: rest)))

/-- A natural number, the digits being those of `digits?`. -/
def natural? (text : List Char) : Option Nat := do
  let ds ← digits? text
  if ds.length ≤ maxDigits then some (ds.foldl (10 * · + ·) 0) else none

/-- The integer that a text stands for. -/
def ofText? (text : String) : Option Int :=
  let inner := ((text.toList.dropWhile isBlank).reverse.dropWhile isBlank).reverse
  match inner with
  | '-' :: rest => (natural? rest).map fun n => -(n : Int)
  | '+' :: rest => (natural? rest).map Int.ofNat
  | all => (natural? all).map Int.ofNat

end SceneSet.Integer
