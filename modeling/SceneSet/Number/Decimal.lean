import SceneSet.Number.Binary
import SceneSet.Text.Numeral

/-!
# Decimal text of binary numbers

Two ways to write a binary number. `fixed` rounds the exact value to a given count of decimal
places, ties to even. `shortest` writes the fewest digits that read back as the same number and,
among those, the digits nearest to its exact value.
-/

namespace SceneSet.Number

open Numeral (digits zeroPad)

/-- A non-negative decimal number, `digits * 10 ^ exponent`. -/
structure Decimal where
  digits : Nat
  exponent : Int
  deriving DecidableEq

namespace Decimal

/-- The least and the greatest exponent of ten that are written without an exponent. -/
def positionalLow : Int := -4

@[inherit_doc positionalLow]
def positionalHigh : Int := 15

/-- Trailing zeros removed. -/
def stripZeros (text : List Char) : List Char :=
  (text.reverse.dropWhile (· == '0')).reverse

/-- The digits with a point after `point` of them, and a digit on either side of it. -/
def positional (text : List Char) (point : Int) : List Char :=
  if point ≤ 0 then
    ['0', '.'] ++ List.replicate (-point).toNat '0' ++ text
  else if text.length ≤ point then
    text ++ List.replicate (point.toNat - text.length) '0' ++ ['.', '0']
  else
    text.take point.toNat ++ ['.'] ++ text.drop point.toNat

/-- The digits with a point after the first, if there are more, and a signed exponent of at least
two digits. -/
def scientific (text : List Char) (exponent : Int) : List Char :=
  let fraction := text.drop 1
  text.take 1 ++ (if fraction.isEmpty then [] else '.' :: fraction)
    ++ ['e', if exponent < 0 then '-' else '+']
    ++ zeroPad 2 (Numeral.digits exponent.natAbs)

/-- The text of a positive decimal number: positional for moderate exponents of its first digit,
scientific for the others. -/
def text (d : Decimal) : List Char :=
  let all := Numeral.digits d.digits
  let point := all.length + d.exponent
  if positionalLow ≤ point - 1 ∧ point - 1 ≤ positionalHigh then
    positional (stripZeros all) point
  else
    scientific (stripZeros all) (point - 1)

/-- Numerator of a decimal number as a fraction of natural numbers. -/
def num (d : Decimal) : Nat := d.digits * Nat.pow 10 d.exponent.toNat

/-- Denominator of a decimal number as a fraction of natural numbers. -/
def den (d : Decimal) : Nat := Nat.pow 10 (-d.exponent).toNat

/-- The greatest exponent `k` with `10 ^ k ≤ num / den`. -/
def leadingExponent (num den : Nat) : Int :=
  if den ≤ num then (Numeral.digits (num / den)).length - 1
  else -((Numeral.digits ((den - 1) / num)).length : Int)

/-- The code of the magnitude of the format that a decimal number reads as. -/
def code (f : Format) (d : Decimal) : Nat :=
  f.nearestCode (d.num <<< f.scale) d.den

/-- The neighbours of `num / den` on the grid of multiples of `10 ^ exponent`, the nearer one
first; of two at the same distance the even one first. -/
def neighbours (num den : Nat) (exponent : Int) : List Decimal :=
  let scaledNum := num * Nat.pow 10 (-exponent).toNat
  let scaledDen := den * Nat.pow 10 exponent.toNat
  let low := scaledNum / scaledDen
  let nearer := roundQuotient scaledNum scaledDen
  let other := if nearer = low then low + 1 else low
  [⟨nearer, exponent⟩, ⟨other, exponent⟩]

/-- The shortest decimal number that reads as a positive magnitude of the format, searched among
those with at most `maxDigits` digits; the nearest with `maxDigits` digits if none does. -/
def shortest (f : Format) (maxDigits : Nat) (magnitudeCode : Nat) : Decimal :=
  let num := f.units magnitudeCode
  let den := 1 <<< f.scale
  let lead := leadingExponent num den
  let grid (count : Nat) : List Decimal := neighbours num den (lead + 1 - count)
  let hit := (List.range' 1 maxDigits).findSome? fun count =>
    (grid count).find? fun d => d.code f == magnitudeCode
  hit.getD ((grid maxDigits).headD ⟨0, 0⟩)

end Decimal

namespace Binary

variable {f : Format}

/-- The sign of a number as it is written. -/
def signText (negative : Bool) : List Char := if negative then ['-'] else []

/-- The number with a fixed count of decimal places, rounded from its exact value, ties to even.
The sign is kept on zeros. -/
def fixed (places : Nat) : Binary f → String
  | .nan => "nan"
  | .infinite negative => String.ofList (signText negative ++ ['i', 'n', 'f'])
  | .finite negative code =>
      let scaled := roundQuotient (f.units code * Nat.pow 10 places) (1 <<< f.scale)
      String.ofList <| signText negative ++ digits (scaled / Nat.pow 10 places) ++ ['.']
        ++ zeroPad places (digits (scaled % Nat.pow 10 places))

/-- The shortest text that reads back as the same number. Seventeen digits are always enough for
a 64-bit number. -/
def shortest : Double → String
  | .nan => "NaN"
  | .infinite negative => String.ofList (signText negative ++ "Infinity".toList)
  | .finite negative code =>
      String.ofList <| signText negative ++
        if code.val = 0 then ['0', '.', '0'] else (Decimal.shortest .double 17 code).text

end Binary

end SceneSet.Number
