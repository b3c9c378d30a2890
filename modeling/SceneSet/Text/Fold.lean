/-!
# Letter case

Names in archives are compared without regard to case. They hold only the first 256 characters of
Unicode, so small letters are needed for those and for the few others whose small letters lie
among them; every other character stays, and as it is none of the first 256 no name has it.
-/

namespace SceneSet.Fold

/-- The small letters for one character. -/
def lowerChar (c : Char) : List Char :=
  let n := c.toNat
  if 0x41 ≤ n ∧ n ≤ 0x5a then [Char.ofNat (n + 0x20)]
  else if 0xc0 ≤ n ∧ n ≤ 0xde ∧ n ≠ 0xd7 then [Char.ofNat (n + 0x20)]
  else if n = 0x130 then ['i', '\u0307']
  else if n = 0x178 then ['\u00ff']
  else if n = 0x1e9e then ['\u00df']
  else if n = 0x212a then ['k']
  else if n = 0x212b then ['\u00e5']
  else [c]

/-- A text in small letters. -/
def lower (text : List Char) : List Char := text.flatMap lowerChar

end SceneSet.Fold
