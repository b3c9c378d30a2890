import SceneSet.Json
import Mathlib.Algebra.Order.Ring.Nat

/-!
# Reading the strings of JSON texts

Between its delimiters a string of a JSON text is made of characters and of escapes.
`Json.unescape?` reads these as code units, and then the code units as characters, a pair of
surrogates as one. It reads every text back from its escaped form (`Json.unescape?_flatMap`),
characters beyond the first 65536 included.
-/

namespace SceneSet.Json

/-! ### Numbers in base sixteen -/

/-- The value of a digit in base sixteen. -/
def hexDigit? (c : Char) : Option Nat :=
  if '0' ≤ c ∧ c ≤ '9' then some (c.toNat - 48)
  else if 'a' ≤ c ∧ c ≤ 'f' then some (c.toNat - 87)
  else if 'A' ≤ c ∧ c ≤ 'F' then some (c.toNat - 55)
  else none

/-- The number that digits in base sixteen continue. -/
def hexFrom? (number : Nat) : List Char → Option Nat
  | [] => some number
  | c :: text => do hexFrom? (16 * number + (← hexDigit? c)) text

/-- The number of some digits in base sixteen. -/
def hexNumber? (text : List Char) : Option Nat := hexFrom? 0 text

theorem hexDigit?_digitChar : ∀ n < 16, hexDigit? n.digitChar = some n := by decide

theorem hexFrom?_append (number : Nat) (first second : List Char) :
    hexFrom? number (first ++ second) = (hexFrom? number first).bind (hexFrom? · second) := by
  induction first generalizing number with
  | nil => rfl
  | cons c first ih =>
      simp only [List.cons_append, hexFrom?]
      cases hexDigit? c with
      | none => rfl
      | some digit => exact ih _

theorem hexNumber?_lowerHex (n : Nat) : hexNumber? (Numeral.lowerHex n) = some n := by
  unfold hexNumber? Numeral.lowerHex
  induction n using Nat.strongRecOn with
  | ind n ih =>
      rcases Nat.lt_or_ge n 16 with hsmall | hlarge
      · rw [Nat.toDigits_of_lt_base hsmall]
        simp [hexFrom?, hexDigit?_digitChar n hsmall]
      · rw [Nat.toDigits_of_base_le (by decide) hlarge, hexFrom?_append, ih _ (by omega)]
        simp only [Option.bind_some, hexFrom?, hexDigit?_digitChar _ (Nat.mod_lt n (by decide))]
        show some (16 * (n / 16) + n % 16) = some n
        rw [Nat.div_add_mod]

theorem hexFrom?_replicate (count : Nat) : hexFrom? 0 (List.replicate count '0') = some 0 := by
  induction count with
  | zero => rfl
  | succ count ih => exact ih

/-- Zeros in front of a number do not change it. -/
theorem hexNumber?_zeroPad (width n : Nat) :
    hexNumber? (Numeral.zeroPad width (Numeral.lowerHex n)) = some n := by
  unfold Numeral.zeroPad List.leftpad hexNumber?
  rw [hexFrom?_append, hexFrom?_replicate]
  exact hexNumber?_lowerHex n

/-- A number that fits is padded up to the width. -/
theorem length_zeroPad {width n : Nat} (hwidth : 0 < width) (h : n < 16 ^ width) :
    (Numeral.zeroPad width (Numeral.lowerHex n)).length = width := by
  have hle : (Numeral.lowerHex n).length ≤ width :=
    (Nat.length_toDigits_le_iff (by decide) hwidth).mpr h
  unfold Numeral.zeroPad
  rw [List.length_leftpad]
  omega

theorem mem_lowerHex {n : Nat} {c : Char} (h : c ∈ Numeral.lowerHex n) :
    ∃ digit < 16, c = digit.digitChar := by
  unfold Numeral.lowerHex at h
  induction n using Nat.strongRecOn with
  | ind n ih =>
      rcases Nat.lt_or_ge n 16 with hsmall | hlarge
      · rw [Nat.toDigits_of_lt_base hsmall, List.mem_singleton] at h
        exact ⟨n, hsmall, h⟩
      · rw [Nat.toDigits_of_base_le (by decide) hlarge, List.mem_append, List.mem_singleton] at h
        rcases h with hc | hc
        · exact ih (n / 16) (by omega) hc
        · exact ⟨n % 16, Nat.mod_lt n (by decide), hc⟩

/-- The characters of a padded number are digits. -/
theorem mem_zeroPad {width n : Nat} {c : Char}
    (h : c ∈ Numeral.zeroPad width (Numeral.lowerHex n)) : ∃ digit < 16, c = digit.digitChar := by
  unfold Numeral.zeroPad List.leftpad at h
  rcases List.mem_append.mp h with hc | hc
  · exact ⟨0, by decide, List.eq_of_mem_replicate hc⟩
  · exact mem_lowerHex hc

/-! ### Characters and code units -/

/-- The character with this number. -/
def character? (n : Nat) : Option Char := if n.isValidChar then some (Char.ofNat n) else none

/-- The code unit of an escape of one letter. -/
def shortEscape? : Char → Option Nat
  | '"' => some 0x22
  | '\\' => some 0x5c
  | '/' => some 0x2f
  | 'b' => some 0x08
  | 'f' => some 0x0c
  | 'n' => some 0x0a
  | 'r' => some 0x0d
  | 't' => some 0x09
  | _ => none

/-- The code units of the inside of a string. Control characters have to be escaped. -/
def codeUnits? : List Char → Option (List Nat)
  | [] => some []
  | c :: text =>
      if c = '\\' then
        match text with
        | [] => none
        | 'u' :: first :: second :: third :: fourth :: rest => do
            let unit ← hexNumber? [first, second, third, fourth]
            pure (unit :: (← codeUnits? rest))
        | letter :: rest => do
            let unit ← shortEscape? letter
            pure (unit :: (← codeUnits? rest))
      else if c.toNat < 0x20 then none
      else do pure (c.toNat :: (← codeUnits? text))

/-- The characters of some code units. A pair of surrogates is one character. -/
def characters? : List Nat → Option (List Char)
  | [] => some []
  | [unit] => do pure [← character? unit]
  | unit :: next :: rest =>
      if (0xd800 ≤ unit ∧ unit < 0xdc00) ∧ 0xdc00 ≤ next ∧ next < 0xe000 then do
        let c ← character? (0x10000 + 0x400 * (unit - 0xd800) + (next - 0xdc00))
        pure (c :: (← characters? rest))
      else do
        let c ← character? unit
        pure (c :: (← characters? (next :: rest)))

/-- The characters of the inside of a string. -/
def unescape? (text : List Char) : Option (List Char) := codeUnits? text >>= characters?

/-- The code units of a character. -/
def unitsOf (c : Char) : List Nat :=
  if c.toNat < 0x10000 then [c.toNat]
  else [0xd800 + (c.toNat - 0x10000) / 0x400, 0xdc00 + (c.toNat - 0x10000) % 0x400]

theorem character?_toNat (c : Char) : character? c.toNat = some c := by
  have hvalid : c.toNat.isValidChar := c.valid
  rw [character?, if_pos hvalid, Char.ofNat_toNat]

/-- A character that has one code unit is no surrogate. -/
theorem characters?_unitsOf (c : Char) (units : List Nat) :
    characters? (unitsOf c ++ units) = (characters? units).map (c :: ·) := by
  have hcharacter := character?_toNat c
  have hvalid : c.toNat.isValidChar := c.valid
  unfold unitsOf
  split
  · rename_i hsmall
    cases units with
    | nil => simp [characters?, hcharacter]
    | cons next rest =>
        have hsurrogate :
            ¬ ((0xd800 ≤ c.toNat ∧ c.toNat < 0xdc00) ∧ 0xdc00 ≤ next ∧ next < 0xe000) := by
          rcases hvalid with h | h <;> omega
        rw [List.singleton_append, characters?, if_neg hsurrogate, hcharacter]
        cases characters? (next :: rest) <;> rfl
  · rename_i hlarge
    have hlimit : c.toNat < 0x110000 := by
      rcases hvalid with h | h <;> omega
    have hpair : 0x10000 + 0x400 * (0xd800 + (c.toNat - 0x10000) / 0x400 - 0xd800) +
        (0xdc00 + (c.toNat - 0x10000) % 0x400 - 0xdc00) = c.toNat := by omega
    rw [List.cons_append, List.singleton_append, characters?, if_pos (by omega), hpair, hcharacter]
    cases characters? units <;> rfl

theorem codeUnits?_short {letter : Char} {unit : Nat} (h : shortEscape? letter = some unit)
    (rest : List Char) :
    codeUnits? ('\\' :: letter :: rest) = (codeUnits? rest).map (unit :: ·) := by
  have hletter : letter ≠ 'u' := by
    rintro rfl
    cases h
  rw [codeUnits?, if_pos rfl, h]
  · cases codeUnits? rest <;> rfl
  · rintro first second third fourth others rfl
    exact absurd rfl hletter

theorem codeUnits?_unitEscape {unit : Nat} (h : unit < 0x10000) (rest : List Char) :
    codeUnits? (unitEscape unit ++ rest) = (codeUnits? rest).map (unit :: ·) := by
  have hlength := length_zeroPad (by decide) (show unit < 16 ^ 4 from h)
  have hnumber := hexNumber?_zeroPad 4 unit
  unfold unitEscape
  match hdigits : Numeral.zeroPad 4 (Numeral.lowerHex unit), hlength with
  | [first, second, third, fourth], _ =>
      rw [hdigits] at hnumber
      show codeUnits? ('\\' :: 'u' :: first :: second :: third :: fourth :: rest) = _
      simp only [codeUnits?, if_true, hnumber]
      cases codeUnits? rest <;> rfl

theorem codeUnits?_plain {c : Char} (hescape : c ≠ '\\') (hcontrol : 0x20 ≤ c.toNat)
    (rest : List Char) :
    codeUnits? (c :: rest) = (codeUnits? rest).map (c.toNat :: ·) := by
  rw [codeUnits?.eq_def]
  dsimp only
  rw [if_neg hescape, if_neg (Nat.not_lt.mpr hcontrol)]
  cases codeUnits? rest <;> rfl

/-- How a character is written: as it is, as a backslash and a letter, as a code unit, or as two. -/
inductive Escaped (c : Char) : List Char → Prop where
  | plain : c ≠ '"' → c ≠ '\\' → 0x20 ≤ c.toNat → c.toNat < 0x7f → Escaped c [c]
  | letter {letter : Char} : shortEscape? letter = some c.toNat → c.toNat < 0x10000 →
      letter.toNat < 128 → Escaped c ['\\', letter]
  | unit : c.toNat < 0x10000 → Escaped c (unitEscape c.toNat)
  | pair : 0x10000 ≤ c.toNat → c.toNat < 0x110000 →
      Escaped c (unitEscape (0xd800 + (c.toNat - 0x10000) / 0x400)
        ++ unitEscape (0xdc00 + (c.toNat - 0x10000) % 0x400))

theorem escaped_letter {c letter : Char} {n : Nat} (hc : c.toNat = n)
    (hunit : shortEscape? letter = some n) (hsmall : n < 128) (hletter : letter.toNat < 128) :
    Escaped c ['\\', letter] := .letter (hc ▸ hunit) (by omega) hletter

theorem escaped_escape (c : Char) : Escaped c (escape c) := by
  have hvalid : c.toNat.isValidChar := c.valid
  unfold escape
  dsimp only
  split
  · rename_i hc
    exact escaped_letter (hc ▸ rfl) rfl (by decide) (by decide)
  split
  · rename_i hc
    exact escaped_letter (hc ▸ rfl) rfl (by decide) (by decide)
  split
  · rename_i hc
    exact escaped_letter (hc ▸ rfl) rfl (by decide) (by decide)
  split
  · rename_i hc
    exact escaped_letter (hc ▸ rfl) rfl (by decide) (by decide)
  split
  · rename_i hc
    exact escaped_letter (hc ▸ rfl) rfl (by decide) (by decide)
  split
  · rename_i hc
    exact escaped_letter hc rfl (by decide) (by decide)
  split
  · rename_i hc
    exact escaped_letter hc rfl (by decide) (by decide)
  split
  · rename_i hquote hescape _ _ _ _ _ hplain
    exact .plain hquote hescape hplain.1 (by omega)
  split
  · rename_i hsmall
    exact .unit hsmall
  · refine .pair (by omega) ?_
    rcases hvalid with h | h <;> omega

/-- The code units of a character are read back from its escaped form. -/
theorem codeUnits?_escape (c : Char) (rest : List Char) :
    codeUnits? (escape c ++ rest) = (codeUnits? rest).map (unitsOf c ++ ·) := by
  have h := escaped_escape c
  generalize escape c = text at h ⊢
  unfold unitsOf
  cases h with
  | plain hquote hescape hlow hhigh =>
      rw [if_pos (by omega)]
      exact codeUnits?_plain hescape hlow rest
  | letter hunit hsmall hletter =>
      rw [if_pos hsmall]
      exact codeUnits?_short hunit rest
  | unit hsmall =>
      rw [if_pos hsmall]
      exact codeUnits?_unitEscape hsmall rest
  | pair hlarge hlimit =>
      rw [if_neg (by omega), List.append_assoc, codeUnits?_unitEscape (by omega),
        codeUnits?_unitEscape (by omega), Option.map_map]
      rfl

theorem codeUnits?_flatMap (text : List Char) :
    codeUnits? (text.flatMap escape) = some (text.flatMap unitsOf) := by
  induction text with
  | nil => rfl
  | cons c text ih =>
      rw [List.flatMap_cons, List.flatMap_cons, codeUnits?_escape, ih, Option.map_some]

theorem characters?_flatMap (text : List Char) :
    characters? (text.flatMap unitsOf) = some text := by
  induction text with
  | nil => rfl
  | cons c text ih => rw [List.flatMap_cons, characters?_unitsOf, ih, Option.map_some]

/-- Every text is read back from its escaped form. -/
theorem unescape?_flatMap (text : List Char) : unescape? (text.flatMap escape) = some text := by
  rw [unescape?, codeUnits?_flatMap]
  exact characters?_flatMap text

end SceneSet.Json
