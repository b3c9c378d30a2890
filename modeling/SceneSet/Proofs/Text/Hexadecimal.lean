import SceneSet.Proofs.Json.Escapes
import SceneSet.Proofs.Text.Numeral

/-!
# Numerals in base sixteen

Numbers in base sixteen are made of printable characters without blanks (`printable_upperHex`,
`blank_not_mem_upperHex`), and they are read back, with capital letters too (`hexNumber?_upperHex`).
-/

namespace SceneSet.Numeral

theorem hexDigit?_toUpper : ∀ n < 16,
    Json.hexDigit? n.digitChar.toUpper = Json.hexDigit? n.digitChar ∧
      n.digitChar.toUpper ≠ ' ' := by
  decide

theorem isAsciiPrintable_digitChar : ∀ n < 16,
    Quoted.isAsciiPrintable n.digitChar = true ∧
      Quoted.isAsciiPrintable n.digitChar.toUpper = true := by
  decide

/-- Numbers in base sixteen are read with capital letters too. -/
theorem hexFrom?_map_toUpper {text : List Char} (h : ∀ c ∈ text, ∃ digit < 16, c = digit.digitChar)
    (number : Nat) : Json.hexFrom? number (text.map Char.toUpper) = Json.hexFrom? number text := by
  induction text generalizing number with
  | nil => rfl
  | cons c text ih =>
      obtain ⟨digit, hdigit, hc⟩ := h c List.mem_cons_self
      have hvalue := (hexDigit?_toUpper digit hdigit).1
      rw [← hc] at hvalue
      rw [List.map_cons, Json.hexFrom?, Json.hexFrom?, hvalue]
      cases Json.hexDigit? c with
      | none => rfl
      | some value => exact ih (fun d hd => h d (List.mem_cons_of_mem c hd)) _

/-- A natural number with capital letters is the one with small letters, changed at the end. -/
theorem toList_upperHex (width n : Nat) :
    (upperHex width n).toList = (zeroPad width (lowerHex n)).map Char.toUpper := by
  unfold upperHex zeroPad List.leftpad
  dsimp only
  rw [if_neg (by omega), String.toList_ofList, List.map_append, List.map_replicate, List.length_map]
  rfl

theorem hexNumber?_upperHex (width n : Nat) :
    Json.hexNumber? (upperHex width n).toList = some n := by
  rw [toList_upperHex]
  exact (hexFrom?_map_toUpper (fun c hc => Json.mem_zeroPad hc) 0).trans
    (Json.hexNumber?_zeroPad width n)

theorem upperHex_injective {width n m : Nat} (h : upperHex width n = upperHex width m) : n = m :=
  Option.some.inj ((hexNumber?_upperHex width n).symm.trans (h ▸ hexNumber?_upperHex width m))

theorem blank_not_mem_upperHex (width n : Nat) : ' ' ∉ (upperHex width n).toList := by
  rw [toList_upperHex]
  intro hmem
  obtain ⟨c, hc, hblank⟩ := List.mem_map.mp hmem
  obtain ⟨digit, hdigit, rfl⟩ := Json.mem_zeroPad hc
  exact (hexDigit?_toUpper digit hdigit).2 hblank

theorem printable_lowerHex (n : Nat) : Printable (lowerHex n) := by
  intro c hc
  obtain ⟨digit, hdigit, rfl⟩ := Json.mem_lowerHex hc
  exact (isAsciiPrintable_digitChar digit hdigit).1

theorem printable_upperHex (width n : Nat) : Printable (upperHex width n).toList := by
  rw [toList_upperHex]
  intro c hc
  obtain ⟨c, hmem, rfl⟩ := List.mem_map.mp hc
  obtain ⟨digit, hdigit, rfl⟩ := Json.mem_zeroPad hmem
  exact (isAsciiPrintable_digitChar digit hdigit).2

end SceneSet.Numeral
