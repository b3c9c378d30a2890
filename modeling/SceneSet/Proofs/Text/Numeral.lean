import SceneSet.Number.Decimal
import SceneSet.Text.Quoted

/-!
# Characters of numerals

Numerals are made of printable characters: digits, and for some numbers a sign, a point, or the
letters of `nan` and `inf` (`printable_fixed`, `printable_decimal`). An integer is read back from
its decimal numeral (`ofDecimal_decimal`).
-/

namespace SceneSet.Numeral

/-- All characters are printable ones of the first 128. -/
def Printable (text : List Char) : Prop := ∀ c ∈ text, Quoted.isAsciiPrintable c = true

instance (text : List Char) : Decidable (Printable text) := List.decidableBAll _ text

theorem Printable.append {first second : List Char} (h : Printable first)
    (hsecond : Printable second) : Printable (first ++ second) :=
  List.forall_mem_append.mpr ⟨h, hsecond⟩

/-- A printable text has none of the characters that are not printable, such as line feeds. -/
theorem Printable.not_mem {text : List Char} (h : Printable text) {c : Char}
    (hc : Quoted.isAsciiPrintable c = false) : c ∉ text := fun hmem => by
  rw [h c hmem] at hc
  cases hc

theorem printable_digits (n : Nat) : Printable (digits n) := by
  intro c hc
  have hdigit : c.isDigit = true := Nat.isDigit_of_mem_toDigits (by decide) (by decide) hc
  simp only [Char.isDigit, ge_iff_le, Bool.and_eq_true, decide_eq_true_eq] at hdigit
  have hlow : 48 ≤ c.toNat := hdigit.1
  have hhigh : c.toNat ≤ 57 := hdigit.2
  simp only [Quoted.isAsciiPrintable, Bool.and_eq_true, decide_eq_true_eq]
  omega

theorem blank_not_mem_digits (n : Nat) : ' ' ∉ digits n := fun hmem =>
  absurd (Nat.isDigit_of_mem_toDigits (by decide) (by decide) hmem) (by decide)

theorem printable_zeroPad {text : List Char} (h : Printable text) (width : Nat) :
    Printable (zeroPad width text) := by
  refine Printable.append (fun c hc => ?_) h
  rw [List.eq_of_mem_replicate hc]
  decide

theorem printable_decimal (n : Int) : Printable (decimal n) := by
  refine Printable.append ?_ (printable_digits _)
  split <;> decide

/-- A number with a fixed count of decimal places is printable. -/
theorem printable_fixed {f : Number.Format} (places : Nat) (x : Number.Binary f) :
    Printable (x.fixed places).toList := by
  have hsign : ∀ negative, Printable (Number.Binary.signText negative) := by
    intro negative
    cases negative <;> decide
  cases x with
  | nan =>
      show Printable "nan".toList
      decide
  | infinite negative =>
      show Printable (String.ofList _).toList
      rw [String.toList_ofList]
      exact (hsign negative).append (by decide)
  | finite negative code =>
      show Printable (String.ofList _).toList
      rw [String.toList_ofList]
      exact (((hsign negative).append (printable_digits _)).append (by decide)).append
        (printable_zeroPad (printable_digits _) places)

/-- The integer of a decimal numeral. -/
def ofDecimal : List Char → Int
  | '-' :: text => -(Nat.ofDigitChars 10 text 0 : Int)
  | text => Nat.ofDigitChars 10 text 0

/-- An integer is read back from its numeral. -/
theorem ofDecimal_decimal (n : Int) : ofDecimal (decimal n) = n := by
  have hdigits : Nat.ofDigitChars 10 (digits n.natAbs) 0 = n.natAbs :=
    Nat.ofDigitChars_ten_toDigits
  unfold decimal
  by_cases hnegative : n < 0
  · rw [if_pos hnegative]
    show -(Nat.ofDigitChars 10 (digits n.natAbs) 0 : Int) = n
    rw [hdigits]
    omega
  · rw [if_neg hnegative, List.nil_append]
    have hnumber : (Nat.ofDigitChars 10 (digits n.natAbs) 0 : Int) = n := by
      rw [hdigits]
      omega
    unfold ofDecimal
    split
    · rename_i text htext
      -- a numeral of digits does not begin with a sign
      have hsign : '-' ∈ digits n.natAbs := by
        rw [htext]
        exact List.mem_cons_self
      have hdigit : '-'.isDigit = true :=
        Nat.isDigit_of_mem_toDigits (by decide) (by decide) hsign
      exact absurd hdigit (by decide)
    · exact hnumber

end SceneSet.Numeral
