import SceneSet.Proofs.Json.Number
import SceneSet.Proofs.Number.Rounding
import SceneSet.Report
import Mathlib.Tactic.LinearCombination

/-!
# Numbers in reports

A number with a fixed count of decimal places is its exact value, rounded once: all its digits
together, without the point, make the integer nearest to the value in units of the last place, and
of two at the same distance the even one (`Binary.fixed_writes`). The sign is that of the number, on
zeros and on what is rounded to zero too. As rounding to nearest keeps the order of values
(`NearestEven.mono`), so do the numbers that are written (`Report.number_nearest`).
-/

namespace SceneSet.Number

/-! ### Nearest integers -/

/-- An integer nearest to a value, and even if another one is as near. -/
structure NearestEven (n : ℤ) (value : ℚ) : Prop where
  near : |(n : ℚ) - value| ≤ 1 / 2
  even : |(n : ℚ) - value| = 1 / 2 → Even n

/-- Nearest integers are ordered as the values are. -/
theorem NearestEven.mono {m n : ℤ} {first second : ℚ} (hm : NearestEven m first)
    (hn : NearestEven n second) (h : first ≤ second) : m ≤ n := by
  by_contra hlt
  obtain ⟨-, habove⟩ := abs_le.mp hm.near
  obtain ⟨hbelow, -⟩ := abs_le.mp hn.near
  have hstep : (n : ℚ) + 1 ≤ m := by exact_mod_cast not_le.mp hlt
  -- both values lie in the middle of two integers, of which the odd one would be taken once
  have hfirst : (m : ℚ) - first = 1 / 2 := by linarith
  have hsecond : (n : ℚ) - second = -(1 / 2) := by linarith
  have hnext : m = n + 1 := by
    have hcast : (m : ℚ) = n + 1 := by linarith
    exact_mod_cast hcast
  have hmEven : Even m := hm.even (by rw [hfirst, abs_of_pos (by norm_num)])
  have hnEven : Even n := hn.even (by rw [hsecond, abs_neg, abs_of_pos (by norm_num)])
  rw [hnext, Int.even_add_one] at hmEven
  exact hmEven hnEven

/-- The opposite integer is nearest to the opposite value. -/
theorem NearestEven.neg {n : ℤ} {value : ℚ} (h : NearestEven n value) :
    NearestEven (-n) (-value) := by
  have hdistance : |((-n : ℤ) : ℚ) - -value| = |(n : ℚ) - value| := by
    rw [Int.cast_neg, ← abs_neg]
    congr 1
    ring
  constructor
  · rw [hdistance]
    exact h.near
  · intro htie
    rw [hdistance] at htie
    exact (h.even htie).neg

/-- A quotient of natural numbers is rounded to the nearest integer, ties to even. -/
theorem nearestEven_roundQuotient (num : Nat) {den : Nat} (hden : 0 < den) :
    NearestEven (roundQuotient num den : Nat) (num / den) := by
  have hdenRat : (0 : ℚ) < den := by exact_mod_cast hden
  have hvalue : (num : ℚ) / den * den = num := div_mul_cancel₀ _ hdenRat.ne'
  constructor
  · obtain ⟨hbelow, habove⟩ := roundQuotient_near num hden
    rw [← Nat.cast_le (α := ℚ)] at hbelow habove
    push_cast at hbelow habove
    rw [← hvalue] at hbelow habove
    rw [Int.cast_natCast, abs_le]
    constructor
    · exact le_of_mul_le_mul_right (by linarith) hdenRat
    · exact le_of_mul_le_mul_right (by linarith) hdenRat
  · intro htie
    rw [Int.cast_natCast] at htie
    -- at this distance the remainder is half of the denominator
    have hdistance : 2 * (roundQuotient num den * den) = 2 * num + den ∨
        2 * (roundQuotient num den * den) + den = 2 * num := by
      rcases (abs_eq (by norm_num)).mp htie with hup | hdown
      · left
        have hcross : 2 * ((roundQuotient num den : ℚ) * den) = 2 * num + den := by
          rw [← hvalue]
          linear_combination 2 * (den : ℚ) * hup
        exact_mod_cast hcross
      · right
        have hcross : 2 * ((roundQuotient num den : ℚ) * den) + den = 2 * num := by
          rw [← hvalue]
          linear_combination 2 * (den : ℚ) * hdown
        exact_mod_cast hcross
    have hsplit := Nat.div_add_mod num den
    have hmod := Nat.mod_lt num hden
    rw [Nat.mul_comm] at hsplit
    rw [Int.even_coe_nat, Nat.even_iff]
    unfold roundQuotient at hdistance ⊢
    dsimp only at hdistance ⊢
    split_ifs at hdistance ⊢ with hlow hhigh heven
    · omega
    · rw [Nat.add_mul] at hdistance
      omega
    · exact heven
    · omega

/-! ### Texts with a point -/

/-- A text with a point: a sign or none, what stands before the point, and what stands behind it. -/
structure FixedText where
  negative : Bool
  whole : List Char
  decimals : List Char

namespace FixedText

/-- The characters of a text. -/
def text (t : FixedText) : List Char := Binary.signText t.negative ++ t.whole ++ '.' :: t.decimals

/-- The parts of some characters, at their first point. -/
def ofText (text : List Char) : FixedText :=
  let body := text.drop (if text.head? = some '-' then 1 else 0)
  { negative := text.head? = some '-'
    whole := body.takeWhile (· != '.')
    decimals := (body.dropWhile (· != '.')).drop 1 }

/-- The whole part has no superfluous leading zeros, and there are so many decimals. -/
structure IsNormal (places : Nat) (t : FixedText) : Prop where
  whole : Json.isWhole t.whole
  decimals : ∀ c ∈ t.decimals, c.isDigit = true
  length : t.decimals.length = places

/-- The integer that all digits make. -/
def scaled (t : FixedText) : Nat := Json.natural (t.whole ++ t.decimals)

/-- That integer with the sign. -/
def signed (t : FixedText) : ℤ := if t.negative then -(t.scaled : ℤ) else t.scaled

/-- The number that is written. -/
def value (t : FixedText) : ℚ := t.signed / 10 ^ t.decimals.length

/-- A text is taken apart again into the parts that it is made of. -/
theorem ofText_text {places : Nat} {t : FixedText} (h : t.IsNormal places) :
    ofText t.text = t := by
  obtain ⟨negative, whole, decimals⟩ := t
  obtain ⟨hne, hdigit⟩ := Json.isDigits_iff.mp (Json.isDigits_of_isWhole h.whole)
  have hpoint : ∀ c ∈ whole, (c != '.') = true := fun c hc => (Json.bne_of_isDigit (hdigit c hc)).2
  have htake : (whole ++ '.' :: decimals).takeWhile (· != '.') = whole := by
    rw [List.takeWhile_append_of_pos hpoint, List.takeWhile_cons_of_neg (by decide),
      List.append_nil]
  have hdrop : (whole ++ '.' :: decimals).dropWhile (· != '.') = '.' :: decimals := by
    rw [List.dropWhile_append_of_pos hpoint, List.dropWhile_cons_of_neg (by decide)]
  cases negative with
  | true =>
      show (⟨true, (whole ++ '.' :: decimals).takeWhile (· != '.'),
        ((whole ++ '.' :: decimals).dropWhile (· != '.')).drop 1⟩ : FixedText) = _
      rw [htake, hdrop]
      rfl
  | false =>
      obtain ⟨first, rest, rfl⟩ := List.exists_cons_of_ne_nil hne
      have hsign : first ≠ '-' := by
        rintro rfl
        exact absurd (hdigit '-' List.mem_cons_self) (by decide)
      have hhead : (text ⟨false, first :: rest, decimals⟩).head? ≠ some '-' := by
        simpa [text, Binary.signText] using hsign
      unfold ofText
      rw [if_neg hhead, decide_eq_false hhead]
      show (⟨false, ((first :: rest) ++ '.' :: decimals).takeWhile (· != '.'),
        (((first :: rest) ++ '.' :: decimals).dropWhile (· != '.')).drop 1⟩ : FixedText) = _
      rw [htake, hdrop]
      rfl

/-- The text writes a number with so many decimal places, rounded once from its exact value. -/
structure Writes {f : Format} (t : FixedText) (places : Nat) (x : Binary f) : Prop where
  normal : t.IsNormal places
  negative : t.negative = x.isNegative
  nearest : NearestEven t.scaled (|x.toRat| * 10 ^ places)

variable {f : Format} {places : Nat} {t u : FixedText} {x y : Binary f}

/-- With its sign, what is written is nearest to the value with its sign. -/
theorem Writes.nearestEven_signed (h : t.Writes places x) (hx : x.isFinite) :
    NearestEven t.signed (x.toRat * 10 ^ places) := by
  obtain ⟨negative, code, rfl⟩ := Binary.exists_eq_finite hx
  have hmagnitude : 0 ≤ f.magnitude code := by
    rw [f.magnitude_eq_mul_unit]
    exact mul_nonneg (Nat.cast_nonneg _) f.unit_pos.le
  have hnearest := h.nearest
  unfold signed
  rw [h.negative]
  cases negative with
  | true =>
      have hvalue : (Binary.finite true code).toRat = -f.magnitude code := rfl
      rw [hvalue, abs_neg, abs_of_nonneg hmagnitude] at hnearest
      rw [hvalue, neg_mul]
      exact hnearest.neg
  | false =>
      have hvalue : (Binary.finite false code).toRat = f.magnitude code := rfl
      rw [hvalue, abs_of_nonneg hmagnitude] at hnearest
      exact hnearest

/-- Greater numbers are not written as less. -/
theorem Writes.mono (ht : t.Writes places x) (hu : u.Writes places y) (hx : x.isFinite)
    (hy : y.isFinite) (h : x.toRat ≤ y.toRat) : t.value ≤ u.value := by
  have hpower : (0 : ℚ) ≤ 10 ^ places := by positivity
  have hsigned : t.signed ≤ u.signed :=
    (ht.nearestEven_signed hx).mono (hu.nearestEven_signed hy)
      (mul_le_mul_of_nonneg_right h hpower)
  unfold value
  rw [ht.normal.length, hu.normal.length]
  exact div_le_div_of_nonneg_right (by exact_mod_cast hsigned) hpower

/-- The text of an integer with a point before its last digits. -/
def ofScaled (places : Nat) (negative : Bool) (scaled : Nat) : FixedText where
  negative := negative
  whole := Numeral.digits (scaled / Nat.pow 10 places)
  decimals := Numeral.zeroPad places (Numeral.digits (scaled % Nat.pow 10 places))

theorem isNormal_ofScaled (hplaces : 0 < places) (negative : Bool) (scaled : Nat) :
    (ofScaled places negative scaled).IsNormal places where
  whole := Json.isWhole_digits _
  decimals := (Json.isDigits_iff.mp (Json.isDigits_zeroPad places _).1).2
  length := by
    have hmod : scaled % Nat.pow 10 places < 10 ^ places := Nat.mod_lt _ (Nat.pow_pos (by decide))
    have hfits := (Nat.length_toDigits_le_iff (by decide) hplaces).mpr hmod
    show (List.replicate _ '0' ++ Nat.toDigits 10 _).length = places
    rw [List.length_append, List.length_replicate]
    exact Nat.sub_add_cancel hfits

theorem scaled_ofScaled (hplaces : 0 < places) (negative : Bool) (n : Nat) :
    (ofScaled places negative n).scaled = n := by
  have hlength := (isNormal_ofScaled hplaces negative n).length
  have hdecimals := (Json.isDigits_zeroPad places (n % Nat.pow 10 places)).2
  unfold scaled
  rw [Json.natural_append, hlength]
  show 10 ^ places * Json.natural (Numeral.digits _) + Json.natural (Numeral.zeroPad _ _) = n
  rw [hdecimals, Json.natural_digits]
  exact Nat.div_add_mod n (10 ^ places)

end FixedText

/-- A finite number is written with so many decimal places, all of them rounded at once. -/
theorem Binary.fixed_writes {f : Format} {places : Nat} (hplaces : 0 < places) {x : Binary f}
    (hx : x.isFinite) : ∃ t : FixedText, t.text = (x.fixed places).toList ∧ t.Writes places x := by
  obtain ⟨negative, code, rfl⟩ := exists_eq_finite hx
  refine ⟨.ofScaled places negative (roundQuotient (f.units code * Nat.pow 10 places)
    (1 <<< f.scale)), ?_, FixedText.isNormal_ofScaled hplaces negative _, rfl, ?_⟩
  · show _ = (String.ofList _).toList
    rw [String.toList_ofList, FixedText.text]
    simp only [List.append_assoc, List.singleton_append]
    rfl
  · have hvalue : |(finite negative code).toRat| * (10 : ℚ) ^ places =
        ((f.units code * Nat.pow 10 places : Nat) : ℚ) / (1 <<< f.scale : Nat) := by
      rw [abs_toRat_finite, Format.unit, Nat.one_shiftLeft]
      push_cast [Nat.pow_eq]
      ring
    rw [FixedText.scaled_ofScaled hplaces, hvalue]
    refine nearestEven_roundQuotient _ ?_
    rw [Nat.one_shiftLeft]
    exact Nat.two_pow_pos _

end SceneSet.Number

namespace SceneSet.Report

open Number

/-- The parts of a number in a report. -/
def parts (x : Double) : FixedText := .ofText (number x).toList

/-- Every finite number is written as a sign or none, a whole part, a point, and six decimals. The
sign is its own, and the digits make the integer nearest to the millions of its magnitude, ties to
even. So what is written is ordered as the numbers are. What is not finite has a name. -/
theorem number_nearest :
    (∀ x : Double, x.isFinite → (parts x).text = (number x).toList ∧ (parts x).Writes 6 x) ∧
      (∀ x y : Double, x.isFinite → y.isFinite → x.toRat ≤ y.toRat →
        (parts x).value ≤ (parts y).value) ∧
      number .nan = "nan" ∧ number (.infinite false) = "inf" ∧
      number (.infinite true) = "-inf" := by
  have hwrites : ∀ x : Double, x.isFinite →
      (parts x).text = (number x).toList ∧ (parts x).Writes 6 x := by
    intro x hx
    obtain ⟨t, htext, ht⟩ := Binary.fixed_writes (show 0 < 6 by decide) hx
    have hparts : parts x = t := by
      show FixedText.ofText (x.fixed 6).toList = t
      rw [← htext, FixedText.ofText_text ht.normal]
    rw [hparts]
    exact ⟨htext, ht⟩
  refine ⟨hwrites, fun x y hx hy h => ?_, rfl, rfl, rfl⟩
  exact (hwrites x hx).2.mono (hwrites y hy).2 hx hy h

/-- The numbers `2 ^ -7` and `3 * 2 ^ -7` lie in the middle of two millionths, and go to the even
one below and above; a number that is far smaller keeps its sign. -/
theorem number_nearest_ties :
    let low : Double := .ofBits 0x3f80000000000000
    let high : Double := .ofBits 0x3f98000000000000
    let tiny : Double := .ofBits 0xbe112e0be826d695
    low.isFinite ∧ high.isFinite ∧ tiny.isFinite ∧ low.toRat ≤ high.toRat ∧
      number low = "0.007812" ∧ number high = "0.023438" ∧ number tiny = "-0.000000" ∧
      (parts low).Writes 6 low ∧ (parts tiny).Writes 6 tiny ∧
      (parts low).value ≤ (parts high).value := by
  intro low high tiny
  have hlow : low.isFinite := by decide +kernel
  have hhigh : high.isFinite := by decide +kernel
  have htiny : tiny.isFinite := by decide +kernel
  have hle : low.toRat ≤ high.toRat := by decide +kernel
  obtain ⟨hwrites, hmono, -⟩ := number_nearest
  exact ⟨hlow, hhigh, htiny, hle, by decide +kernel, by decide +kernel, by decide +kernel,
    (hwrites low hlow).2, (hwrites tiny htiny).2, hmono low high hlow hhigh hle⟩

end SceneSet.Report
