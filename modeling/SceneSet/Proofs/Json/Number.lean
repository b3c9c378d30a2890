import SceneSet.Json
import SceneSet.Proofs.Number.Shortest
import Mathlib.Data.List.TakeWhile

/-!
# Reading the numbers of JSON texts

`Json.number?` reads a number of a JSON text: a whole number as an integer, and one with a point or
an exponent as the 64-bit number nearest to its exact value. It reads integers back from their
numerals (`Json.number?_decimal`) and finite numbers from their shortest texts
(`Json.number?_shortest`), the sign of zeros included.
-/

namespace SceneSet.Json

open Number (Binary Decimal Double Format)

/-- The natural number of some decimal digits. -/
def natural (digits : List Char) : Nat := Nat.ofDigitChars 10 digits 0

/-- Whether a text is made of decimal digits, of one at least. -/
def isDigits (text : List Char) : Bool := !text.isEmpty && text.all Char.isDigit

/-- Whether a text is made of decimal digits without superfluous leading zeros. -/
def isWhole (text : List Char) : Bool :=
  isDigits text && (text.length == 1 || text.head? != some '0')

/-- The digits after the point, none if there is no point. -/
def fraction? : List Char → Option (List Char)
  | [] => some []
  | _ :: digits => if isDigits digits then some digits else none

/-- The exponent after its letter, zero if there is none. -/
def exponent? : List Char → Option Int
  | [] => some 0
  | _ :: '-' :: digits => if isDigits digits then some (-natural digits) else none
  | _ :: '+' :: digits => if isDigits digits then some (natural digits) else none
  | _ :: digits => if isDigits digits then some (natural digits) else none

/-- A number without its sign. -/
def unsigned? (negative : Bool) (text : List Char) : Option Json :=
  let mantissa := text.takeWhile fun c => c != 'e' && c != 'E'
  let tail := text.dropWhile fun c => c != 'e' && c != 'E'
  let whole := mantissa.takeWhile (· != '.')
  let dotted := mantissa.dropWhile (· != '.')
  if !isWhole whole then none
  else if dotted.isEmpty && tail.isEmpty then
    some (.integer (if negative then -natural whole else natural whole))
  else do
    let fraction ← fraction? dotted
    let exponent ← exponent? tail
    let decimal : Decimal := ⟨natural (whole ++ fraction), exponent - fraction.length⟩
    pure (.number (Binary.ofCode negative (decimal.code .double)))

/-- The number that a text is. -/
def number? : List Char → Option Json
  | '-' :: text => unsigned? true text
  | text => unsigned? false text

/-! ### Digits -/

theorem natural_append (first second : List Char) :
    natural (first ++ second) = 10 ^ second.length * natural first + natural second := by
  unfold natural
  rw [Nat.ofDigitChars_append, Nat.ofDigitChars_eq_ofDigitChars_zero]

theorem natural_replicate_zero (count : Nat) : natural (List.replicate count '0') = 0 := by
  unfold natural
  rw [Nat.ofDigitChars_replicate_zero, Nat.mul_zero]

theorem natural_digits (n : Nat) : natural (Numeral.digits n) = n := Nat.ofDigitChars_ten_toDigits

theorem isDigits_iff {text : List Char} :
    isDigits text = true ↔ text ≠ [] ∧ ∀ c ∈ text, c.isDigit = true := by
  simp [isDigits]

theorem isDigits_append {first second : List Char} (hfirst : isDigits first)
    (hsecond : ∀ c ∈ second, c.isDigit = true) : isDigits (first ++ second) := by
  rw [isDigits_iff] at hfirst ⊢
  refine ⟨List.append_ne_nil_of_left_ne_nil hfirst.1 _, fun c hc => ?_⟩
  rcases List.mem_append.mp hc with hc | hc
  · exact hfirst.2 c hc
  · exact hsecond c hc

theorem isDigits_digits (n : Nat) : isDigits (Numeral.digits n) :=
  isDigits_iff.mpr ⟨Nat.toDigits_ne_nil,
    fun _ hc => Nat.isDigit_of_mem_toDigits (by decide) (by decide) hc⟩

theorem isDigit_of_mem_replicate {count : Nat} {c : Char} (h : c ∈ List.replicate count '0') :
    c.isDigit = true := by
  rw [List.eq_of_mem_replicate h]
  decide

/-- Positive numbers are written without leading zeros. -/
theorem head?_digits {n : Nat} (h : 0 < n) : (Numeral.digits n).head? ≠ some '0' := by
  unfold Numeral.digits
  induction n using Nat.strongRecOn with
  | ind n ih =>
      rcases Nat.lt_or_ge n 10 with hsmall | hlarge
      · rw [Nat.toDigits_of_lt_base hsmall]
        simp only [List.head?_cons, ne_eq, Option.some.injEq, Nat.digitChar_eq_zero]
        omega
      · rw [Nat.toDigits_of_base_le (by decide) hlarge,
          List.head?_append_of_ne_nil _ Nat.toDigits_ne_nil]
        exact ih (n / 10) (by omega) (by omega)

theorem isWhole_digits (n : Nat) : isWhole (Numeral.digits n) := by
  unfold isWhole
  rw [isDigits_digits, Bool.true_and, Bool.or_eq_true]
  rcases Nat.eq_zero_or_pos n with rfl | hpos
  · left
    rfl
  · right
    rw [bne_iff_ne]
    exact head?_digits hpos

/-! ### The parts of a number -/

theorem isDigits_of_isWhole {text : List Char} (h : isWhole text) : isDigits text :=
  (Bool.and_eq_true_iff.mp h).1

/-- A digit is neither a point nor the letter of an exponent. -/
theorem bne_of_isDigit {c : Char} (h : c.isDigit = true) :
    (c != 'e' && c != 'E') = true ∧ (c != '.') = true := by
  simp only [Bool.and_eq_true, bne_iff_ne]
  refine ⟨⟨?_, ?_⟩, ?_⟩
  all_goals
    intro hc
    rw [hc] at h
    exact absurd h (by decide)

/-- What stands behind the whole part of a number. -/
structure Behind (dotted tail fraction : List Char) (exponent : Int) : Prop where
  point : dotted = [] ∧ fraction = [] ∨ dotted = '.' :: fraction ∧ isDigits fraction
  letter : tail = [] ∨ ∃ text, tail = 'e' :: text
  power : exponent? tail = some exponent

namespace Behind

variable {whole dotted tail fraction : List Char} {exponent : Int}

theorem fraction_eq (h : Behind dotted tail fraction exponent) :
    fraction? dotted = some fraction := by
  rcases h.point with ⟨rfl, rfl⟩ | ⟨rfl, hfraction⟩
  · rfl
  · exact if_pos hfraction

/-- The mantissa ends at the letter of the exponent. -/
theorem mantissa_eq (h : Behind dotted tail fraction exponent) (hwhole : isDigits whole) :
    (whole ++ dotted ++ tail).takeWhile (fun c => c != 'e' && c != 'E') = whole ++ dotted ∧
      (whole ++ dotted ++ tail).dropWhile (fun c => c != 'e' && c != 'E') = tail := by
  have hmantissa : ∀ c ∈ whole ++ dotted, (c != 'e' && c != 'E') = true := by
    intro c hc
    rcases List.mem_append.mp hc with hc | hc
    · exact (bne_of_isDigit ((isDigits_iff.mp hwhole).2 c hc)).1
    · rcases h.point with ⟨rfl, -⟩ | ⟨rfl, hfraction⟩
      · exact absurd hc List.not_mem_nil
      · rcases List.mem_cons.mp hc with rfl | hc
        · decide
        · exact (bne_of_isDigit ((isDigits_iff.mp hfraction).2 c hc)).1
  rw [List.takeWhile_append_of_pos hmantissa, List.dropWhile_append_of_pos hmantissa]
  rcases h.letter with rfl | ⟨text, rfl⟩
  · exact ⟨List.append_nil _, rfl⟩
  · rw [List.takeWhile_cons_of_neg (by decide), List.dropWhile_cons_of_neg (by decide)]
    exact ⟨List.append_nil _, rfl⟩

/-- The whole part ends at the point. -/
theorem whole_eq (h : Behind dotted tail fraction exponent) (hwhole : isDigits whole) :
    (whole ++ dotted).takeWhile (· != '.') = whole ∧
      (whole ++ dotted).dropWhile (· != '.') = dotted := by
  have hdigits : ∀ c ∈ whole, (c != '.') = true := fun c hc =>
    (bne_of_isDigit ((isDigits_iff.mp hwhole).2 c hc)).2
  rw [List.takeWhile_append_of_pos hdigits, List.dropWhile_append_of_pos hdigits]
  rcases h.point with ⟨rfl, -⟩ | ⟨rfl, -⟩
  · exact ⟨List.append_nil _, rfl⟩
  · rw [List.takeWhile_cons_of_neg (by decide), List.dropWhile_cons_of_neg (by decide)]
    exact ⟨List.append_nil _, rfl⟩

/-- A number is taken apart at its point and at the letter of its exponent. -/
theorem unsigned_eq (h : Behind dotted tail fraction exponent) (negative : Bool)
    (hwhole : isWhole whole) (hparts : (dotted.isEmpty && tail.isEmpty) = false) :
    unsigned? negative (whole ++ dotted ++ tail) = some (.number (Binary.ofCode negative
      (Decimal.code .double ⟨natural (whole ++ fraction), exponent - fraction.length⟩))) := by
  have hdigits := isDigits_of_isWhole hwhole
  unfold unsigned?
  dsimp only
  rw [(h.mantissa_eq hdigits).1, (h.mantissa_eq hdigits).2, (h.whole_eq hdigits).1,
    (h.whole_eq hdigits).2, hwhole, hparts, h.fraction_eq, h.power]
  rfl

end Behind

/-- A whole number is read as an integer. -/
theorem unsigned?_digits (negative : Bool) (n : Nat) :
    unsigned? negative (Numeral.digits n) = some (.integer (if negative then -n else n)) := by
  have h : Behind [] [] [] 0 := ⟨.inl ⟨rfl, rfl⟩, .inl rfl, rfl⟩
  have hwhole := isWhole_digits n
  have hdigits := isDigits_digits n
  have hmantissa := h.mantissa_eq hdigits
  have hparts := h.whole_eq hdigits
  rw [List.append_nil, List.append_nil] at hmantissa
  rw [List.append_nil] at hparts
  unfold unsigned?
  dsimp only
  rw [hmantissa.1, hmantissa.2, hparts.1, hparts.2, hwhole, natural_digits]
  rfl

/-- An unsigned number does not begin with a sign. -/
theorem number?_append {whole : List Char} (negative : Bool) (h : isDigits whole)
    (rest : List Char) :
    number? (Binary.signText negative ++ (whole ++ rest)) = unsigned? negative (whole ++ rest) := by
  cases negative with
  | true => rfl
  | false =>
      obtain ⟨hne, hdigits⟩ := isDigits_iff.mp h
      obtain ⟨first, others, rfl⟩ := List.exists_cons_of_ne_nil hne
      show number? (first :: (others ++ rest)) = unsigned? false (first :: (others ++ rest))
      unfold number?
      split
      · rename_i hsign
        obtain ⟨rfl, -⟩ := List.cons.inj hsign
        exact absurd (hdigits '-' List.mem_cons_self) (by decide)
      · rfl

/-- Integers are read back. -/
theorem number?_decimal (n : Int) : number? (Numeral.decimal n) = some (.integer n) := by
  have hsign : Numeral.decimal n =
      Binary.signText (decide (n < 0)) ++ (Numeral.digits n.natAbs ++ []) := by
    unfold Numeral.decimal Binary.signText
    simp
  rw [hsign, number?_append _ (isDigits_digits _), List.append_nil, unsigned?_digits]
  congr 2
  by_cases hnegative : n < 0
  · rw [decide_eq_true hnegative, if_pos rfl]
    omega
  · rw [decide_eq_false hnegative, if_neg (by decide)]
    omega

/-! ### Decimal texts -/

/-- A text that is read as the number nearest to a value, with the sign that stands before it. -/
def ReadsAs (text : List Char) (value : ℚ) : Prop :=
  ∃ d : Decimal, d.value = value ∧ ∀ negative, number? (Binary.signText negative ++ text) =
    some (.number (Binary.ofCode negative (d.code .double)))

theorem Behind.readsAs {whole dotted tail fraction : List Char} {exponent : Int} {value : ℚ}
    (h : Behind dotted tail fraction exponent) (hwhole : isWhole whole)
    (hparts : (dotted.isEmpty && tail.isEmpty) = false)
    (hvalue : (natural (whole ++ fraction) : ℚ) * 10 ^ (exponent - fraction.length) = value) :
    ReadsAs (whole ++ dotted ++ tail) value := by
  refine ⟨⟨natural (whole ++ fraction), exponent - fraction.length⟩, hvalue, fun negative => ?_⟩
  rw [List.append_assoc, number?_append negative (isDigits_of_isWhole hwhole), ← List.append_assoc]
  exact h.unsigned_eq negative hwhole hparts

/-- Digits that do not begin with a zero are no less without the last of them. -/
theorem isWhole_of_head {text : List Char} (hdigits : isDigits text)
    (hhead : text.head? ≠ some '0') : isWhole text := by
  unfold isWhole
  rw [hdigits, Bool.true_and, Bool.or_eq_true, bne_iff_ne]
  exact .inr hhead

/-- Digits that all stand behind the point, and behind some zeros. -/
theorem readsAs_behind {text : List Char} (hdigits : isDigits text) (zeros : Nat) :
    ReadsAs (['0', '.'] ++ List.replicate zeros '0' ++ text)
      (natural text * 10 ^ (-(zeros + text.length : Nat) : Int)) := by
  obtain ⟨hne, hall⟩ := isDigits_iff.mp hdigits
  have hfraction : isDigits (List.replicate zeros '0' ++ text) := by
    rw [isDigits_iff]
    refine ⟨List.append_ne_nil_of_right_ne_nil _ hne, fun c hc => ?_⟩
    rcases List.mem_append.mp hc with hc | hc
    · exact isDigit_of_mem_replicate hc
    · exact hall c hc
  have h : Behind ('.' :: (List.replicate zeros '0' ++ text)) [] _ 0 :=
    ⟨.inr ⟨rfl, hfraction⟩, .inl rfl, rfl⟩
  have hwhole : isWhole ['0'] := rfl
  have hreads := h.readsAs hwhole rfl rfl
  have hzero : natural ['0'] = 0 := rfl
  rw [natural_append, natural_append, natural_replicate_zero, hzero, Nat.mul_zero, Nat.mul_zero,
    Nat.zero_add, Nat.zero_add, Int.zero_sub, List.length_append, List.length_replicate] at hreads
  simpa using hreads

/-- Digits that all stand in front of the point, and in front of some zeros. -/
theorem readsAs_before {text : List Char} (hdigits : isDigits text)
    (hhead : text.head? ≠ some '0') (zeros : Nat) :
    ReadsAs (text ++ List.replicate zeros '0' ++ ['.', '0']) (natural text * 10 ^ zeros) := by
  have hwhole : isWhole (text ++ List.replicate zeros '0') := by
    refine isWhole_of_head (isDigits_append hdigits fun _ hc => isDigit_of_mem_replicate hc) ?_
    rw [List.head?_append_of_ne_nil _ (isDigits_iff.mp hdigits).1]
    exact hhead
  have h : Behind ['.', '0'] [] ['0'] 0 := ⟨.inr ⟨rfl, rfl⟩, .inl rfl, rfl⟩
  have hvalue : (natural (text ++ List.replicate zeros '0' ++ ['0']) : ℚ) *
      10 ^ (0 - (['0'].length : Int)) = natural text * 10 ^ zeros := by
    have hzero : natural ['0'] = 0 := rfl
    rw [natural_append, natural_append, natural_replicate_zero, List.length_replicate, hzero]
    push_cast
    norm_num
    ring
  have hreads := h.readsAs hwhole rfl hvalue
  rw [List.append_nil] at hreads
  exact hreads

/-- Digits on both sides of the point. -/
theorem readsAs_around {text : List Char} (hdigits : isDigits text)
    (hhead : text.head? ≠ some '0') {point : Nat} (hpoint : 0 < point)
    (hlength : point < text.length) :
    ReadsAs (text.take point ++ ['.'] ++ text.drop point)
      (natural text * 10 ^ ((point : Int) - text.length)) := by
  obtain ⟨hne, hall⟩ := isDigits_iff.mp hdigits
  have htake : text.take point ≠ [] := by
    rw [ne_eq, List.take_eq_nil_iff, not_or]
    exact ⟨by omega, hne⟩
  have hdrop : text.drop point ≠ [] := by
    rw [ne_eq, List.drop_eq_nil_iff]
    omega
  have hsplit := List.take_append_drop point text
  have hwhole : isWhole (text.take point) := by
    refine isWhole_of_head (isDigits_iff.mpr ⟨htake, fun c hc => ?_⟩) ?_
    · exact hall c (List.mem_of_mem_take hc)
    · rw [← List.head?_append_of_ne_nil (text.take point) htake, hsplit]
      exact hhead
  have h : Behind ('.' :: text.drop point) [] (text.drop point) 0 :=
    ⟨.inr ⟨rfl, isDigits_iff.mpr ⟨hdrop, fun c hc => hall c (List.mem_of_mem_drop hc)⟩⟩,
      .inl rfl, rfl⟩
  have hreads := h.readsAs hwhole rfl rfl
  have hpower : 0 - ((text.length - point : Nat) : Int) = point - text.length := by omega
  rw [hsplit, List.length_drop, List.append_nil, hpower] at hreads
  simpa using hreads

/-- Digits with a point after `point` of them. -/
theorem readsAs_positional {text : List Char} (hdigits : isDigits text)
    (hhead : text.head? ≠ some '0') (point : Int) :
    ReadsAs (Decimal.positional text point) (natural text * 10 ^ (point - text.length)) := by
  unfold Decimal.positional
  split
  · have hpower : point - text.length = -(((-point).toNat + text.length : Nat) : Int) := by omega
    rw [hpower]
    exact readsAs_behind hdigits _
  · split
    · have hpower : point - text.length = ((point.toNat - text.length : Nat) : Int) := by omega
      rw [hpower, zpow_natCast]
      exact readsAs_before hdigits hhead _
    · have hpower : point - text.length = (point.toNat : Int) - text.length := by omega
      rw [hpower]
      exact readsAs_around hdigits hhead (by omega) (by omega)

/-- Zeros in front of digits do not change their number. -/
theorem isDigits_zeroPad (width n : Nat) :
    isDigits (Numeral.zeroPad width (Numeral.digits n)) ∧
      natural (Numeral.zeroPad width (Numeral.digits n)) = n := by
  unfold Numeral.zeroPad List.leftpad
  constructor
  · rw [isDigits_iff]
    refine ⟨List.append_ne_nil_of_right_ne_nil _ Nat.toDigits_ne_nil, fun c hc => ?_⟩
    rcases List.mem_append.mp hc with hc | hc
    · exact isDigit_of_mem_replicate hc
    · exact (isDigits_iff.mp (isDigits_digits n)).2 c hc
  · rw [natural_append, natural_replicate_zero, natural_digits, Nat.mul_zero, Nat.zero_add]

/-- A signed exponent is read back. -/
theorem exponent?_signed (exponent : Int) :
    exponent? ('e' :: (if exponent < 0 then '-' else '+') ::
      Numeral.zeroPad 2 (Numeral.digits exponent.natAbs)) = some exponent := by
  obtain ⟨hdigits, hnatural⟩ := isDigits_zeroPad 2 exponent.natAbs
  split
  · show (if isDigits _ = true then some (-(natural _ : Int)) else none) = _
    rw [if_pos hdigits, hnatural]
    congr 1
    omega
  · show (if isDigits _ = true then some (natural _ : Int) else none) = _
    rw [if_pos hdigits, hnatural]
    congr 1
    omega

/-- Digits with a point after the first of them, and an exponent. -/
theorem readsAs_scientific {text : List Char} (hdigits : isDigits text) (exponent : Int) :
    ReadsAs (Decimal.scientific text exponent)
      (natural text * 10 ^ (exponent + 1 - text.length)) := by
  obtain ⟨hne, hall⟩ := isDigits_iff.mp hdigits
  obtain ⟨first, rest, rfl⟩ := List.exists_cons_of_ne_nil hne
  have hwhole : isWhole [first] := by
    have hfirst : isDigits [first] := isDigits_iff.mpr ⟨List.cons_ne_nil _ _, fun c hc =>
      hall c (List.mem_singleton.mp hc ▸ List.mem_cons_self)⟩
    unfold isWhole
    rw [hfirst]
    rfl
  have hrest : ∀ c ∈ rest, c.isDigit = true := fun c hc => hall c (List.mem_cons_of_mem _ hc)
  have hvalue : (natural ([first] ++ rest) : ℚ) * 10 ^ (exponent - rest.length) =
      natural (first :: rest) * 10 ^ (exponent + 1 - (first :: rest).length) := by
    rw [List.singleton_append, List.length_cons]
    congr 2
    push_cast
    omega
  -- there is no point if there is one digit
  cases rest with
  | nil =>
      have h : Behind [] _ [] exponent :=
        ⟨.inl ⟨rfl, rfl⟩, .inr ⟨_, rfl⟩, exponent?_signed exponent⟩
      have hreads := h.readsAs hwhole rfl hvalue
      simpa [Decimal.scientific] using hreads
  | cons second others =>
      have h : Behind ('.' :: second :: others) _ _ exponent :=
        ⟨.inr ⟨rfl, isDigits_iff.mpr ⟨List.cons_ne_nil _ _, hrest⟩⟩, .inr ⟨_, rfl⟩,
          exponent?_signed exponent⟩
      have hreads := h.readsAs hwhole rfl hvalue
      simpa [Decimal.scientific] using hreads

/-- The zeros that are removed. -/
theorem stripZeros_append (text : List Char) :
    ∃ count, text = Decimal.stripZeros text ++ List.replicate count '0' := by
  refine ⟨(text.reverse.takeWhile (· == '0')).length, ?_⟩
  have hzeros : text.reverse.takeWhile (· == '0') =
      List.replicate (text.reverse.takeWhile (· == '0')).length '0' := by
    refine List.eq_replicate_iff.mpr ⟨rfl, fun c hc => ?_⟩
    have hzero := List.mem_takeWhile_imp hc
    exact eq_of_beq hzero
  have hsplit := List.takeWhile_append_dropWhile (p := (· == '0')) (l := text.reverse)
  unfold Decimal.stripZeros
  rw [← List.reverse_replicate, ← hzeros, ← List.reverse_append, hsplit, List.reverse_reverse]

/-- The text of a decimal number reads as a number of the same value. -/
theorem readsAs_text {d : Decimal} (h : d.digits ≠ 0) : ReadsAs d.text d.value := by
  obtain ⟨count, hstrip⟩ := stripZeros_append (Numeral.digits d.digits)
  have hnatural := natural_digits d.digits
  have hhead := head?_digits (Nat.pos_of_ne_zero h)
  have hall := (isDigits_iff.mp (isDigits_digits d.digits)).2
  unfold Decimal.text
  dsimp only
  generalize Decimal.stripZeros (Numeral.digits d.digits) = text at hstrip ⊢
  rw [hstrip] at hnatural hhead hall ⊢
  rw [natural_append, natural_replicate_zero, List.length_replicate] at hnatural
  have hne : text ≠ [] := by
    intro hnil
    rw [hnil] at hnatural
    exact h (by rw [← hnatural]; simp [natural])
  rw [List.head?_append_of_ne_nil _ hne] at hhead
  have hdigits : isDigits text :=
    isDigits_iff.mpr ⟨hne, fun c hc => hall c (List.mem_append_left _ hc)⟩
  rw [List.length_append, List.length_replicate]
  have hvalue : d.value =
      natural text * 10 ^ (((text.length + count : Nat) : Int) + d.exponent - text.length) := by
    unfold Decimal.value
    rw [← hnatural, show ((text.length + count : Nat) : Int) + d.exponent - text.length =
      count + d.exponent by push_cast; omega, zpow_add₀ (by decide), zpow_natCast]
    push_cast
    ring
  rw [hvalue]
  split
  · exact readsAs_positional hdigits hhead _
  · have hreads := readsAs_scientific hdigits (((text.length + count : Nat) : Int) + d.exponent - 1)
    rw [Int.sub_add_cancel] at hreads
    exact hreads

/-- Finite numbers are read back from their shortest texts. -/
theorem number?_shortest (negative : Bool) (code : Fin Format.double.infinityCode) :
    number? (Binary.shortest (.finite negative code)).toList =
      some (.number (.finite negative code)) := by
  have hcode : Binary.ofCode negative code = (.finite negative code : Double) := dif_pos code.isLt
  unfold Binary.shortest
  dsimp only
  rw [String.toList_ofList, ← hcode]
  split
  · rename_i hzero
    have h : Behind ['.', '0'] [] ['0'] 0 := ⟨.inr ⟨rfl, rfl⟩, .inl rfl, rfl⟩
    have hvalue : (natural (['0'] ++ ['0']) : ℚ) * 10 ^ (0 - (['0'].length : Int)) =
        Decimal.value ⟨0, 0⟩ := by
      unfold Decimal.value
      rw [show natural (['0'] ++ ['0']) = 0 from rfl, Nat.cast_zero, zero_mul, zero_mul]
    have hwhole : isWhole ['0'] := rfl
    obtain ⟨d, hd, hreads⟩ := h.readsAs hwhole rfl hvalue
    have hread : d.code .double = code := by
      rw [Decimal.code_eq_of_value_eq .double hd, hzero]
      exact Format.nearestCode_zero _ _
    rw [← hread]
    exact hreads negative
  · rename_i hpos
    have hshortest : (Decimal.shortest .double 17 code).code .double = code :=
      Decimal.code_shortest (Nat.pos_of_ne_zero hpos) (by decide) (by decide)
    have hdigits : (Decimal.shortest .double 17 code).digits ≠ 0 := by
      intro hzero
      have hnothing : (Decimal.shortest .double 17 code).code .double = 0 := by
        unfold Decimal.code Decimal.num
        rw [hzero, Nat.zero_mul, Nat.zero_shiftLeft, Format.nearestCode_zero]
      exact hpos (hshortest ▸ hnothing)
    obtain ⟨d, hvalue, hreads⟩ := readsAs_text hdigits
    rw [hreads, Decimal.code_eq_of_value_eq .double hvalue, hshortest]

end SceneSet.Json
