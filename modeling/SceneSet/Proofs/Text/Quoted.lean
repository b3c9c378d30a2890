import SceneSet.Proofs.Text.Hexadecimal
import SceneSet.Proofs.Text.Lines

/-!
# Quoted texts are read back

`Quoted.unquote?` reads a quoted text up to the delimiter that it begins with, and tells what
follows it. It reads every text back from its quoted form (`unquote?_quoteWith`), so a message tells
the text that it quotes, whatever it goes on with. Quoted texts have printable characters only
(`printable_text`), and none that could end a line.
-/

namespace SceneSet

/-- All characters are printable ones of the first 256. -/
def Latin.Printable (text : List Char) : Prop :=
  ∀ c ∈ text, Quoted.isPrintable c = true ∧ c.toNat < 0x100

namespace Latin.Printable

variable {first second : List Char}

theorem append (h : Printable first) (hsecond : Printable second) : Printable (first ++ second) :=
  List.forall_mem_append.mpr ⟨h, hsecond⟩

theorem of_numeral (h : Numeral.Printable first) : Printable first := by
  intro c hc
  have hprintable := h c hc
  simp only [Quoted.isAsciiPrintable, Quoted.isPrintable, Bool.and_eq_true, Bool.or_eq_true,
    decide_eq_true_eq] at hprintable ⊢
  omega

/-- Printable characters end no line. -/
theorem isBreak_eq_false (h : Printable first) : ∀ c ∈ first, Lines.isBreak c = false := by
  intro c hc
  have hprintable := h c hc
  simp only [Quoted.isPrintable, Bool.and_eq_true, Bool.or_eq_true, decide_eq_true_eq, bne_iff_ne]
    at hprintable
  refine Bool.eq_false_iff.mpr fun hbreak => ?_
  simp only [Lines.isBreak, Lines.breaks, List.contains_eq_mem, decide_eq_true_eq, List.mem_cons,
    List.not_mem_nil, or_false] at hbreak
  omega

end Latin.Printable

namespace Quoted

/-- The character of an escape of one letter. -/
def ofLetter : Char → Char
  | 't' => '\t'
  | 'n' => '\n'
  | 'r' => '\r'
  | c => c

/-- The inside of a quoted text up to its delimiter, and what follows that. -/
def inside? (delim : Char) : List Char → Option (List Char × List Char)
  | [] => none
  | c :: text =>
      if c = delim then some ([], text)
      else if c = '\\' then
        match text with
        | [] => none
        | 'x' :: high :: low :: rest => do
            let n ← Json.hexNumber? [high, low]
            (inside? delim rest).map fun (inside, after) => (Char.ofNat n :: inside, after)
        | letter :: rest =>
            (inside? delim rest).map fun (inside, after) => (ofLetter letter :: inside, after)
      else (inside? delim text).map fun (inside, after) => (c :: inside, after)

/-- A quoted text, and what follows it. -/
def unquote? : List Char → Option (List Char × List Char)
  | [] => none
  | delim :: text => inside? delim text

variable {plain : Char → Bool} {delim c : Char} {rest : List Char}

theorem inside?_plain (hdelim : c ≠ delim) (hslash : c ≠ '\\') (rest : List Char) :
    inside? delim (c :: rest) =
      (inside? delim rest).map fun (inside, after) => (c :: inside, after) := by
  rw [inside?.eq_def]
  dsimp only
  rw [if_neg hdelim, if_neg hslash]

theorem inside?_letter (hdelim : delim ≠ '\\') (hx : c ≠ 'x') (rest : List Char) :
    inside? delim ('\\' :: c :: rest) =
      (inside? delim rest).map fun (inside, after) => (ofLetter c :: inside, after) := by
  rw [inside?, if_neg hdelim.symm, if_pos rfl]
  rintro high low _ rfl
  exact absurd rfl hx

theorem inside?_number (hdelim : delim ≠ '\\') (hc : c.toNat < 0x100) (rest : List Char) :
    inside? delim (['\\', 'x'] ++ Numeral.zeroPad 2 (Numeral.lowerHex c.toNat) ++ rest) =
      (inside? delim rest).map fun (inside, after) => (c :: inside, after) := by
  have hlength := Json.length_zeroPad (by decide) (show c.toNat < 16 ^ 2 from hc)
  have hnumber := Json.hexNumber?_zeroPad 2 c.toNat
  match hdigits : Numeral.zeroPad 2 (Numeral.lowerHex c.toNat), hlength with
  | [high, low], _ =>
      rw [hdigits] at hnumber
      show inside? delim ('\\' :: 'x' :: high :: low :: rest) = _
      rw [inside?, if_neg hdelim.symm, if_pos rfl]
      dsimp only
      rw [hnumber]
      show (inside? delim rest).map
        (fun (inside, after) => (Char.ofNat c.toNat :: inside, after)) = _
      rw [Char.ofNat_toNat]

/-- An escaped character is read back. The cases are those of `escape`. -/
theorem inside?_escape (hdelim : delim = '\'' ∨ delim = '"')
    (hc : plain c = true ∨ c.toNat < 0x100) (rest : List Char) :
    inside? delim (escape plain delim c ++ rest) =
      (inside? delim rest).map fun (inside, after) => (c :: inside, after) := by
  have hslash : delim ≠ '\\' := by
    rcases hdelim with rfl | rfl <;> decide
  unfold escape
  by_cases hself : c = delim ∨ c = '\\'
  · rw [if_pos hself]
    have hletter : ofLetter c = c ∧ c ≠ 'x' := by
      rcases hself with rfl | rfl
      · rcases hdelim with rfl | rfl <;> decide
      · decide
    rw [List.cons_append, List.singleton_append, inside?_letter hslash hletter.2, hletter.1]
  rw [if_neg hself]
  obtain ⟨hself, hbackslash⟩ := not_or.mp hself
  by_cases htab : c = '\t'
  · rw [if_pos htab, htab]
    exact inside?_letter hslash (by decide) rest
  rw [if_neg htab]
  by_cases hfeed : c = '\n'
  · rw [if_pos hfeed, hfeed]
    exact inside?_letter hslash (by decide) rest
  rw [if_neg hfeed]
  by_cases hreturn : c = '\r'
  · rw [if_pos hreturn, hreturn]
    exact inside?_letter hslash (by decide) rest
  rw [if_neg hreturn]
  by_cases hplain : plain c = true
  · rw [if_pos hplain]
    exact inside?_plain hself hbackslash rest
  · rw [if_neg hplain]
    exact inside?_number hslash (hc.resolve_left hplain) rest

theorem delimiter_cases (text : List Char) : delimiter text = '\'' ∨ delimiter text = '"' := by
  unfold delimiter
  split
  · exact .inr rfl
  · exact .inl rfl

/-- A quoted text is read back, whatever follows it. The induction is on the text, for one
delimiter. -/
theorem unquote?_quoteWith {text : List Char} (h : ∀ c ∈ text, plain c = true ∨ c.toNat < 0x100)
    (rest : List Char) : unquote? (quoteWith plain text ++ rest) = some (text, rest) := by
  have hdelim := delimiter_cases text
  show inside? (delimiter text) (text.flatMap (escape plain (delimiter text))
    ++ [delimiter text] ++ rest) = _
  generalize delimiter text = delim at hdelim
  induction text with
  | nil =>
      show inside? delim (delim :: rest) = _
      rw [inside?.eq_def]
      exact if_pos rfl
  | cons c text ih =>
      rw [List.forall_mem_cons] at h
      rw [List.flatMap_cons, List.append_assoc, List.append_assoc, inside?_escape hdelim h.1,
        ← List.append_assoc, ih h.2]
      rfl

/-- An escaped character has printable characters of the first 128 only, unless it is plain. -/
theorem mem_escape {d : Char} (hdelim : isAsciiPrintable delim = true)
    (h : c ∈ escape plain delim d) : isAsciiPrintable c = true ∨ c = d ∧ plain d = true := by
  have hletter : ∀ {text : List Char}, Numeral.Printable text → c ∈ text →
      isAsciiPrintable c = true ∨ c = d ∧ plain d = true := fun htext hc => .inl (htext c hc)
  unfold escape at h
  split at h
  · rename_i hself
    have hprintable : isAsciiPrintable d = true := by
      rcases hself with rfl | rfl
      · exact hdelim
      · decide
    refine hletter (fun c hc => ?_) h
    rw [List.mem_cons, List.mem_singleton] at hc
    rcases hc with rfl | rfl
    · decide
    · exact hprintable
  split at h
  · exact hletter (by decide) h
  split at h
  · exact hletter (by decide) h
  split at h
  · exact hletter (by decide) h
  split at h
  · rename_i hplain
    exact .inr ⟨List.mem_singleton.mp h, hplain⟩
  · refine hletter (Numeral.Printable.append (by decide) (Numeral.printable_zeroPad ?_ 2)) h
    exact Numeral.printable_lowerHex _

/-- The characters of a quoted text are plain ones of its own, or printable ones of the first
128. -/
theorem mem_quoteWith {text : List Char} (h : c ∈ quoteWith plain text) :
    isAsciiPrintable c = true ∨ c ∈ text ∧ plain c = true := by
  have hdelim : isAsciiPrintable (delimiter text) = true := by
    rcases delimiter_cases text with hcase | hcase <;> rw [hcase] <;> decide
  unfold quoteWith at h
  dsimp only at h
  rw [List.mem_append, List.mem_cons, List.mem_flatMap, List.mem_singleton] at h
  rcases h with (rfl | ⟨d, hd, hescape⟩) | rfl
  · exact .inl hdelim
  · rcases mem_escape hdelim hescape with hprintable | ⟨rfl, hplain⟩
    · exact .inl hprintable
    · exact .inr ⟨hd, hplain⟩
  · exact .inl hdelim

/-! ### Quoted texts with one byte for each character -/

/-- A text is read back from a message that quotes it, whatever the message goes on with. -/
theorem unquote?_text (s : String) (rest : List Char) :
    unquote? ((text s).toList ++ rest) = some (s.toList, rest) := by
  rw [text, String.toList_ofList]
  refine unquote?_quoteWith (fun c _ => ?_) rest
  simp only [isPrintable, Bool.or_eq_true, Bool.and_eq_true, decide_eq_true_eq, bne_iff_ne]
  omega

/-- A text of characters with bytes has a quoted form of printable ones. -/
theorem printable_text {s : String} (h : ∀ c ∈ s.toList, c.toNat < 0x100) :
    Latin.Printable (text s).toList := by
  intro c hc
  rw [text, String.toList_ofList] at hc
  rcases mem_quoteWith hc with hascii | ⟨hmem, hplain⟩
  · have hsingle : Numeral.Printable [c] := List.forall_mem_singleton.mpr hascii
    exact Latin.Printable.of_numeral hsingle c List.mem_cons_self
  · exact ⟨hplain, h c hmem⟩

end Quoted

end SceneSet
