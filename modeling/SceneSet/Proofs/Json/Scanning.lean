import SceneSet.Proofs.Json.Reading

/-!
# The tokens of JSON texts

The text of a value consists of the tokens of the value, in either layout (`Json.scan?_render`), and
so a value is read back from its text (`Json.read?_compact`, `Json.read?_indented`). `Reads` follows
the scanner over a part of a text, and says whether a word may be left open before the part or
behind it. Texts are pure ASCII (`Json.ascii_render`).
-/

namespace SceneSet.Json

open Number (Binary Decimal Double)

/-! ### The characters of words -/

/-- Whether a character is one that words are made of: a digit, a letter, a sign or a point. -/
def isWordChar (c : Char) : Bool :=
  let n := c.toNat
  c == '-' || c == '+' || c == '.' || (0x30 ≤ n && n ≤ 0x39) || (0x41 ≤ n && n ≤ 0x5a)
    || (0x61 ≤ n && n ≤ 0x7a)

/-- All characters are those of words. -/
def IsWord (text : List Char) : Prop := ∀ c ∈ text, isWordChar c = true

instance (text : List Char) : Decidable (IsWord text) := List.decidableBAll _ text

/-- The characters of words are ASCII. -/
theorem toNat_lt_of_isWordChar {c : Char} (h : isWordChar c = true) : c.toNat < 128 := by
  simp only [isWordChar, Bool.or_eq_true, Bool.and_eq_true, beq_iff_eq, decide_eq_true_eq,
    or_assoc] at h
  rcases h with rfl | rfl | rfl | h | h | h
  · decide
  · decide
  · decide
  · omega
  · omega
  · omega

/-- They do not end a word. -/
theorem not_delimiter_of_isWordChar {c : Char} (h : isWordChar c = true) :
    isBlank c = false ∧ isMark c = false ∧ c ≠ '"' := by
  refine ⟨?_, ?_, ?_⟩
  · rw [Bool.eq_false_iff]
    intro hblank
    simp only [isBlank, Bool.or_eq_true, beq_iff_eq, or_assoc] at hblank
    rcases hblank with rfl | rfl | rfl | rfl <;> exact absurd h (by decide)
  · rw [Bool.eq_false_iff]
    intro hmark
    simp only [isMark, Bool.or_eq_true, beq_iff_eq, or_assoc] at hmark
    rcases hmark with rfl | rfl | rfl | rfl | rfl | rfl <;> exact absurd h (by decide)
  · rintro rfl
    exact absurd h (by decide)

theorem IsWord.append {first second : List Char} (h : IsWord first) (hsecond : IsWord second) :
    IsWord (first ++ second) := List.forall_mem_append.mpr ⟨h, hsecond⟩

theorem isWord_of_isDigit {text : List Char} (h : ∀ c ∈ text, c.isDigit = true) : IsWord text := by
  intro c hc
  have hdigit := h c hc
  simp only [Char.isDigit, ge_iff_le, Bool.and_eq_true, decide_eq_true_eq] at hdigit
  have hlow : 0x30 ≤ c.toNat := hdigit.1
  have hhigh : c.toNat ≤ 0x39 := hdigit.2
  simp [isWordChar, hlow, hhigh]

theorem isWord_signText (negative : Bool) : IsWord (Binary.signText negative) := by
  cases negative <;> decide

theorem isWord_decimal (n : Int) : IsWord (Numeral.decimal n) := by
  refine IsWord.append ?_ (isWord_of_isDigit (isDigits_iff.mp (isDigits_digits _)).2)
  split <;> decide

theorem isWord_text (d : Decimal) : IsWord d.text := by
  have hstrip : IsWord (Decimal.stripZeros (Numeral.digits d.digits)) := by
    obtain ⟨count, hsplit⟩ := stripZeros_append (Numeral.digits d.digits)
    refine isWord_of_isDigit fun c hc => ?_
    have hall := (isDigits_iff.mp (isDigits_digits d.digits)).2 c
    rw [hsplit] at hall
    exact hall (List.mem_append_left _ hc)
  have hzeros : ∀ count, IsWord (List.replicate count '0') := fun count =>
    isWord_of_isDigit fun _ hc => isDigit_of_mem_replicate hc
  unfold Decimal.text
  dsimp only
  generalize Decimal.stripZeros (Numeral.digits d.digits) = text at hstrip ⊢
  split
  · unfold Decimal.positional
    split
    · exact ((by decide : IsWord ['0', '.']).append (hzeros _)).append hstrip
    · split
      · exact (hstrip.append (hzeros _)).append (by decide)
      · refine IsWord.append (IsWord.append ?_ (by decide)) ?_
        · exact fun c hc => hstrip c (List.mem_of_mem_take hc)
        · exact fun c hc => hstrip c (List.mem_of_mem_drop hc)
  · have hfraction : IsWord (text.drop 1) := fun c hc => hstrip c (List.mem_of_mem_drop hc)
    refine IsWord.append (IsWord.append (IsWord.append ?_ ?_) ?_) ?_
    · exact fun c hc => hstrip c (List.mem_of_mem_take hc)
    · split
      · decide
      · exact List.forall_mem_cons.mpr ⟨by decide, hfraction⟩
    · split <;> decide
    · exact isWord_of_isDigit (isDigits_iff.mp (isDigits_zeroPad 2 _).1).2

theorem isWord_shortest (x : Double) : IsWord x.shortest.toList := by
  cases x with
  | nan => decide
  | infinite negative => cases negative <;> decide
  | finite negative code =>
      unfold Binary.shortest
      dsimp only
      rw [String.toList_ofList]
      refine (isWord_signText negative).append ?_
      split
      · decide
      · exact isWord_text _

/-! ### Scanning -/

/-- Whether nothing has been read of the next token, or perhaps a word that may have ended. -/
inductive Margin where
  | clear
  | loose

namespace Scanner

/-- A scanner that has read just these tokens, the last of them first. -/
def HasRead : Margin → List Token → Scanner → Prop
  | .clear, tokens, scanner => scanner = ⟨tokens, .outside []⟩
  | .loose, tokens, scanner =>
      ∃ word, scanner.pending = .outside word ∧ endWord scanner.tokens word = tokens

theorem HasRead.loosen {tokens : List Token} {scanner : Scanner}
    (h : HasRead .clear tokens scanner) : HasRead .loose tokens scanner := by
  cases h
  exact ⟨[], rfl, rfl⟩

end Scanner

/-- A text is read as some tokens, whatever has been read before. -/
def Reads (start stop : Margin) (text : List Char) (tokens : List Token) : Prop :=
  ∀ before scanner, Scanner.HasRead start before scanner →
    Scanner.HasRead stop (tokens.reverse ++ before) (text.foldl Scanner.step scanner)

namespace Reads

open Scanner (HasRead)

variable {start middle stop : Margin} {text other : List Char} {tokens others : List Token}

theorem append (h : Reads start middle text tokens) (hother : Reads middle stop other others) :
    Reads start stop (text ++ other) (tokens ++ others) := by
  intro before scanner hbefore
  rw [List.foldl_append, List.reverse_append, List.append_assoc]
  exact hother _ _ (h _ _ hbefore)

theorem nil : Reads start start [] [] := fun _ _ h => h

/-- A text that may follow a word may follow anything. -/
theorem anywhere (h : Reads .loose stop text tokens) : Reads start stop text tokens := by
  intro before scanner hbefore
  cases start with
  | clear => exact h _ _ hbefore.loosen
  | loose => exact h _ _ hbefore

/-- A text that ends no word may be followed by anything. -/
theorem loosen (h : Reads start .clear text tokens) : Reads start stop text tokens := by
  intro before scanner hbefore
  cases stop with
  | clear => exact h _ _ hbefore
  | loose => exact (h _ _ hbefore).loosen

theorem blank {c : Char} (h : isBlank c = true) : Reads .loose .clear [c] [] := by
  rintro before ⟨tokens, pending⟩ ⟨word, rfl, rfl⟩
  show Scanner.step ⟨tokens, .outside word⟩ c = _
  simp only [Scanner.step, h, if_true]
  rfl

theorem mark {c : Char} (hblank : isBlank c = false) (h : isMark c = true) :
    Reads .loose .clear [c] [.mark c] := by
  rintro before ⟨tokens, pending⟩ ⟨word, rfl, rfl⟩
  show Scanner.step ⟨tokens, .outside word⟩ c = _
  simp only [Scanner.step, hblank, h, if_true]
  rfl

theorem blanks {text : List Char} (h : ∀ c ∈ text, isBlank c = true) :
    Reads start start text [] := by
  induction text with
  | nil => exact nil
  | cons c text ih =>
      obtain ⟨hc, htext⟩ := List.forall_mem_cons.mp h
      exact (blank hc).anywhere.loosen.append (ih htext)

/-- A word is read to its end. -/
theorem word (hword : IsWord text) (hne : text ≠ []) : Reads .clear .loose text [.word text] := by
  intro before scanner hbefore
  cases hbefore
  have hstep : ∀ read, text.foldl Scanner.step ⟨before, .outside read⟩ =
      ⟨before, .outside (text.reverse ++ read)⟩ := by
    clear hne
    induction text with
    | nil => exact fun read => rfl
    | cons c text ih =>
        intro read
        obtain ⟨hc, htext⟩ := List.forall_mem_cons.mp hword
        obtain ⟨hblank, hmark, hquote⟩ := not_delimiter_of_isWordChar hc
        have hfirst : Scanner.step ⟨before, .outside read⟩ c = ⟨before, .outside (c :: read)⟩ := by
          simp [Scanner.step, hblank, hmark, hquote]
        rw [List.foldl_cons, hfirst, ih htext, List.reverse_cons, List.append_assoc]
        rfl
  rw [hstep [], List.append_nil]
  refine ⟨text.reverse, rfl, ?_⟩
  have hreverse : text.reverse ≠ [] := by simpa using hne
  obtain ⟨last, init, hlast⟩ := List.exists_cons_of_ne_nil hreverse
  rw [hlast, Scanner.endWord, ← hlast, List.reverse_reverse]
  · rfl
  · simp

end Reads

/-- Inside a string a text is kept as it is. -/
def Keeps (text : List Char) : Prop := ∀ before read,
  text.foldl Scanner.step ⟨before, .string read⟩ = ⟨before, .string (text.reverse ++ read)⟩

namespace Keeps

theorem append {text other : List Char} (h : Keeps text) (hother : Keeps other) :
    Keeps (text ++ other) := by
  intro before read
  rw [List.foldl_append, h, hother, List.reverse_append, List.append_assoc]

theorem nil : Keeps [] := fun _ _ => rfl

theorem flatMap {α : Type} {f : α → List Char} (h : ∀ item, Keeps (f item)) (items : List α) :
    Keeps (items.flatMap f) := by
  induction items with
  | nil => exact nil
  | cons item items ih =>
      rw [List.flatMap_cons]
      exact (h item).append ih

theorem plain {c : Char} (hquote : c ≠ '"') (hescape : c ≠ '\\') : Keeps [c] := by
  intro before read
  show Scanner.step ⟨before, .string read⟩ c = _
  simp [Scanner.step, hquote, hescape]

/-- The character after a backslash does not end the string. -/
theorem escaped (letter : Char) : Keeps ['\\', letter] := fun _ _ => rfl

theorem unitEscape (unit : Nat) : Keeps (Json.unitEscape unit) := by
  refine (escaped 'u').append ?_
  have hdigits : ∀ c ∈ Numeral.zeroPad 4 (Numeral.lowerHex unit), Keeps [c] := by
    intro c hc
    have hne : ∀ digit < 16, digit.digitChar ≠ '"' ∧ digit.digitChar ≠ '\\' := by decide
    obtain ⟨digit, hdigit, rfl⟩ := mem_zeroPad hc
    exact plain (hne digit hdigit).1 (hne digit hdigit).2
  generalize Numeral.zeroPad 4 (Numeral.lowerHex unit) = text at hdigits
  induction text with
  | nil => exact nil
  | cons c text ih =>
      obtain ⟨hc, htext⟩ := List.forall_mem_cons.mp hdigits
      exact hc.append (ih htext)

theorem escape (c : Char) : Keeps (Json.escape c) := by
  have h := escaped_escape c
  generalize Json.escape c = text at h ⊢
  cases h with
  | plain hquote hescape hlow hhigh => exact plain hquote hescape
  | letter hunit hsmall hletter => exact escaped _
  | unit hsmall => exact unitEscape _
  | pair hlarge hlimit => exact (unitEscape _).append (unitEscape _)

end Keeps

namespace Reads

/-- A string is read to its end. -/
theorem string (text : String) :
    Reads .loose .clear (quoted text) [.string (text.toList.flatMap escape)] := by
  rintro before ⟨tokens, pending⟩ ⟨word, rfl, rfl⟩
  have hinside := Keeps.flatMap Keeps.escape text.toList (Scanner.endWord tokens word) []
  have hstart : Scanner.step ⟨tokens, .outside word⟩ '"' =
      ⟨Scanner.endWord tokens word, .string []⟩ := rfl
  rw [quoted, List.cons_append, List.foldl_cons, hstart, List.foldl_append, hinside,
    List.append_nil]
  show (⟨.string (text.toList.flatMap escape).reverse.reverse :: _, .outside []⟩ : Scanner) = _
  rw [List.reverse_reverse]
  rfl

/-- What stands between a bracket and an item is blank. -/
theorem edge (start : Margin) (layout : Layout) : Reads start start layout.edge [] := by
  refine blanks fun c hc => ?_
  cases layout with
  | line => exact absurd hc List.not_mem_nil
  | indented depth =>
      rcases List.mem_cons.mp hc with rfl | hc
      · rfl
      · rw [List.eq_of_mem_replicate hc]
        rfl

theorem separator (layout : Layout) : Reads .loose .clear layout.separator [.mark ','] := by
  have hcomma : Reads .loose .clear [','] [.mark ','] := mark rfl rfl
  cases layout with
  | line => exact hcomma.append (blank rfl).anywhere
  | indented depth => exact hcomma.append (edge .clear (.indented depth))

/-- A key with what stands behind it. -/
theorem key (key : String) : Reads .clear .clear (quoted key ++ [':', ' '])
    [.string (key.toList.flatMap escape), .mark ':'] := by
  have hcolon : Reads .loose .clear [':'] [.mark ':'] := mark rfl rfl
  exact (string key).anywhere.append (hcolon.anywhere.append (blank rfl).anywhere)

end Reads

mutual

/-- The text of a value is read as the tokens of the value. -/
theorem reads_render (layout : Layout) (value : Json) :
    Reads .clear .loose (render layout value) (tokens value) := by
  match value with
  | null =>
      have h : Reads .clear .loose ['n', 'u', 'l', 'l'] _ := .word (by decide) (by decide)
      exact h
  | bool true =>
      have h : Reads .clear .loose ['t', 'r', 'u', 'e'] _ := .word (by decide) (by decide)
      exact h
  | bool false =>
      have h : Reads .clear .loose ['f', 'a', 'l', 's', 'e'] _ := .word (by decide) (by decide)
      exact h
  | integer n => exact .word (isWord_decimal n) (ne_nil_of_wordValue? (wordValue?_decimal n))
  | number x => exact .word (isWord_shortest x) (ne_nil_of_wordValue? (wordValue?_shortest x))
  | string text => exact (Reads.string text).anywhere.loosen
  | array [] =>
      have hopen : Reads .clear .clear ['['] [.mark '['] := (Reads.mark rfl rfl).anywhere
      have hclose : Reads .loose .clear [']'] [.mark ']'] := .mark rfl rfl
      exact hopen.append hclose.anywhere.loosen
  | array (first :: rest) =>
      have hopen : Reads .clear .clear ['['] [.mark '['] := (Reads.mark rfl rfl).anywhere
      have hclose : Reads .loose .clear [']'] [.mark ']'] := .mark rfl rfl
      have hfirst := reads_render layout.inner first
      have hrest := reads_renderItems layout.inner rest
      have h := ((((hopen.append (Reads.edge .clear layout.inner)).append hfirst).append
        hrest).append (Reads.edge .loose layout)).append hclose
      simpa [render, tokens] using h.loosen
  | object [] =>
      have hopen : Reads .clear .clear ['{'] [.mark '{'] := (Reads.mark rfl rfl).anywhere
      have hclose : Reads .loose .clear ['}'] [.mark '}'] := .mark rfl rfl
      exact hopen.append hclose.anywhere.loosen
  | object ((key, first) :: rest) =>
      have hopen : Reads .clear .clear ['{'] [.mark '{'] := (Reads.mark rfl rfl).anywhere
      have hclose : Reads .loose .clear ['}'] [.mark '}'] := .mark rfl rfl
      have hfirst := reads_render layout.inner first
      have hrest := reads_renderMembers layout.inner rest
      have h := (((((hopen.append (Reads.edge .clear layout.inner)).append
        (Reads.key key)).append hfirst).append hrest).append (Reads.edge .loose layout)).append
          hclose
      simpa [render, tokens] using h.loosen

/-- The same for the items after the first. -/
theorem reads_renderItems (layout : Layout) (items : List Json) :
    Reads .loose .loose (renderItems layout items) (itemTokens items) := by
  match items with
  | [] => exact .nil
  | item :: rest =>
      have hitem := reads_render layout item
      have hrest := reads_renderItems layout rest
      exact ((Reads.separator layout).append hitem).append hrest

/-- The same for the members after the first. -/
theorem reads_renderMembers (layout : Layout) (members : List (String × Json)) :
    Reads .loose .loose (renderMembers layout members) (memberTokens members) := by
  match members with
  | [] => exact .nil
  | (key, value) :: rest =>
      have hvalue := reads_render layout value
      have hrest := reads_renderMembers layout rest
      have h := (((Reads.separator layout).append (Reads.key key)).append hvalue).append hrest
      simpa [renderMembers, memberTokens] using h

end

/-- The text of a value consists of the tokens of the value, in either layout. -/
theorem scan?_render (layout : Layout) (value : Json) :
    scan? (render layout value) = some (tokens value) := by
  obtain ⟨word, hpending, hword⟩ := reads_render layout value [] .start rfl
  rw [List.append_nil] at hword
  unfold scan? Scanner.finish?
  rw [hpending]
  dsimp only
  rw [hword, List.reverse_reverse]

theorem read?_render (layout : Layout) (value : Json) :
    read? (String.ofList (render layout value)) = some value := by
  unfold read?
  rw [String.toList_ofList, scan?_render]
  exact parse?_tokens value

/-- A value is read back from its text on one line. -/
theorem read?_compact (value : Json) : read? value.compact = some value := read?_render _ value

/-- A value is read back from its indented text. -/
theorem read?_indented (value : Json) : read? value.indented = some value := read?_render _ value

/-! ### The characters of texts -/

/-- All characters are ASCII. -/
def Ascii (text : List Char) : Prop := ∀ c ∈ text, c.toNat < 128

instance (text : List Char) : Decidable (Ascii text) := List.decidableBAll _ text

namespace Ascii

theorem nil : Ascii [] := fun _ h => absurd h List.not_mem_nil

theorem append {text other : List Char} (h : Ascii text) (hother : Ascii other) :
    Ascii (text ++ other) := List.forall_mem_append.mpr ⟨h, hother⟩

theorem cons {c : Char} {text : List Char} (hc : c.toNat < 128) (h : Ascii text) :
    Ascii (c :: text) := List.forall_mem_cons.mpr ⟨hc, h⟩

theorem of_isWord {text : List Char} (h : IsWord text) : Ascii text :=
  fun c hc => toNat_lt_of_isWordChar (h c hc)

theorem flatMap {α : Type} {f : α → List Char} {items : List α} (h : ∀ item, Ascii (f item)) :
    Ascii (items.flatMap f) := by
  intro c hc
  obtain ⟨item, -, hitem⟩ := List.mem_flatMap.mp hc
  exact h item c hitem

theorem unitEscape (unit : Nat) : Ascii (Json.unitEscape unit) := by
  refine append (by decide) fun c hc => ?_
  have hlt : ∀ digit < 16, digit.digitChar.toNat < 128 := by decide
  obtain ⟨digit, hdigit, rfl⟩ := mem_zeroPad hc
  exact hlt digit hdigit

theorem escape (c : Char) : Ascii (Json.escape c) := by
  have h := escaped_escape c
  generalize Json.escape c = text at h ⊢
  cases h with
  | plain hquote hescape hlow hhigh => exact cons (by omega) nil
  | letter hunit hsmall hletter => exact cons (by decide) (cons hletter nil)
  | unit hsmall => exact unitEscape _
  | pair hlarge hlimit => exact (unitEscape _).append (unitEscape _)

theorem quoted (text : String) : Ascii (Json.quoted text) :=
  (cons (by decide) (flatMap escape)).append (by decide)

theorem edge (layout : Layout) : Ascii layout.edge := by
  cases layout with
  | line => decide
  | indented depth =>
      refine cons (by decide) fun c hc => ?_
      rw [List.eq_of_mem_replicate hc]
      decide

theorem separator (layout : Layout) : Ascii layout.separator := by
  cases layout with
  | line => decide
  | indented depth => exact cons (by decide) (edge (.indented depth))

end Ascii

mutual

/-- The text of a value is ASCII. -/
theorem ascii_render (layout : Layout) (value : Json) : Ascii (render layout value) := by
  match value with
  | null => rw [render]; decide
  | bool true => rw [render]; decide
  | bool false => rw [render]; decide
  | integer n => exact .of_isWord (isWord_decimal n)
  | number x => exact .of_isWord (isWord_shortest x)
  | string text => exact .quoted text
  | array [] => rw [render]; decide
  | array (first :: rest) =>
      have hfirst := ascii_render layout.inner first
      have hrest := ascii_renderItems layout.inner rest
      exact (((((Ascii.edge layout.inner).cons (by decide)).append hfirst).append hrest).append
        (.edge layout)).append (by decide)
  | object [] => rw [render]; decide
  | object ((key, first) :: rest) =>
      have hfirst := ascii_render layout.inner first
      have hrest := ascii_renderMembers layout.inner rest
      exact (((((((Ascii.edge layout.inner).cons (by decide)).append (.quoted key)).append
        (by decide)).append hfirst).append hrest).append (.edge layout)).append (by decide)

theorem ascii_renderItems (layout : Layout) (items : List Json) :
    Ascii (renderItems layout items) := by
  match items with
  | [] => rw [renderItems]; decide
  | item :: rest =>
      have hitem := ascii_render layout item
      have hrest := ascii_renderItems layout rest
      exact ((Ascii.separator layout).append hitem).append hrest

theorem ascii_renderMembers (layout : Layout) (members : List (String × Json)) :
    Ascii (renderMembers layout members) := by
  match members with
  | [] => rw [renderMembers]; decide
  | (key, value) :: rest =>
      have hvalue := ascii_render layout value
      have hrest := ascii_renderMembers layout rest
      exact ((((Ascii.separator layout).append (.quoted key)).append (by decide)).append
        hvalue).append hrest

end

theorem ascii_compact (value : Json) : Ascii value.compact.toList := by
  rw [compact, String.toList_ofList]
  exact ascii_render _ value

theorem ascii_indented (value : Json) : Ascii value.indented.toList := by
  rw [indented, String.toList_ofList]
  exact ascii_render _ value

end SceneSet.Json
