import SceneSet.Text.Glob

/-!
# Brackets of glob patterns

What stands between brackets is a list of choices, single characters and ranges, read from left to
right: a character with a hyphen and another one after it makes a range (`Glob.choicesOf`). Ranges
without characters are not there at all, and an exclamation mark that comes first then turns the
choices around (`Bracket.ofText`). This is what the sets of a pattern contain
(`contains_ofText`), although they are made in another way, from the pieces between the hyphens.
-/

namespace SceneSet.Glob

/-- A character, or a range of characters. -/
inductive Choice where
  | one (c : Char)
  | range (low high : Char)
  deriving DecidableEq

namespace Choice

/-- Whether a character is among a choice. -/
def Admits : Choice → Char → Prop
  | one d, c => c = d
  | range low high, c => low ≤ c ∧ c ≤ high

/-- Whether a range ends before it starts. -/
def isVoid : Choice → Bool
  | one _ => false
  | range low high => high < low

end Choice

/-- The choices that a text between brackets is made of. -/
def choicesOf : List Char → List Choice
  | low :: '-' :: high :: rest => .range low high :: choicesOf rest
  | c :: rest => .one c :: choicesOf rest
  | [] => []

/-- What stands between brackets: choices, or all characters but those. -/
structure Bracket where
  negated : Bool
  choices : List Choice

namespace Bracket

/-- Whether a character is meant. -/
def Admits (bracket : Bracket) (c : Char) : Prop :=
  if bracket.negated then ¬ ∃ choice ∈ bracket.choices, choice.Admits c
  else ∃ choice ∈ bracket.choices, choice.Admits c

/-- What choices mean. If an exclamation mark is the first of them, the others are turned around. If
it begins the first range, the rest of that are two characters. -/
def ofChoices : List Choice → Bracket
  | .one '!' :: rest => ⟨true, rest⟩
  | .range '!' high :: rest => ⟨true, .one '-' :: .one high :: rest⟩
  | all => ⟨false, all⟩

/-- What a text between brackets means. The void ranges are gone before a first exclamation mark is
looked for. -/
def ofText : List Char → Bracket
  | '!' :: text => ⟨true, choicesOf text⟩
  | text => ofChoices ((choicesOf text).filter fun choice => !choice.isVoid)

end Bracket

/-- No character is in a void range. -/
theorem exists_mem_filter_isVoid {all : List Choice} {c : Char} :
    (∃ choice ∈ all.filter fun choice => !choice.isVoid, choice.Admits c) ↔
      ∃ choice ∈ all, choice.Admits c := by
  constructor
  · rintro ⟨choice, hmem, hadmits⟩
    exact ⟨choice, (List.mem_filter.mp hmem).1, hadmits⟩
  · rintro ⟨choice, hmem, hadmits⟩
    refine ⟨choice, List.mem_filter.mpr ⟨hmem, ?_⟩, hadmits⟩
    cases choice with
    | one d => rfl
    | range low high =>
        have hle : low ≤ high := Char.le_trans hadmits.1 hadmits.2
        simpa [Choice.isVoid] using hle

/-! ### Pieces between hyphens -/

/-- A piece and those after it, with ranges between them: each has a last character if another
follows, and each but the first has a first character beside that. -/
inductive Chained : List Char → List (List Char) → Prop
  | last (piece : List Char) : Chained piece []
  | next (front : List Char) (low high : Char) {tail : List Char} {rest : List (List Char)} :
      Chained tail rest → Chained (front ++ [low]) ((high :: tail) :: rest)

/-- The choices that pieces stand for. -/
def joined : List Char → List (List Char) → List Choice
  | piece, [] => piece.map .one
  | piece, following :: rest =>
      piece.dropLast.map .one ++
        .range (piece.getLastD ' ') (following.headD ' ') :: joined (following.drop 1) rest

theorem joined_next (front : List Char) (low high : Char) (tail : List Char)
    (rest : List (List Char)) : joined (front ++ [low]) ((high :: tail) :: rest) =
      front.map .one ++ .range low high :: joined tail rest := by
  rw [joined, List.dropLast_concat, List.getLastD_concat]
  rfl

variable {piece : List Char} {rest : List (List Char)}

/-- Characters in front of a piece are choices of their own. -/
theorem Chained.append (h : Chained piece rest) (front : List Char) :
    Chained (front ++ piece) rest ∧ joined (front ++ piece) rest =
      front.map .one ++ joined piece rest := by
  cases h with
  | last => exact ⟨.last _, List.map_append⟩
  | next middle low high htail =>
      rw [← List.append_assoc]
      refine ⟨.next (front ++ middle) low high htail, ?_⟩
      rw [joined_next, joined_next, List.map_append, List.append_assoc]

/-- The pieces have the choices of a text, with some characters in front of the first. -/
def Reads (front text : List Char) (pieces : List (List Char)) : Prop :=
  ∃ piece rest, pieces = (front ++ piece) :: rest ∧ Chained piece rest ∧
    joined piece rest = choicesOf text

theorem cut_hyphen (read : List Char) {text : List Char} (h : text ≠ []) :
    CharSet.cut 0 read ('-' :: text) = read.reverse :: CharSet.cut 2 [] text := by
  rw [CharSet.cut, if_pos ⟨rfl, rfl, h⟩]

theorem cut_other {pending : Nat} {c : Char} {text : List Char}
    (h : ¬ (c = '-' ∧ pending = 0 ∧ text ≠ [])) (read : List Char) :
    CharSet.cut pending read (c :: text) = CharSet.cut (pending - 1) (c :: read) text := by
  rw [CharSet.cut, if_neg h]

theorem choicesOf_other {c d : Char} {text : List Char} (h : ¬ (d = '-' ∧ text ≠ [])) :
    choicesOf (c :: d :: text) = .one c :: choicesOf (d :: text) := by
  refine choicesOf.eq_2 c (d :: text) fun high rest heq => h ?_
  obtain ⟨rfl, rfl⟩ := List.cons.inj heq
  exact ⟨rfl, List.cons_ne_nil high rest⟩

/-- A text is cut into pieces with its choices, if a character that starts a choice has been
read. -/
theorem reads_cut (text : List Char) (c : Char) (read : List Char) :
    Reads read.reverse (c :: text) (CharSet.cut 0 (c :: read) text) := by
  induction hlength : text.length using Nat.strongRecOn generalizing text c read with
  | ind length ih =>
      cases text with
      | nil => exact ⟨[c], [], by simp [CharSet.cut], .last _, rfl⟩
      | cons d more =>
          by_cases hrange : d = '-' ∧ more ≠ []
          · -- the next piece starts with the end of the range
            obtain ⟨rfl, hmore⟩ := hrange
            obtain ⟨high, after, rfl⟩ := List.exists_cons_of_ne_nil hmore
            rw [cut_hyphen _ hmore, cut_other (by simp)]
            cases after with
            | nil => exact ⟨[c], [[high]], by simp [CharSet.cut], .next [] c high (.last []), rfl⟩
            | cons next after =>
                obtain ⟨piece, rest, hcut, hchained, hjoined⟩ :=
                  ih after.length (by simp at hlength; omega) after next [high] rfl
                refine ⟨[c], (high :: piece) :: rest, ?_, .next [] c high hchained, ?_⟩
                · rw [cut_other (by simp), hcut]
                  simp
                · rw [← List.nil_append [c], joined_next, hjoined]
                  rfl
          · obtain ⟨piece, rest, hcut, hchained, hjoined⟩ :=
              ih more.length (by simp at hlength; omega) more d (c :: read) rfl
            obtain ⟨hfront, hchoices⟩ := hchained.append [c]
            refine ⟨c :: piece, rest, ?_, hfront, ?_⟩
            · rw [cut_other (by simpa using hrange), hcut]
              simp
            · rw [choicesOf_other hrange, ← hjoined]
              exact hchoices

/-- The text of a bracket is cut into pieces with its choices. A first exclamation mark is kept in
front. -/
theorem reads_cut_start (text front : List Char) :
    Reads front text (CharSet.cut 1 front.reverse text) := by
  cases text with
  | nil => exact ⟨[], [], by simp [CharSet.cut], .last _, rfl⟩
  | cons c text =>
      rw [cut_other (by simp)]
      have h := reads_cut text c front.reverse
      rwa [List.reverse_reverse] at h

theorem filter_isVoid_map_one (piece : List Char) :
    (piece.map Choice.one).filter (fun choice => !choice.isVoid) = piece.map .one := by
  refine List.filter_eq_self.mpr fun choice hmem => ?_
  obtain ⟨c, -, rfl⟩ := List.mem_map.mp hmem
  rfl

/-- Void ranges can be dropped from pieces, without a look at what stands in front of them. -/
theorem dropEmptyRanges_eq (h : Chained piece rest) : ∃ kept others, Chained kept others ∧
    (joined kept others = (joined piece rest).filter fun choice => !choice.isVoid) ∧
    ∀ front, CharSet.dropEmptyRanges ((front ++ piece) :: rest) = (front ++ kept) :: others := by
  induction h with
  | last piece => exact ⟨piece, [], .last piece, (filter_isVoid_map_one piece).symm, fun _ => rfl⟩
  | @next front low high tail rest htail ih =>
      obtain ⟨kept, others, hchained, hjoined, hdrop⟩ := ih
      have hrest : CharSet.dropEmptyRanges ((high :: tail) :: rest) = (high :: kept) :: others :=
        hdrop [high]
      by_cases hvoid : high < low
      · obtain ⟨hfront, hchoices⟩ := hchained.append front
        refine ⟨front ++ kept, others, hfront, ?_, fun before => ?_⟩
        · rw [hchoices, hjoined, joined_next, List.filter_append, filter_isVoid_map_one,
            List.filter_cons_of_neg (by simp [Choice.isVoid, hvoid])]
        · rw [CharSet.dropEmptyRanges, hrest, ← List.append_assoc]
          simp [hvoid]
      · refine ⟨front ++ [low], (high :: kept) :: others, .next front low high hchained, ?_,
          fun before => ?_⟩
        · rw [joined_next, hjoined, joined_next, List.filter_append, filter_isVoid_map_one,
            List.filter_cons_of_pos (by simpa [Choice.isVoid] using hvoid)]
        · rw [CharSet.dropEmptyRanges, hrest, ← List.append_assoc]
          simp [hvoid]

/-! ### Membership -/

theorem exists_mem_map_one {piece : List Char} {c : Char} :
    (∃ choice ∈ piece.map Choice.one, choice.Admits c) ↔ c ∈ piece := by
  constructor
  · rintro ⟨choice, hmem, hadmits⟩
    obtain ⟨d, hd, rfl⟩ := List.mem_map.mp hmem
    exact (show c = d from hadmits) ▸ hd
  · exact fun h => ⟨.one c, List.mem_map_of_mem h, rfl⟩

theorem singlesOf_next (front : List Char) (low high : Char) (tail : List Char)
    (rest : List (List Char)) :
    CharSet.singlesOf true ((front ++ [low]) :: (high :: tail) :: rest) =
      front ++ CharSet.singlesOf true (tail :: rest) := by
  cases rest <;> simp [CharSet.singlesOf]

theorem rangesOf_next (front : List Char) (low high : Char) {tail : List Char}
    (h : Chained tail rest) : CharSet.rangesOf ((front ++ [low]) :: (high :: tail) :: rest) =
      (low, high) :: CharSet.rangesOf (tail :: rest) := by
  cases h with
  | last => simp [CharSet.rangesOf]
  | next middle => simp [CharSet.rangesOf, List.getLast?_cons]

/-- A choice of the pieces admits a character if it is one of their single characters or between
the ends of one of their ranges. -/
theorem exists_mem_joined (h : Chained piece rest) (c : Char) :
    (∃ choice ∈ joined piece rest, choice.Admits c) ↔
      c ∈ CharSet.singlesOf true (piece :: rest) ∨
        ∃ range ∈ CharSet.rangesOf (piece :: rest), range.1 ≤ c ∧ c ≤ range.2 := by
  induction h with
  | last piece =>
      rw [joined, exists_mem_map_one]
      simp [CharSet.singlesOf, CharSet.rangesOf]
  | @next front low high tail rest htail ih =>
      have hsplit : (∃ choice ∈ joined (front ++ [low]) ((high :: tail) :: rest), choice.Admits c) ↔
          c ∈ front ∨ (low ≤ c ∧ c ≤ high) ∨ ∃ choice ∈ joined tail rest, choice.Admits c := by
        simp only [joined_next, List.mem_append, List.mem_cons, or_and_right, exists_or,
          exists_mem_map_one, exists_eq_left]
        rfl
      rw [hsplit, ih, singlesOf_next, rangesOf_next _ _ _ htail, List.mem_append]
      simp only [List.mem_cons, exists_eq_or_imp]
      grind

/-- A set made of pieces, and of characters that were read before them. -/
theorem contains_chained (h : Chained piece rest) (negated : Bool) (before : List Char) (c : Char) :
    (CharSet.mk negated (before ++ CharSet.singlesOf true (piece :: rest))
      (CharSet.rangesOf (piece :: rest))).contains c = true ↔
        (Bracket.mk negated (before.map .one ++ joined piece rest)).Admits c := by
  have hlisted : (∃ choice ∈ before.map .one ++ joined piece rest, choice.Admits c) ↔
      c ∈ before ++ CharSet.singlesOf true (piece :: rest) ∨
        ∃ range ∈ CharSet.rangesOf (piece :: rest), range.1 ≤ c ∧ c ≤ range.2 := by
    simp only [List.mem_append, or_and_right, exists_or, exists_mem_map_one, or_assoc]
    rw [exists_mem_joined h]
  rw [Bracket.Admits, hlisted]
  cases negated <;> simp [CharSet.contains]

theorem contains_ofPieces (h : Chained piece rest) (negated : Bool) (c : Char) :
    (CharSet.ofPieces negated (piece :: rest)).contains c = true ↔
      (Bracket.mk negated (joined piece rest)).Admits c := by
  have hset : CharSet.ofPieces negated (piece :: rest) =
      ⟨negated, CharSet.singlesOf true (piece :: rest), CharSet.rangesOf (piece :: rest)⟩ := by
    cases h with
    | last => cases piece <;> rfl
    | next front => cases front <;> rfl
  rw [hset]
  exact contains_chained h negated [] c

/-- A first range that begins with the exclamation mark of a set. -/
theorem contains_ofPieces_nil {high : Char} {tail : List Char} (h : Chained tail rest) (c : Char) :
    (CharSet.ofPieces true ([] :: (high :: tail) :: rest)).contains c = true ↔
      (Bracket.mk true (.one '-' :: .one high :: joined tail rest)).Admits c := by
  obtain ⟨hchained, hjoined⟩ := h.append [high]
  have hset := contains_chained hchained true ['-'] c
  rwa [hjoined] at hset

theorem ofChoices_one {d : Char} (h : d ≠ '!') (all : List Choice) :
    Bracket.ofChoices (.one d :: all) = ⟨false, .one d :: all⟩ :=
  Bracket.ofChoices.eq_3 _ (fun _ heq => h (Choice.one.inj (List.cons.inj heq).1)) nofun

theorem ofChoices_range {low : Char} (h : low ≠ '!') (high : Char) (all : List Choice) :
    Bracket.ofChoices (.range low high :: all) = ⟨false, .range low high :: all⟩ :=
  Bracket.ofChoices.eq_3 _ nofun fun _ _ heq => h (Choice.range.inj (List.cons.inj heq).1).1

/-- The pieces of the text of a bracket. -/
def pieces (text : List Char) : List (List Char) :=
  CharSet.dropEmptyRanges (CharSet.cut (if text.head? = some '!' then 2 else 1) [] text)

theorem ofText_negated {text : List Char} (h : pieces text = ('!' :: piece) :: rest) :
    CharSet.ofText text = CharSet.ofPieces true (piece :: rest) := by
  rw [CharSet.ofText, show CharSet.dropEmptyRanges _ = _ from h]
  rfl

theorem ofText_plain {text : List Char} (h : pieces text = piece :: rest)
    (hmark : piece.head? ≠ some '!') :
    CharSet.ofText text = CharSet.ofPieces false (piece :: rest) := by
  rw [CharSet.ofText, show CharSet.dropEmptyRanges _ = _ from h]
  split
  · rename_i heq
    exact absurd (congrArg List.head? (List.cons.inj heq).1) hmark
  · rfl

/-- The set of the pieces that are left has the characters that their choices admit. -/
theorem contains_ofText_of_chained {text : List Char} (h : Chained piece rest)
    (hpieces : pieces text = piece :: rest) (c : Char) :
    (CharSet.ofText text).contains c = true ↔
      (Bracket.ofChoices (joined piece rest)).Admits c := by
  have hplain (hmark : piece.head? ≠ some '!') : (CharSet.ofText text).contains c = true ↔
      (Bracket.mk false (joined piece rest)).Admits c := by
    rw [ofText_plain hpieces hmark]
    exact contains_ofPieces h false c
  -- the first choice is a character of the first piece, or a range from it
  cases h with
  | last =>
      cases piece with
      | nil => exact hplain nofun
      | cons d tail =>
          by_cases hmark : d = '!'
          · subst hmark
            rw [ofText_negated hpieces]
            exact contains_ofPieces (.last tail) true c
          · rw [joined, List.map_cons, ofChoices_one hmark]
            exact hplain (by simpa using hmark)
  | next front low high htail =>
      rw [joined_next] at hplain ⊢
      cases front with
      | nil =>
          by_cases hmark : low = '!'
          · subst hmark
            rw [ofText_negated hpieces]
            exact contains_ofPieces_nil htail c
          · rw [List.map_nil, List.nil_append, ofChoices_range hmark]
            exact hplain (by simpa using hmark)
      | cons d front =>
          by_cases hmark : d = '!'
          · subst hmark
            have hset := contains_ofPieces (.next front low high htail) true c
            rw [joined_next] at hset
            rw [ofText_negated hpieces]
            exact hset
          · rw [List.map_cons, List.cons_append, ofChoices_one hmark]
            exact hplain (by simpa using hmark)

/-- The set made of the text of a bracket has the characters that the bracket admits. -/
theorem contains_ofText (text : List Char) (c : Char) :
    (CharSet.ofText text).contains c = true ↔ (Bracket.ofText text).Admits c := by
  by_cases hmark : ∃ tail, text = '!' :: tail
  · obtain ⟨tail, rfl⟩ := hmark
    obtain ⟨piece, rest, hcut, hchained, hjoined⟩ := reads_cut_start tail ['!']
    obtain ⟨kept, others, hkept, hchoices, hdrop⟩ := dropEmptyRanges_eq hchained
    have hpieces : pieces ('!' :: tail) = ('!' :: kept) :: others := by
      rw [pieces, List.head?_cons, if_pos rfl, cut_other (by simp)]
      exact (congrArg CharSet.dropEmptyRanges hcut).trans (hdrop ['!'])
    rw [ofText_negated hpieces, contains_ofPieces hkept, hchoices, hjoined]
    show (¬ _) ↔ ¬ ∃ choice ∈ choicesOf tail, choice.Admits c
    rw [exists_mem_filter_isVoid]
  · obtain ⟨piece, rest, hcut, hchained, hjoined⟩ := reads_cut_start text []
    obtain ⟨kept, others, hkept, hchoices, hdrop⟩ := dropEmptyRanges_eq hchained
    have hhead : text.head? ≠ some '!' := by
      cases text with
      | nil => nofun
      | cons d tail => exact fun h => hmark ⟨tail, by rw [Option.some.inj h]⟩
    have hpieces : pieces text = kept :: others := by
      rw [pieces, if_neg hhead]
      exact (congrArg CharSet.dropEmptyRanges hcut).trans (hdrop [])
    have hbracket : Bracket.ofText text = Bracket.ofChoices (joined kept others) := by
      rw [hchoices, hjoined]
      exact Bracket.ofText.eq_2 text fun tail h => hmark ⟨tail, h⟩
    rw [hbracket]
    exact contains_ofText_of_chained hkept hpieces c

end SceneSet.Glob
