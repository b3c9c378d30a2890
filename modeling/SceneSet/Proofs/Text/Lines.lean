import SceneSet.Text.Latin

/-!
# Lines of texts and of files

`Lines.ofText` cuts a text wherever a reader of lines may do so: at line feeds and carriage returns,
but also at the other characters that end a line. Lines without such characters that are written
with a line feed after each are found again (`ofText_join`), also in a file (`ofBytes?_join`).
-/

namespace SceneSet.Lines

/-- The characters that end a line, by their numbers. -/
def breaks : List Nat := [0x0a, 0x0b, 0x0c, 0x0d, 0x1c, 0x1d, 0x1e, 0x85, 0x2028, 0x2029]

/-- Whether a character ends a line. -/
def isBreak (c : Char) : Bool := breaks.contains c.toNat

/-- The lines of a text. A carriage return and a line feed together end one line, and nothing has to
follow the end of the last one. -/
def split : List Char → List (List Char)
  | [] => []
  | '\r' :: '\n' :: text => [] :: split text
  | c :: text =>
      if isBreak c then [] :: split text
      else match split text with
        | [] => [[c]]
        | line :: lines => (c :: line) :: lines

/-- The lines of a text. -/
def ofText (text : String) : List String := (split text.toList).map String.ofList

/-- The lines of a file, if it holds a text. -/
def ofBytes? (content : Bytes) : Option (List String) :=
  (String.fromUTF8? content.toByteArray).map ofText

theorem split_cons {c : Char} (h : isBreak c = false) (text : List Char) :
    split (c :: text) = match split text with
      | [] => [[c]]
      | line :: lines => (c :: line) :: lines := by
  rw [split, if_neg (Bool.eq_false_iff.mp h)]
  rintro _ rfl
  exact absurd h (by decide)

/-- A line ends at the first character that can end one. -/
theorem split_append {line : List Char} (h : ∀ c ∈ line, isBreak c = false) (text : List Char) :
    split (line ++ '\n' :: text) = line :: split text := by
  induction line with
  | nil => rfl
  | cons c line ih =>
      rw [List.forall_mem_cons] at h
      rw [List.cons_append, split_cons h.1, ih h.2]

theorem split_flatMap {lines : List (List Char)}
    (h : ∀ line ∈ lines, ∀ c ∈ line, isBreak c = false) :
    split (lines.flatMap (· ++ ['\n'])) = lines := by
  induction lines with
  | nil => rfl
  | cons line lines ih =>
      rw [List.forall_mem_cons] at h
      rw [List.flatMap_cons, List.append_assoc, List.singleton_append, split_append h.1, ih h.2]

/-- Lines are found again in the text that they make. -/
theorem ofText_join {lines : List String}
    (h : ∀ line ∈ lines, ∀ c ∈ line.toList, isBreak c = false) :
    ofText (String.join (lines.map (· ++ "\n"))) = lines := by
  have htext : (String.join (lines.map (· ++ "\n"))).toList =
      (lines.map String.toList).flatMap (· ++ ['\n']) := by
    rw [String.toList_join, List.flatMap_map, List.flatMap_map]
    simp only [String.toList_append]
    rfl
  rw [ofText, htext, split_flatMap (List.forall_mem_map.mpr h), List.map_map]
  exact (List.map_congr_left fun line _ => String.ofList_toList).trans (List.map_id lines)

/-- A file that holds a text is read as this text. -/
theorem fromUTF8?_utf8 (text : String) : String.fromUTF8? (utf8 text).toByteArray = some text := by
  have hbytes : (utf8 text).toByteArray = text.toByteArray := String.utf8Encode_toList
  rw [hbytes, String.fromUTF8?, dif_pos text.isValidUTF8]
  rfl

/-- Lines are found again in a file. -/
theorem ofBytes?_join {lines : List String}
    (h : ∀ line ∈ lines, ∀ c ∈ line.toList, isBreak c = false) :
    ofBytes? (utf8 (String.join (lines.map (· ++ "\n")))) = some lines := by
  rw [ofBytes?, fromUTF8?_utf8, Option.map_some, ofText_join h]

end SceneSet.Lines
