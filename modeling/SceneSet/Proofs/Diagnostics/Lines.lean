import SceneSet.Diagnostics
import SceneSet.Proofs.Text.Quoted
import Mathlib.Data.List.TakeWhile

/-!
# Lines of diagnostics

Every line of a log begins with the place of its entry (`place?_line`), so the lines of a log count
from one (`map_place?_lines`). `Log.entry?` reads a whole line. If an entry is legible, that is, if
it has printable characters only, then its line is one line and tells the entry (`entry?_line`), and
the lines of a log of such entries are found again in its file (`ofBytes?_text`).
-/

namespace SceneSet

/-- Neither the kind nor the message of an entry can be mistaken for something else in its line. -/
structure Diagnostic.Legible (entry : Diagnostic) : Prop where
  kind : Latin.Printable entry.kind.toList
  word : ' ' ∉ entry.kind.toList
  offset : 0 ≤ entry.offset
  message : Latin.Printable entry.message.toList

theorem Diagnostic.Legible.of_message {kind message : String} {offset : Int}
    (hkind : Numeral.Printable kind.toList ∧ ' ' ∉ kind.toList) (hoffset : 0 ≤ offset)
    (hmessage : Latin.Printable message.toList) : Legible ⟨kind, offset, message⟩ :=
  ⟨.of_numeral hkind.1, hkind.2, hoffset, hmessage⟩

namespace Log

/-- All entries of a log are legible. -/
def Legible (log : Log) : Prop := ∀ entry ∈ log.entries, entry.Legible

/-- A field of a line, which is between a label and the next blank, and what follows that. -/
def field? (label : String) (text : List Char) : Option (List Char × List Char) :=
  if label.toList.isPrefixOf text then
    let text := text.drop label.length
    some (text.takeWhile (· != ' '), (text.dropWhile (· != ' ')).drop 1)
  else none

/-- The place that a line begins with. -/
def place? (line : String) : Option Nat :=
  (field? "#" line.toList).map fun (place, _) => Nat.ofDigitChars 10 place 0

/-- The place and the entry that a line tells. -/
def entry? (line : String) : Option (Nat × Diagnostic) := do
  let place ← place? line
  let (_, text) ← field? "#" line.toList
  let (offset, text) ← field? "offset=0x" text
  let (kind, text) ← field? "kind=" text
  let offset ← Json.hexNumber? offset
  -- the kind is padded with blanks
  pure (place, ⟨String.ofList kind, offset, String.ofList (text.drop (16 - kind.length))⟩)

variable {entry : Diagnostic} {log : Log}

theorem field?_append (label : String) {value : List Char} (h : ' ' ∉ value) (rest : List Char) :
    field? label (label.toList ++ (value ++ ' ' :: rest)) = some (value, rest) := by
  have hvalue : ∀ c ∈ value, (c != ' ') = true := fun c hc =>
    bne_iff_ne.mpr fun heq => h (heq ▸ hc)
  unfold field?
  rw [if_pos (List.isPrefixOf_iff_prefix.mpr (List.prefix_append _ _)), ← String.length_toList,
    List.drop_left]
  dsimp only
  rw [List.takeWhile_append_of_pos hvalue, List.dropWhile_append_of_pos hvalue]
  simp

/-- What a line is made of. -/
theorem toList_line (entry : Diagnostic) (place : Nat) : (line entry place).toList =
    "#".toList ++ (Numeral.zeroPad 4 (Numeral.digits place) ++ ' ' ::
      ("offset=0x".toList ++ ((Numeral.upperHex 4 entry.offset).toList ++ ' ' ::
        ("kind=".toList ++ (entry.kind.toList ++ ' ' ::
          (List.replicate (16 - entry.kind.toList.length) ' ' ++ entry.message.toList)))))) := by
  have hblank (count : Nat) (text : List Char) :
      List.replicate count ' ' ++ (" ".toList ++ text) =
        ' ' :: (List.replicate count ' ' ++ text) := by
    show List.replicate count ' ' ++ ' ' :: text = _
    rw [List.append_cons, ← List.replicate_succ', List.replicate_succ, List.cons_append]
  unfold line Numeral.padded Numeral.padRight List.rightpad
  simp only [String.toList_append, String.toList_ofList, List.append_assoc]
  rw [hblank]
  rfl

theorem blank_not_mem_place (place : Nat) : ' ' ∉ Numeral.zeroPad 4 (Numeral.digits place) := by
  intro hmem
  rcases List.mem_append.mp hmem with hzero | hdigit
  · exact absurd (List.eq_of_mem_replicate hzero) (by decide)
  · exact Numeral.blank_not_mem_digits place hdigit

/-- A line begins with its place. -/
theorem place?_line (entry : Diagnostic) (place : Nat) :
    place? (line entry place) = some place := by
  unfold place?
  rw [toList_line, field?_append "#" (blank_not_mem_place place), Option.map_some]
  dsimp only [Numeral.zeroPad, List.leftpad]
  rw [Nat.ofDigitChars_append, Nat.ofDigitChars_replicate_zero, Nat.mul_zero]
  exact congrArg some Nat.ofDigitChars_ten_toDigits

/-- There is a line for each entry, with the place of the entry. -/
theorem getElem?_lines (log : Log) (i : Nat) :
    log.lines[i]? = log.entries[i]?.map fun entry => line entry (i + 1) := by
  unfold lines
  rw [List.getElem?_map, List.getElem?_zipIdx, Option.map_map]
  simp only [Function.comp_def, Nat.add_comm]

theorem length_lines (log : Log) : log.lines.length = log.size := by
  simp [lines, size]

/-- The lines of a log count from one. -/
theorem map_place?_lines (log : Log) :
    log.lines.map place? = (List.range' 1 log.size).map some := by
  refine List.ext_getElem? fun i => ?_
  rw [List.getElem?_map, getElem?_lines, List.getElem?_map, Option.map_map]
  simp only [Function.comp_def, place?_line]
  by_cases hi : i < log.size
  · rw [List.getElem?_eq_getElem hi, List.getElem?_range' hi]
    simp [Nat.add_comm]
  · rw [List.getElem?_eq_none (Nat.not_lt.mp hi), List.getElem?_eq_none (by simpa using hi)]
    rfl

/-! ### Legible entries -/

/-- The line of a legible entry tells its place, and the entry. -/
theorem entry?_line (h : entry.Legible) (place : Nat) :
    entry? (line entry place) = some (place, entry) := by
  obtain ⟨kind, offset, message⟩ := entry
  obtain ⟨n, hoffset⟩ := Int.eq_ofNat_of_zero_le h.offset
  dsimp only at hoffset
  subst hoffset
  have hkind := field?_append "kind=" h.word
    (List.replicate (16 - kind.toList.length) ' ' ++ message.toList)
  have hoffset := field?_append "offset=0x" (Numeral.blank_not_mem_upperHex 4 n)
  unfold entry?
  rw [place?_line, toList_line, field?_append "#" (blank_not_mem_place place)]
  simp only [Option.bind_eq_bind, Option.bind_some, hoffset, hkind, Numeral.hexNumber?_upperHex]
  have hmessage : (List.replicate (16 - kind.toList.length) ' ' ++ message.toList).drop
      (16 - kind.toList.length) = message.toList :=
    List.drop_left' (List.length_replicate ..)
  rw [hmessage, String.ofList_toList, String.ofList_toList]
  rfl

/-- The lines of legible entries tell them all. -/
theorem Legible.entry?_lines (h : log.Legible) (i : Nat) :
    log.lines[i]?.bind entry? = log.entries[i]?.map (i + 1, ·) := by
  rw [getElem?_lines]
  cases hentry : log.entries[i]? with
  | none => rfl
  | some entry =>
      rw [Option.map_some, Option.bind_some, Option.map_some]
      exact entry?_line (h entry (List.mem_of_getElem? hentry)) (i + 1)

theorem Legible.recordAll {entries : List Diagnostic} (h : log.Legible)
    (hentries : ∀ entry ∈ entries, entry.Legible) : (log.recordAll entries).Legible :=
  List.forall_mem_append.mpr ⟨h, hentries⟩

/-- The line of a legible entry is one line. -/
theorem isBreak_line (h : entry.Legible) (place : Nat) :
    ∀ c ∈ (line entry place).toList, Lines.isBreak c = false := by
  obtain ⟨n, hoffset⟩ := Int.eq_ofNat_of_zero_le h.offset
  have hplace := Latin.Printable.of_numeral
    (Numeral.printable_zeroPad (Numeral.printable_digits place) 4)
  have hpadding : Latin.Printable (entry.kind.toList.rightpad 16 ' ') :=
    h.kind.append (fun c hc => by rw [List.eq_of_mem_replicate hc]; decide)
  refine Latin.Printable.isBreak_eq_false ?_
  unfold line Numeral.padded Numeral.padRight
  rw [hoffset]
  simp only [String.toList_append, String.toList_ofList]
  refine .append (.append (.append (.append (.append (.append (.append ?_ hplace) ?_) ?_) ?_)
    hpadding) ?_) h.message
  · exact .of_numeral (by decide)
  · exact .of_numeral (by decide)
  · exact .of_numeral (Numeral.printable_upperHex 4 n)
  · exact .of_numeral (by decide)
  · exact .of_numeral (by decide)

/-- The lines of legible entries are found again in the file of a log. -/
theorem ofBytes?_text (h : log.Legible) : Lines.ofBytes? (utf8 log.text) = some log.lines := by
  refine Lines.ofBytes?_join fun line hline => ?_
  obtain ⟨⟨entry, place⟩, hentry, rfl⟩ := List.mem_map.mp hline
  exact isBreak_line (h entry (List.fst_mem_of_mem_zipIdx hentry)) place

end Log

end SceneSet
