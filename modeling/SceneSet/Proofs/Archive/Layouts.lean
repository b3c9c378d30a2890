import SceneSet.Proofs.Archive.Acceptance
import SceneSet.Proofs.Archive.RoundTrip

/-!
# Which layout an archive is read in

The header does not name the layout. In the Grim layout the word behind it is the place of the first
name among the names, or belongs to the names or the data if there are no entries, and nothing keeps
it from putting names somewhere. `read_grim` shows that a well-formed archive in the Grim layout is
read as such unless this word does.
-/

namespace SceneSet

open Bytes (slice word)

namespace Archive

/-- The names of an archive in the Grim layout are not masked. -/
theorem storedNames_grim (data : Bytes) :
    storedNames data (grimTables data) = slice data (16 + 16 * entryCount data) (namesSize data) :=
  List.map_id _

variable {data : Bytes}

/-- The first name of an archive in the Grim layout has to lie far behind for its place to put the
names somewhere. -/
theorem not_putsNames_of_namesSize_le (h : WellFormed data (grimTables data))
    (hsome : 0 < entryCount data) (hsize : namesSize data ≤ 0x13d0f + 20 + 16 * entryCount data)
    (names : Nat) : ¬ PutsNames data names := by
  rintro ⟨-, hbiased, hbehind, -⟩
  have hfirst : word data 16 < namesSize data := (h.fits 0 hsome).name
  omega

/-- An archive in the Grim layout is read as such just if the word behind its header does not put
names anywhere, which it does in no archive with an entry but few names. Its entries then say what
the table says, in the same order, with the names found among the plain ones. -/
theorem read_grim (source : String) (h : WellFormed data (grimTables data)) :
    ((∃ archive, read source data = .ok archive ∧ archive.layout = .grim ∧
        archive.size = entryCount data ∧
        ∀ (index : Nat) (entry : Entry), archive.entries[index]? = some entry →
          EntryAt data (slice data (16 + 16 * entryCount data) (namesSize data))
            (16 + 16 * index) entry) ↔
      ∀ names, ¬ PutsNames data names) ∧
    (0 < entryCount data → namesSize data ≤ 0x13d0f + 20 + 16 * entryCount data →
      ∀ names, ¬ PutsNames data names) := by
  refine ⟨⟨?_, fun hnone => ?_⟩, not_putsNames_of_namesSize_le h⟩
  · rintro ⟨archive, hread, hlayout, -, -⟩
    obtain ⟨tables, hchosen, -, rfl⟩ := read_eq_ok.mp hread
    cases hchosen with
    | emi hnames => cases hlayout
    | grim hnone => exact hnone
  · refine ⟨_, read_eq_ok.mpr ⟨_, .grim hnone, h, rfl⟩, rfl, size_stored .., ?_⟩
    intro index entry hentry
    rw [← storedNames_grim]
    exact entryAt_of_stored h hentry

/-- Three members in the Grim layout, two of which share a key, are read as such. -/
theorem read_grim_twins :
    WellFormed (pack .grim twins) (grimTables (pack .grim twins)) ∧
      ∃ archive, read "a.lab" (pack .grim twins) = .ok archive ∧ archive.layout = .grim ∧
        archive.size = 3 := by
  have hformed : WellFormed (pack .grim twins) (grimTables (pack .grim twins)) := by decide
  obtain ⟨hiff, hfew⟩ := read_grim "a.lab" hformed
  obtain ⟨archive, hread, hlayout, hsize, -⟩ := hiff.mpr (hfew (by decide) (by decide))
  exact ⟨hformed, archive, hread, hlayout, hsize⟩

/-- The words of an archive in the Grim layout with a single member, whose name is the last byte of
a long table: its place is `0x13d0f` and more. -/
def farWords : List Nat := [version, 1, 81204, 81203, 81236, 4, 0]

/-- The archive with the far name, and four bytes of data behind the names. -/
def farBytes : Bytes :=
  magic ++ farWords.flatMap (Bytes.ofNat 4) ++ (List.replicate 81203 0 ++ [0x61, 1, 2, 3, 4])

/-- The words of the archive with the far name. -/
theorem word_farBytes {i number : Nat} (h : farWords[i]? = some number) :
    word farBytes (4 + 4 * i) = number :=
  Bytes.word_flatMap_ofNat (by decide) magic _ h

theorem length_farBytes : farBytes.length = 81240 := by
  rw [farBytes, List.length_append, List.length_append, List.length_append, List.length_replicate]
  rfl

/-- The archive with the far name is well-formed, and the place of the name puts names somewhere. -/
theorem wellFormed_farBytes :
    WellFormed farBytes (grimTables farBytes) ∧ PutsNames farBytes 36 := by
  have hlength := length_farBytes
  have hcount : entryCount farBytes = 1 := @word_farBytes 1 _ rfl
  have hsize : namesSize farBytes = 81204 := @word_farBytes 2 _ rfl
  have hname : word farBytes 16 = 81203 := @word_farBytes 3 _ rfl
  have hstart : word farBytes 20 = 81236 := @word_farBytes 4 _ rfl
  have hdata : word farBytes 24 = 4 := @word_farBytes 5 _ rfl
  refine ⟨⟨by omega, rfl, ?_, ?_, fun index hindex => ?_⟩, by omega, hname, by omega, by omega⟩
  · simp only [grimTables]
    omega
  · simp only [grimTables]
    omega
  · obtain rfl : index = 0 := by omega
    refine ⟨?_, ?_⟩
    · show word farBytes 16 < _
      omega
    · show word farBytes 20 + word farBytes 24 ≤ _
      omega

/-- Archives in the Grim layout that are not read as such. The first is at the same time the archive
of no members in the EMI layout, and read as this. The second has a single member with a name at
`0x13d0f` and more, and is no archive for the reading. -/
theorem read_grim_mistaken :
    (WellFormed (pack .emi []) (grimTables (pack .emi [])) ∧
      read "a.lab" (pack .emi []) = .ok (packed "a.lab" .emi [])) ∧
    WellFormed farBytes (grimTables farBytes) ∧
      read "a.lab" farBytes = .error (.nameOutside 0 81236) := by
  obtain ⟨hformed, hnames⟩ := wellFormed_farBytes
  refine ⟨⟨by decide, by decide⟩, hformed, ?_⟩
  have hcount : entryCount farBytes = 1 := @word_farBytes 1 _ rfl
  -- the entry is looked for behind the further word, so it starts with the place of the data
  have hentry : readEntry farBytes ⟨.emi, 20, 36⟩ (storedNames farBytes ⟨.emi, 20, 36⟩) 0 =
      .error (.nameOutside 0 81236) := by
    have hname : word farBytes (20 + 0 * entrySize) = 81236 := @word_farBytes 4 _ rfl
    have hsize : namesSize farBytes = 81204 := @word_farBytes 2 _ rfl
    have hlength := @length_storedNames farBytes ⟨.emi, 20, 36⟩ hnames.inside
    unfold readEntry
    dsimp only
    rw [hname, if_pos (by omega)]
  rw [read_of_locate hformed.header hformed.magic (locate_of_putsNames hnames) hnames.inside,
    hcount, List.range_one, List.mapM_cons, hentry]
  rfl

end Archive

end SceneSet
