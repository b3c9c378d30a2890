import SceneSet.Proofs.Archive.Acceptance

/-!
# Reading an archive stays inside its bytes

`Archive.read` takes parts of its buffer without asking whether they are there. `Watched.read` does
the same with each of these accesses checked: the header, the further word of the EMI layout, the
names, and each entry with its name. `read_safe` shows that no check ever fails, whatever the bytes
are, and says which bytes are archives and what their members are.
-/

namespace SceneSet

open Bytes (slice word)

/-- A part of a part. -/
theorem Bytes.slice_slice (data : Bytes) (place : Nat) {outer start size : Nat}
    (h : start + size ≤ outer) : slice (slice data place outer) start size =
      slice data (place + start) size := by
  rw [slice, slice, slice, List.drop_take, List.drop_drop, List.take_take,
    Nat.min_eq_left (by omega)]

/-- A word in a part. -/
theorem Bytes.word_slice (data : Bytes) (place : Nat) {outer start : Nat} (h : start + 4 ≤ outer) :
    word (slice data place outer) start = word data (place + start) := by
  rw [word, slice_slice data place h, word]

namespace Archive

/-- Why a watched reading ends early: the bytes are no archive, or the reading asked for `size`
bytes at `start` of a buffer that has only `length`. -/
inductive Halt where
  | defect (reason : Defect)
  | outside (start size length : Nat)
  deriving DecidableEq

/-- A reading whose accesses are checked. -/
abbrev Watched := Except Halt

namespace Watched

/-- A part of a buffer, all of which has to be there. -/
def block (data : Bytes) (start size : Nat) : Watched Bytes :=
  if start + size ≤ data.length then .ok (slice data start size)
  else .error (.outside start size data.length)

/-- The tables of the Grim layout. -/
def locateGrim (data : Bytes) (count : Nat) : Watched Tables :=
  if data.length < headerSize + count * entrySize then .error (.defect (.entriesPastEnd count))
  else .ok ⟨.grim, headerSize, headerSize + count * entrySize⟩

/-- Finds the tables. The further word is looked at only if the buffer has one. -/
def locate (data : Bytes) (count namesSize : Nat) : Watched Tables :=
  if data.length < headerSize + 4 then locateGrim data count
  else do
    let biased := word (← block data headerSize 4) 0
    if headerSize + 4 + count * entrySize + nameBias ≤ biased
        ∧ biased - nameBias + namesSize ≤ data.length then
      .ok ⟨.emi, headerSize + 4, biased - nameBias⟩
    else locateGrim data count

/-- The entry with this index. -/
def readEntry (data : Bytes) (tables : Tables) (names : Bytes) (index : Nat) : Watched Entry := do
  let record ← block data (tables.entries + index * entrySize) entrySize
  let nameOffset := word record 0
  let start := word record 4
  let size := word record 8
  if names.length ≤ nameOffset then .error (.defect (.nameOutside index nameOffset))
  else if data.length < start + size then .error (.defect (.dataPastEnd index))
  else do
    let text ← block names nameOffset ((names.drop nameOffset).takeWhile (· != 0)).length
    .ok ⟨Latin.decode text, start, size⟩

/-- The archive that some bytes are. -/
def read (source : String) (data : Bytes) : Watched Archive :=
  if data.length < headerSize then .error (.defect (.tooSmall data.length))
  else do
    let header ← block data 0 headerSize
    let mark := slice header 0 4
    if mark ≠ magic then .error (.defect (.badMagic mark))
    else do
      let tables ← locate data (word header 8) (word header 12)
      if data.length < tables.names + word header 12 then .error (.defect .namesPastEnd)
      else do
        let names := (← block data tables.names (word header 12)).map (unmask tables.layout)
        let entries ← (List.range (word header 8)).mapM (readEntry data tables names)
        pure ⟨data, entries, tables.layout, source⟩

theorem block_eq_ok {data : Bytes} {start size : Nat} (h : start + size ≤ data.length) :
    block data start size = .ok (slice data start size) := if_pos h

/-- The tables are found without looking outside. -/
theorem locate_eq (data : Bytes) (count namesSize : Nat) :
    locate data count namesSize = (Archive.locate data count namesSize).mapError .defect := by
  have hgrim : locateGrim data count =
      (if data.length < headerSize + count * entrySize then .error (.entriesPastEnd count)
        else .ok ⟨.grim, headerSize, headerSize + count * entrySize⟩ :
        Except Defect Tables).mapError .defect := by
    unfold locateGrim
    split <;> rfl
  have hword : word (slice data headerSize 4) 0 = word data headerSize :=
    Bytes.word_slice data headerSize (show 0 + 4 ≤ 4 by decide)
  unfold locate Archive.locate
  dsimp only
  by_cases hpresent : headerSize + 4 ≤ data.length
  · rw [if_neg (Nat.not_lt.mpr hpresent), block_eq_ok hpresent]
    show (if _ ∧ _ then _ else _) = _
    rw [hword]
    by_cases hput : headerSize + 4 + count * entrySize + nameBias ≤ word data headerSize ∧
        word data headerSize - nameBias + namesSize ≤ data.length
    · rw [if_pos hput, if_pos ⟨hpresent, hput⟩]
      rfl
    · rw [if_neg hput, hgrim, if_neg fun h : _ ∧ _ => hput h.2]
  · rw [if_pos (Nat.not_le.mp hpresent), hgrim, if_neg fun h : _ ∧ _ => hpresent h.1]

/-- An entry of the table is read without looking outside. -/
theorem readEntry_eq {data names : Bytes} {tables : Tables} {index : Nat}
    (h : tables.entries + index * entrySize + entrySize ≤ data.length) :
    readEntry data tables names index =
      (Archive.readEntry data tables names index).mapError .defect := by
  unfold readEntry Archive.readEntry
  rw [block_eq_ok h]
  show (if _ then _ else if _ then _ else _) = _
  rw [Bytes.word_slice data _ (show 0 + 4 ≤ entrySize by decide),
    Bytes.word_slice data _ (show 4 + 4 ≤ entrySize by decide),
    Bytes.word_slice data _ (show 8 + 4 ≤ entrySize by decide), Nat.add_zero]
  dsimp only
  split
  · rfl
  · rename_i hname
    split
    · rfl
    · generalize word data (tables.entries + index * entrySize) = start at *
      -- the text of the name is a part of the names
      have htext : ((names.drop start).takeWhile (· != 0)).length ≤ names.length - start := by
        rw [← List.length_drop]
        exact (List.takeWhile_prefix _).length_le
      have hslice : slice names start ((names.drop start).takeWhile (· != 0)).length =
          (names.drop start).takeWhile (· != 0) :=
        (List.prefix_iff_eq_take.mp (List.takeWhile_prefix _)).symm
      rw [block_eq_ok (by omega), hslice]
      rfl

/-- Entries that are all inside are read without looking outside. -/
theorem mapM_readEntry_eq {data names : Bytes} {tables : Tables} {count : Nat}
    (h : tables.entries + count * entrySize ≤ data.length) :
    (List.range count).mapM (readEntry data tables names) =
      ((List.range count).mapM (Archive.readEntry data tables names)).mapError .defect := by
  have hall : ∀ index ∈ List.range count, readEntry data tables names index =
      (Archive.readEntry data tables names index).mapError .defect := by
    intro index hindex
    have hle : (index + 1) * entrySize ≤ count * entrySize :=
      Nat.mul_le_mul_right entrySize (List.mem_range.mp hindex)
    rw [Nat.succ_mul] at hle
    exact readEntry_eq (by omega)
  generalize List.range count = indices at hall
  induction indices with
  | nil => rfl
  | cons index indices ih =>
      rw [List.forall_mem_cons] at hall
      rw [List.mapM_cons, List.mapM_cons, hall.1, ih hall.2]
      cases Archive.readEntry data tables names index with
      | error reason => rfl
      | ok entry => cases indices.mapM (Archive.readEntry data tables names) <;> rfl

/-- A word of the header. -/
theorem word_header (data : Bytes) {start : Nat} (h : start + 4 ≤ headerSize) :
    word (slice data 0 headerSize) start = word data start := by
  rw [Bytes.word_slice data 0 h, Nat.zero_add]

/-- A watched reading does what an unwatched one does, and so it never looks outside. -/
theorem read_eq (source : String) (data : Bytes) :
    read source data = (Archive.read source data).mapError .defect := by
  unfold read Archive.read
  dsimp only
  by_cases hheader : headerSize ≤ data.length
  · have hmark : slice (slice data 0 headerSize) 0 4 = data.take 4 :=
      Bytes.slice_slice data 0 (show 0 + 4 ≤ headerSize by decide)
    have hcount : word (slice data 0 headerSize) 8 = entryCount data := word_header data (by decide)
    have hsize : word (slice data 0 headerSize) 12 = namesSize data := word_header data (by decide)
    rw [if_neg (Nat.not_lt.mpr hheader), if_neg (Nat.not_lt.mpr hheader),
      block_eq_ok (Nat.zero_add headerSize ▸ hheader)]
    show (if _ then _ else _) = _
    rw [hmark, hcount, hsize, ← entryCount, ← namesSize]
    by_cases hmagic : data.take 4 = magic
    · rw [if_neg (not_not.mpr hmagic), if_neg (not_not.mpr hmagic), locate_eq]
      cases hlocate : Archive.locate data (entryCount data) (namesSize data) with
      | error reason => rfl
      | ok tables =>
          have hentries := (locate_eq_ok.mp hlocate).2
          rw [Nat.mul_comm] at hentries
          show (if _ then _ else _) = Except.mapError _ (if _ then _ else _)
          by_cases hnames : tables.names + namesSize data ≤ data.length
          · rw [if_neg (Nat.not_lt.mpr hnames), if_neg (Nat.not_lt.mpr hnames), block_eq_ok hnames]
            show (List.mapM (m := Watched) _ _ >>= _) = _
            rw [mapM_readEntry_eq hentries]
            cases (List.range (entryCount data)).mapM (Archive.readEntry data tables
              ((slice data tables.names (namesSize data)).map (unmask tables.layout))) <;> rfl
          · rw [if_pos (Nat.not_le.mp hnames), if_pos (Nat.not_le.mp hnames)]
            rfl
    · rw [if_pos hmagic, if_pos hmagic]
      rfl
  · rw [if_pos (Nat.not_le.mp hheader), if_pos (Nat.not_le.mp hheader)]
    rfl

end Watched

/-- The entries of a well-formed archive lead inside it: all of their data is there. -/
theorem data_of_stored {source : String} {data : Bytes} {tables : Tables}
    (hformed : WellFormed data tables) {index : Nat} {entry : Entry}
    (h : (stored source data tables).entries[index]? = some entry) :
    Watched.block data entry.start entry.size = .ok ((stored source data tables).dataOf entry) ∧
      ((stored source data tables).dataOf entry).length = entry.size := by
  obtain ⟨hlt, rfl⟩ := eq_storedEntry h
  have hfits := (hformed.fits index hlt).data
  refine ⟨Watched.block_eq_ok hfits, ?_⟩
  rw [dataOf, slice, List.length_take, List.length_drop]
  exact Nat.min_eq_left (Nat.le_sub_of_add_le' hfits)

/-- Reading an archive is safe and total: whatever the bytes are, it ends with an archive or a
defect and never looks outside. It ends with an archive just if the tables that the header speaks for are
well-formed. Then all entries of the table are there, with the names and data that they lead to. -/
theorem read_safe (source : String) (data : Bytes) :
    Watched.read source data = (read source data).mapError .defect ∧
      ((∃ archive, read source data = .ok archive) ↔
        ∃ tables, Chosen data tables ∧ WellFormed data tables) ∧
      ∀ archive, read source data = .ok archive →
        ∃ tables, Chosen data tables ∧ WellFormed data tables ∧
          archive.layout = tables.layout ∧ archive.size = entryCount data ∧
          ∀ (index : Nat) (entry : Entry), archive.entries[index]? = some entry →
            EntryAt data (storedNames data tables) (tables.entries + 16 * index) entry ∧
            '\x00' ∉ entry.name.toList ∧
            Watched.block data entry.start entry.size = .ok (archive.dataOf entry) ∧
            (archive.dataOf entry).length = entry.size := by
  refine ⟨Watched.read_eq source data, ?_, fun archive h => ?_⟩
  · constructor
    · rintro ⟨archive, h⟩
      obtain ⟨tables, hchosen, hformed, -⟩ := read_eq_ok.mp h
      exact ⟨tables, hchosen, hformed⟩
    · rintro ⟨tables, hchosen, hformed⟩
      exact ⟨_, read_eq_ok.mpr ⟨tables, hchosen, hformed, rfl⟩⟩
  · obtain ⟨tables, hchosen, hformed, rfl⟩ := read_eq_ok.mp h
    refine ⟨tables, hchosen, hformed, rfl, size_stored .., fun index entry hentry => ?_⟩
    refine ⟨entryAt_of_stored hformed hentry, ?_, data_of_stored hformed hentry⟩
    rw [(eq_storedEntry hentry).2]
    exact nul_not_mem_name _ _

/-- An archive in the EMI layout with odd entries: the first has the whole archive as its data, and
the second has none, at the very end. The name of the second ends with the names, without a NUL. -/
def oddBytes : Bytes :=
  [0x4c, 0x41, 0x42, 0x4e, 0, 0, 0, 0, 2, 0, 0, 0, 3, 0, 0, 0, 0x43, 0x3d, 1, 0,
    0, 0, 0, 0, 0, 0, 0, 0, 55, 0, 0, 0, 0, 0, 0, 0,
    2, 0, 0, 0, 55, 0, 0, 0, 0, 0, 0, 0, 0, 0, 0, 0, 0xf7, 0, 0xf4]

/-- What the odd archive is read as. -/
def odd : Archive := ⟨oddBytes, [⟨"a", 0, 55⟩, ⟨"b", 55, 0⟩], .emi, "odd.lab"⟩

/-- The odd archive is read safely too. -/
theorem read_safe_odd :
    read "odd.lab" oddBytes = .ok odd ∧ Watched.read "odd.lab" oddBytes = .ok odd ∧
      ∃ tables, Chosen oddBytes tables ∧ WellFormed oddBytes tables ∧ tables.layout = .emi ∧
        EntryAt oddBytes (storedNames oddBytes tables) (tables.entries + 16) ⟨"b", 55, 0⟩ := by
  have hread : read "odd.lab" oddBytes = .ok odd := by decide
  obtain ⟨hwatched, -, hall⟩ := read_safe "odd.lab" oddBytes
  obtain ⟨tables, hchosen, hformed, hlayout, -, hentries⟩ := hall odd hread
  rw [hread] at hwatched
  exact ⟨hread, hwatched, tables, hchosen, hformed, hlayout.symm, (hentries 1 _ rfl).1⟩

end Archive

end SceneSet
