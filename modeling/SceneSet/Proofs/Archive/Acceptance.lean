import SceneSet.Archive
import SceneSet.Proofs.Reader.Basic
import Mathlib.Tactic.MkIffOfInductiveProp

/-!
# Which bytes are archives

The words of an archive are arbitrary, so its reading checks them. `Chosen` says which tables the
header speaks for, and `WellFormed` that these tables, and all that the entries lead to, are inside
the archive. `read_eq_ok` is the result: just the bytes with both are read, and what they are read
as (`stored`) depends on nothing else.
-/

namespace SceneSet

open Bytes (slice word)

namespace Archive

/-- How many entries an archive announces. -/
def entryCount (data : Bytes) : Nat := word data 8

/-- How many bytes of names an archive announces. -/
def namesSize (data : Bytes) : Nat := word data 12

/-- The word behind the header, less the bias, is a place of names: behind the entries that would
follow it, and with room for all names in front of the end. -/
structure PutsNames (data : Bytes) (names : Nat) : Prop where
  present : 20 ≤ data.length
  biased : word data 16 = names + 0x13d0f
  behind : 20 + 16 * entryCount data ≤ names
  inside : names + namesSize data ≤ data.length

/-- The tables of an archive in the Grim layout: the entries behind the header, and the names
behind the entries. -/
def grimTables (data : Bytes) : Tables := ⟨.grim, 16, 16 + 16 * entryCount data⟩

/-- The tables that the header of an archive speaks for. -/
inductive Chosen (data : Bytes) : Tables → Prop where
  | emi {names : Nat} : PutsNames data names → Chosen data ⟨.emi, 20, names⟩
  | grim : (∀ names, ¬ PutsNames data names) → Chosen data (grimTables data)

/-- The name of the entry at a place starts among the names, and its data is in the archive. -/
@[mk_iff]
structure EntryFits (data : Bytes) (place : Nat) : Prop where
  name : word data place < namesSize data
  data : word data (place + 4) + word data (place + 8) ≤ data.length

/-- An archive with its tables at these places. What lies between them, what follows, and which
names and data the entries share is left free. -/
@[mk_iff]
structure WellFormed (data : Bytes) (tables : Tables) : Prop where
  header : 16 ≤ data.length
  magic : data.take 4 = magic
  entries : tables.entries + 16 * entryCount data ≤ data.length
  names : tables.names + namesSize data ≤ data.length
  fits : ∀ index < entryCount data, EntryFits data (tables.entries + 16 * index)

instance (data : Bytes) (place : Nat) : Decidable (EntryFits data place) :=
  decidable_of_iff' _ (entryFits_iff data place)

instance (data : Bytes) (tables : Tables) : Decidable (WellFormed data tables) :=
  decidable_of_iff' _ (wellFormed_iff data tables)

/-- The names of an archive, in plain bytes. -/
def storedNames (data : Bytes) (tables : Tables) : Bytes :=
  (slice data tables.names (namesSize data)).map (unmask tables.layout)

/-- The entry at a place. -/
def storedEntry (data names : Bytes) (place : Nat) : Entry :=
  ⟨Latin.decode ((names.drop (word data place)).takeWhile (· != 0)), word data (place + 4),
    word data (place + 8)⟩

/-- The archive with its tables at these places. -/
def stored (source : String) (data : Bytes) (tables : Tables) : Archive where
  data := data
  entries := (List.range (entryCount data)).map fun index =>
    storedEntry data (storedNames data tables) (tables.entries + 16 * index)
  layout := tables.layout
  source := source

/-- A text goes from `start` to the next NUL among the names, or else to their end. -/
structure NameEnds (names : Bytes) (start stop : Nat) : Prop where
  le : start ≤ stop
  inside : stop ≤ names.length
  plain : ∀ place, start ≤ place → place < stop → names[place]? ≠ some 0
  ended : stop < names.length → names[stop]? = some 0

/-- An entry says what the words at a place say. -/
structure EntryAt (data names : Bytes) (place : Nat) (entry : Entry) : Prop where
  name : ∃ stop, NameEnds names (word data place) stop ∧
    entry.name = Latin.decode (slice names (word data place) (stop - word data place))
  start : entry.start = word data (place + 4)
  size : entry.size = word data (place + 8)

variable {data : Bytes} {tables : Tables}

theorem length_storedNames (h : tables.names + namesSize data ≤ data.length) :
    (storedNames data tables).length = namesSize data := by
  rw [storedNames, List.length_map, slice, List.length_take, List.length_drop]
  omega

/-- The names are at one place at most. -/
theorem PutsNames.unique {names other : Nat} (h : PutsNames data names)
    (hother : PutsNames data other) : names = other := by
  have hbiased := h.biased
  rw [hother.biased] at hbiased
  omega

/-- A further word that puts the names somewhere is followed. -/
theorem locate_of_putsNames {names : Nat} (h : PutsNames data names) :
    locate data (entryCount data) (namesSize data) = .ok ⟨.emi, 20, names⟩ := by
  obtain ⟨hpresent, hbiased, hbehind, hinside⟩ := h
  have hword : word data headerSize = names + nameBias := hbiased
  unfold locate
  dsimp only
  rw [hword, Nat.add_sub_cancel]
  exact if_pos ⟨hpresent, show 20 + entryCount data * 16 + _ ≤ names + _ by omega, hinside⟩

/-- Without such a word the layout is taken to be Grim. -/
theorem locate_of_not_putsNames (h : ∀ names, ¬ PutsNames data names) :
    locate data (entryCount data) (namesSize data) =
      if data.length < 16 + 16 * entryCount data then .error (.entriesPastEnd (entryCount data))
      else .ok (grimTables data) := by
  unfold locate
  dsimp only
  rw [if_neg, headerSize, entrySize, Nat.mul_comm _ 16, grimTables]
  rintro ⟨hpresent, hbiased, hinside⟩
  simp only [headerSize, entrySize, nameBias] at hpresent hbiased hinside
  exact h (word data 16 - 0x13d0f) ⟨hpresent, by omega, by omega, hinside⟩

/-- The tables are found just if the header speaks for them and the entries end inside. -/
theorem locate_eq_ok :
    locate data (entryCount data) (namesSize data) = .ok tables ↔
      Chosen data tables ∧ tables.entries + 16 * entryCount data ≤ data.length := by
  by_cases hput : ∃ names, PutsNames data names
  · obtain ⟨names, hnames⟩ := hput
    rw [locate_of_putsNames hnames]
    constructor
    · intro h
      cases h
      exact ⟨.emi hnames, Nat.le_trans hnames.behind (Nat.le_of_add_right_le hnames.inside)⟩
    · rintro ⟨hchosen, -⟩
      cases hchosen with
      | emi hother => rw [hnames.unique hother]
      | grim hnone => exact absurd hnames (hnone names)
  · have hnone : ∀ names, ¬ PutsNames data names := not_exists.mp hput
    rw [locate_of_not_putsNames hnone]
    constructor
    · intro h
      split at h
      · cases h
      · rename_i hroom
        cases h
        exact ⟨.grim hnone, Nat.not_lt.mp hroom⟩
    · rintro ⟨hchosen, hinside⟩
      cases hchosen with
      | emi hnames => exact absurd hnames (hnone _)
      | grim _ => exact if_neg (Nat.not_lt.mpr hinside)

/-- An entry is read just if what it leads to is inside. -/
theorem readEntry_eq_ok_iff {names : Bytes} (hnames : names.length = namesSize data) {index : Nat}
    {entry : Entry} :
    readEntry data tables names index = .ok entry ↔
      EntryFits data (tables.entries + 16 * index) ∧
        entry = storedEntry data names (tables.entries + 16 * index) := by
  unfold readEntry
  dsimp only [entrySize]
  rw [Nat.mul_comm index 16]
  split
  · rename_i hname
    constructor
    · intro h
      cases h
    · rintro ⟨⟨hfits, -⟩, -⟩
      omega
  · rename_i hname
    split
    · rename_i hdata
      constructor
      · intro h
        cases h
      · rintro ⟨⟨-, hfits⟩, -⟩
        omega
    · constructor
      · intro h
        cases h
        exact ⟨⟨by omega, by omega⟩, rfl⟩
      · rintro ⟨-, rfl⟩
        rfl

/-- When the tables are found, and the names are inside, the entries are all that is left. -/
theorem read_of_locate {source : String} (hheader : 16 ≤ data.length)
    (hmagic : data.take 4 = magic)
    (hlocate : locate data (entryCount data) (namesSize data) = .ok tables)
    (hnames : tables.names + namesSize data ≤ data.length) :
    read source data =
      ((List.range (entryCount data)).mapM (readEntry data tables (storedNames data tables)) >>=
        fun entries => pure ⟨data, entries, tables.layout, source⟩) := by
  have hlong : ¬ data.length < headerSize := Nat.not_lt.mpr hheader
  unfold read
  dsimp only
  rw [← entryCount, ← namesSize, if_neg hlong, if_neg (not_not.mpr hmagic), hlocate]
  exact if_neg (Nat.not_lt.mpr hnames)

/-- Just the bytes with well-formed tables where the header puts them are an archive, and it is what
they store. -/
theorem read_eq_ok {source : String} {archive : Archive} :
    read source data = .ok archive ↔
      ∃ tables, Chosen data tables ∧ WellFormed data tables ∧
        archive = stored source data tables := by
  have hentries : ∀ tables : Tables, tables.names + namesSize data ≤ data.length → ∀ entries,
      (List.range (entryCount data)).mapM
          (readEntry data tables (storedNames data tables)) = .ok entries ↔
        (∀ index < entryCount data, EntryFits data (tables.entries + 16 * index)) ∧
          entries = (stored source data tables).entries := by
    intro tables hnames entries
    rw [mapM_eq_ok fun index entry => readEntry_eq_ok_iff (length_storedNames hnames)]
    simp only [List.mem_range, stored]
  unfold read
  dsimp only
  rw [← entryCount, ← namesSize]
  split
  · rename_i hshort
    constructor
    · intro h
      cases h
    · rintro ⟨tables, -, hformed, -⟩
      exact absurd hformed.header (Nat.not_le.mpr hshort)
  · rename_i hheader
    split
    · rename_i hmagic
      constructor
      · intro h
        cases h
      · rintro ⟨tables, -, hformed, -⟩
        exact absurd hformed.magic hmagic
    · rename_i hmagic
      simp only [except_bind_eq_ok, locate_eq_ok]
      constructor
      · rintro ⟨tables, ⟨hchosen, hinside⟩, h⟩
        split at h
        · cases h
        · rename_i hnames
          obtain ⟨entries, hread, hvalue⟩ := except_bind_eq_ok.mp h
          obtain ⟨hfits, rfl⟩ := (hentries tables (Nat.not_lt.mp hnames) entries).mp hread
          cases hvalue
          exact ⟨tables, hchosen, ⟨Nat.not_lt.mp hheader, not_not.mp hmagic, hinside,
            Nat.not_lt.mp hnames, hfits⟩, rfl⟩
      · rintro ⟨tables, hchosen, hformed, rfl⟩
        refine ⟨tables, ⟨hchosen, hformed.entries⟩, ?_⟩
        rw [if_neg (Nat.not_lt.mpr hformed.names)]
        exact except_bind_eq_ok.mpr
          ⟨_, (hentries tables hformed.names _).mpr ⟨hformed.fits, rfl⟩, rfl⟩

/-- The text in front of the next NUL ends there, or with the names. -/
theorem nameEnds_takeWhile {names : Bytes} {start : Nat} (h : start ≤ names.length) :
    NameEnds names start (start + ((names.drop start).takeWhile (· != 0)).length) := by
  have hparts := List.takeWhile_append_dropWhile (p := (· != 0)) (l := names.drop start)
  have hplain : (0 : UInt8) ∉ (names.drop start).takeWhile (· != 0) := fun hnul =>
    absurd (List.mem_takeWhile_imp hnul) (by decide)
  have hstop := List.head?_dropWhile_not (· != 0) (names.drop start)
  generalize (names.drop start).takeWhile (· != 0) = text at *
  generalize (names.drop start).dropWhile (· != 0) = rest at *
  have hlengths := congrArg List.length hparts
  rw [List.length_append, List.length_drop] at hlengths
  refine ⟨Nat.le_add_right .., by omega, ?_, ?_⟩
  · intro place hle hlt hnul
    obtain ⟨i, rfl⟩ := Nat.exists_eq_add_of_le hle
    rw [← List.getElem?_drop, ← hparts, List.getElem?_append_left (by omega)] at hnul
    exact hplain (List.mem_of_getElem? hnul)
  · intro hlt
    rw [← List.getElem?_drop, ← hparts, List.getElem?_append_right (Nat.le_refl _), Nat.sub_self]
    -- the names go on behind the text, so with a byte that stopped it
    cases rest with
    | nil =>
        rw [List.length_nil] at hlengths
        omega
    | cons byte rest =>
        rw [show byte = 0 by simpa using hstop]
        rfl

/-- An entry is read as the words at its place say. -/
theorem entryAt_storedEntry {names : Bytes} {place : Nat} (h : word data place ≤ names.length) :
    EntryAt data names place (storedEntry data names place) := by
  refine ⟨⟨_, nameEnds_takeWhile h, ?_⟩, rfl, rfl⟩
  rw [Nat.add_sub_cancel_left, slice, ← List.prefix_iff_eq_take.mp (List.takeWhile_prefix _)]
  rfl

/-- No name of an entry has a NUL. -/
theorem nul_not_mem_name (names : Bytes) (place : Nat) :
    '\x00' ∉ (storedEntry data names place).name.toList := by
  rw [storedEntry, Latin.decode, String.toList_ofList, List.mem_map]
  rintro ⟨byte, hbyte, hchar⟩
  have hzero : byte.toNat = (0 : UInt8).toNat := by
    rw [← Latin.toNat_char, hchar]
    rfl
  rw [UInt8.toNat_inj.mp hzero] at hbyte
  exact absurd (List.mem_takeWhile_imp hbyte) (by decide)

section Entries

variable {source : String} {index : Nat} {entry : Entry}

/-- The entries of an archive are those of its table. -/
theorem eq_storedEntry (h : (stored source data tables).entries[index]? = some entry) :
    index < entryCount data ∧
      entry = storedEntry data (storedNames data tables) (tables.entries + 16 * index) := by
  obtain ⟨hlt, rfl⟩ := List.getElem?_eq_some_iff.mp h
  simp only [stored, List.length_map, List.length_range] at hlt
  refine ⟨hlt, ?_⟩
  simp only [stored, List.getElem_map, List.getElem_range]

/-- The entries of a well-formed archive say what its table says. -/
theorem entryAt_of_stored (hformed : WellFormed data tables)
    (h : (stored source data tables).entries[index]? = some entry) :
    EntryAt data (storedNames data tables) (tables.entries + 16 * index) entry := by
  obtain ⟨hlt, rfl⟩ := eq_storedEntry h
  refine entryAt_storedEntry ?_
  rw [length_storedNames hformed.names]
  exact Nat.le_of_lt (hformed.fits index hlt).name

@[simp] theorem size_stored (source : String) (data : Bytes) (tables : Tables) :
    (stored source data tables).size = entryCount data := by
  rw [size, stored, List.length_map, List.length_range]

end Entries

end Archive

end SceneSet
