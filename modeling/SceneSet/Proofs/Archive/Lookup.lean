import Mathlib.Data.List.Find
import SceneSet.Proofs.Archive.Acceptance
import SceneSet.Proofs.Text.Letters

/-!
# Looking up members

Members are looked up by key, and several may have one key. `Archive.Answers` says what a name leads
to: the last of the members with its key, in the order of the archive, and so to one that is found
again under its own name. An index that is filled with the members one after the other, each in the
place of the one before it with the same key, gives the same (`Index.get?_fill`).

The small letters that keys are made of are given only where they matter to the names of an archive.
A full table of small letters, for which `Fold.Extends` is known, makes other keys of some texts,
but leads to the same members (`Archive.read_answers`). `Letters.lower` is such a table.
-/

namespace SceneSet

open Bytes (slice)

/-! ### Indices -/

/-- Members by key. -/
structure Index (κ : Type) where
  slots : List (κ × Entry)

namespace Index

variable {κ : Type} [DecidableEq κ]

/-- The slots with a member put in the slot of its key, which may be a new one. -/
def put (key : κ) (entry : Entry) : List (κ × Entry) → List (κ × Entry)
  | [] => [(key, entry)]
  | (other, previous) :: rest =>
      if other = key then (other, entry) :: rest else (other, previous) :: put key entry rest

/-- The index with one more member, in the place of one with the same key. -/
def insert (index : Index κ) (key : κ) (entry : Entry) : Index κ := ⟨put key entry index.slots⟩

/-- The member in the slot of a key. -/
def get? (index : Index κ) (key : κ) : Option Entry :=
  (index.slots.find? fun slot => slot.1 = key).map (·.2)

/-- The index with some more members, one after the other. -/
def fill (key : Entry → κ) (index : Index κ) (entries : List Entry) : Index κ :=
  entries.foldl (fun index entry => index.insert (key entry) entry) index

/-- Only the slot of the key is filled anew. -/
theorem get?_insert (index : Index κ) (key other : κ) (entry : Entry) :
    (index.insert key entry).get? other = if key = other then some entry else index.get? other := by
  obtain ⟨slots⟩ := index
  unfold insert get?
  dsimp only
  induction slots with
  | nil => by_cases h : key = other <;> simp [put, h]
  | cons slot rest ih =>
      obtain ⟨first, previous⟩ := slot
      unfold put
      by_cases hfirst : first = key
      · subst hfirst
        by_cases h : first = other <;> simp [h]
      · rw [if_neg hfirst]
        by_cases h : first = other
        · subst h
          simp [Ne.symm hfirst]
        · simp [h, ih]

/-- In the slot of a key is the last member with this key, or else the one that was there. -/
theorem get?_fill (key : Entry → κ) (index : Index κ) (entries : List Entry) (other : κ) :
    (fill key index entries).get? other =
      (entries.reverse.find? fun entry => key entry = other).or (index.get? other) := by
  induction entries generalizing index with
  | nil => rfl
  | cons entry rest ih =>
      have hstep : fill key index (entry :: rest) = fill key (index.insert (key entry) entry) rest :=
        rfl
      rw [hstep, ih, get?_insert, List.reverse_cons, List.find?_append, Option.or_assoc]
      by_cases h : key entry = other <;> simp [h]

end Index

namespace Archive

/-! ### Keys -/

/-- A name with its slashes all in one direction. -/
def slashed (name : String) : List Char := name.toList.map fun c => if c = '\\' then '/' else c

/-- The key of a name, if small letters are made in this way. -/
def keyBy (lower : List Char → List Char) (name : String) : List Char := lower (slashed name)

/-- The members by their keys, as they follow one another in the archive. -/
def index (archive : Archive) (lower : List Char → List Char) : Index (List Char) :=
  .fill (fun entry => keyBy lower entry.name) ⟨[]⟩ archive.entries

/-- What the lookup of members answers, if names have these keys. -/
structure Answers (archive : Archive) (key : String → List Char) : Prop where
  /-- The last member with the key of the name is found. -/
  found : ∀ name entry, archive.find? name = some entry ↔
    ∃ before after, archive.entries = before ++ entry :: after ∧ key entry.name = key name ∧
      ∀ later ∈ after, key later.name ≠ key name
  missing : ∀ name, archive.find? name = none ↔
    ∀ entry ∈ archive.entries, key entry.name ≠ key name
  fetched : ∀ name data, archive.fetch name = .ok data ↔
    ∃ entry, archive.find? name = some entry ∧ data = archive.dataOf entry
  refused : ∀ name reason, archive.fetch name = .error reason ↔
    archive.find? name = none ∧ reason = ⟨name⟩
  same : ∀ name other, key name = key other →
    archive.find? name = archive.find? other ∧ archive.read? name = archive.read? other
  /-- Every member is found under its name, or a later one with the same key is. -/
  own : ∀ before entry after, archive.entries = before ++ entry :: after →
    ∃ member, archive.find? entry.name = some member ∧ key member.name = key entry.name ∧
      ((∀ later ∈ after, key later.name ≠ key entry.name) → member = entry)
  /-- A member that is found is found again under its own name. -/
  again : ∀ name entry, archive.find? name = some entry →
    archive.find? entry.name = some entry ∧ archive.fetch entry.name = archive.fetch name

section Answers

variable {archive : Archive} {source : String} {data : Bytes} {lower : List Char → List Char}

/-- The data of a member has the size that its entry says. -/
theorem length_dataOf {entry : Entry} (h : read source data = .ok archive)
    (hentry : entry ∈ archive.entries) : (archive.dataOf entry).length = entry.size := by
  obtain ⟨tables, -, hformed, rfl⟩ := read_eq_ok.mp h
  obtain ⟨place, hplace, rfl⟩ := List.mem_map.mp hentry
  have hfits := (hformed.fits place (List.mem_range.mp hplace)).data
  show (slice data _ _).length = _
  rw [slice, List.length_take, List.length_drop]
  simp only [storedEntry]
  omega

/-- The names in an archive are made of the first 256 characters. -/
theorem toNat_lt_of_mem_name {entry : Entry} (h : read source data = .ok archive)
    (hentry : entry ∈ archive.entries) : ∀ c ∈ entry.name.toList, c.toNat < 256 := by
  obtain ⟨tables, -, -, rfl⟩ := read_eq_ok.mp h
  obtain ⟨place, -, rfl⟩ := List.mem_map.mp hentry
  intro c hc
  rw [storedEntry, Latin.decode, String.toList_ofList] at hc
  obtain ⟨byte, -, rfl⟩ := List.mem_map.mp hc
  rw [Latin.toNat_char]
  exact byte.toNat_lt

/-- It does not matter for the key of a member how small letters are made. -/
theorem key_eq_iff (h : read source data = .ok archive) (hlower : Fold.Extends lower) {entry : Entry}
    (hentry : entry ∈ archive.entries) (name : String) :
    key entry.name = key name ↔ keyBy lower entry.name = keyBy lower name := by
  refine (hlower.eq_iff fun c hc => ?_).symm
  obtain ⟨d, hd, rfl⟩ := List.mem_map.mp hc
  split
  · decide
  · exact toNat_lt_of_mem_name h hentry d hd

/-- The index has the member that is found in the slot of the key. -/
theorem get?_index (h : read source data = .ok archive) (hlower : Fold.Extends lower)
    (name : String) : (archive.index lower).get? (keyBy lower name) = archive.find? name := by
  unfold index find?
  rw [Index.get?_fill]
  show (archive.entries.reverse.find? _).or none = _
  rw [Option.or_none]
  refine List.find?_congr fun entry hentry => ?_
  rw [beq_eq_decide]
  exact decide_eq_decide.mpr (key_eq_iff h hlower (List.mem_reverse.mp hentry) name).symm

/-- An archive that is looked through from its end is searched for the last member with a key. -/
theorem find?_eq_some_iff {name : String} {entry : Entry} :
    archive.find? name = some entry ↔
      ∃ before after, archive.entries = before ++ entry :: after ∧ key entry.name = key name ∧
        ∀ later ∈ after, key later.name ≠ key name := by
  unfold find?
  rw [List.find?_eq_some_iff_append]
  simp only [beq_iff_eq, Bool.not_eq_true', beq_eq_false_iff_ne]
  constructor
  · rintro ⟨hkey, after, before, hentries, hlater⟩
    refine ⟨before.reverse, after.reverse, ?_, hkey, fun later hmem => ?_⟩
    · rw [← List.reverse_reverse archive.entries, hentries]
      simp
    · exact hlater later (List.mem_reverse.mp hmem)
  · rintro ⟨before, after, hentries, hkey, hlater⟩
    refine ⟨hkey, after.reverse, before.reverse, ?_, fun later hmem => ?_⟩
    · rw [hentries]
      simp
    · exact hlater later (List.mem_reverse.mp hmem)

theorem find?_eq_none_iff {name : String} :
    archive.find? name = none ↔ ∀ entry ∈ archive.entries, key entry.name ≠ key name := by
  unfold find?
  simp only [List.find?_eq_none, List.mem_reverse, beq_iff_eq]

/-- Whether there is data for a name depends on whether a member is found. -/
theorem fetch_eq (archive : Archive) (name : String) :
    archive.fetch name =
      match archive.find? name with
      | some entry => .ok (archive.dataOf entry)
      | none => .error ⟨name⟩ := rfl

/-- Keys that tell the members apart as their keys do lead to the same answers. -/
theorem answers_of_key_iff {other : String → List Char}
    (hkey : ∀ entry ∈ archive.entries, ∀ name,
      key entry.name = key name ↔ other entry.name = other name) :
    archive.Answers other := by
  have hfound : ∀ name entry, archive.find? name = some entry ↔
      ∃ before after, archive.entries = before ++ entry :: after ∧
        other entry.name = other name ∧ ∀ later ∈ after, other later.name ≠ other name := by
    intro name entry
    rw [find?_eq_some_iff]
    refine exists_congr fun before => exists_congr fun after => and_congr_right fun hentries => ?_
    refine and_congr (hkey entry (by simp [hentries]) name) ?_
    exact forall₂_congr fun later hmem => not_congr (hkey later (by simp [hentries, hmem]) name)
  have hmissing : ∀ name, archive.find? name = none ↔
      ∀ entry ∈ archive.entries, other entry.name ≠ other name := by
    intro name
    rw [find?_eq_none_iff]
    exact forall₂_congr fun entry hmem => not_congr (hkey entry hmem name)
  have hsame : ∀ name second, other name = other second →
      archive.find? name = archive.find? second := by
    intro name second heq
    cases hfind : archive.find? name with
    | none => rw [eq_comm, hmissing, ← heq, ← hmissing, hfind]
    | some entry => rw [eq_comm, hfound, ← heq, ← hfound, hfind]
  have hread : ∀ name second, other name = other second →
      archive.read? name = archive.read? second := by
    intro name second heq
    rw [read?, read?, hsame name second heq]
  have hagain : ∀ name entry, archive.find? name = some entry →
      archive.find? entry.name = archive.find? name := by
    intro name entry hfind
    obtain ⟨-, -, -, heq, -⟩ := (hfound name entry).mp hfind
    exact hsame _ _ heq
  refine ⟨hfound, hmissing, fun name data => ?_, fun name reason => ?_,
    fun name second heq => ⟨hsame name second heq, hread name second heq⟩,
    fun before entry after hentries => ?_, fun name entry hfind => ?_⟩
  · rw [fetch_eq]
    cases archive.find? name <;> simp [eq_comm]
  · rw [fetch_eq]
    cases archive.find? name <;> simp [eq_comm]
  · have hmem : entry ∈ archive.entries := by simp [hentries]
    cases hfind : archive.find? entry.name with
    | none => exact absurd rfl ((hmissing entry.name).mp hfind entry hmem)
    | some member =>
        obtain ⟨-, -, -, heq, -⟩ := (hfound entry.name member).mp hfind
        refine ⟨member, rfl, heq, fun hlast => ?_⟩
        have hitself := (hfound entry.name entry).mpr ⟨before, after, hentries, rfl, hlast⟩
        exact Option.some.inj (hfind.symm.trans hitself)
  · rw [fetch_eq, fetch_eq, hagain name entry hfind, hfind]
    exact ⟨rfl, rfl⟩

/-- Lookups are answered with the keys that the archive is searched by. -/
theorem answers (archive : Archive) : archive.Answers key :=
  answers_of_key_iff fun _ _ _ => Iff.rfl

/-- A member that is found has its data under its own name too. -/
theorem fetch_of_find? {name : String} {entry : Entry} (h : archive.find? name = some entry) :
    archive.fetch entry.name = .ok (archive.dataOf entry) := by
  obtain ⟨-, hagain⟩ := archive.answers.again name entry h
  rw [hagain, fetch_eq, h]

/-- Every archive that is read answers every lookup with the last member that has the key, whichever
full table of small letters the keys are made with, and so does the index of its members. -/
theorem read_answers (h : read source data = .ok archive) (hlower : Fold.Extends lower) :
    archive.Answers (keyBy lower) ∧
      (∀ entry ∈ archive.entries, (archive.dataOf entry).length = entry.size) ∧
      ∀ name, (archive.index lower).get? (keyBy lower name) = archive.find? name :=
  ⟨answers_of_key_iff fun _ hentry => key_eq_iff h hlower hentry, fun _ => length_dataOf h,
    get?_index h hlower⟩

end Answers

/-- Three members, of which the first and the last have the same key. -/
def pairBytes : Bytes :=
  magic ++ [0, 0, 1, 0, 3, 0, 0, 0, 10, 0, 0, 0]
    ++ [0, 0, 0, 0, 74, 0, 0, 0, 1, 0, 0, 0, 0, 0, 0, 0]
    ++ [4, 0, 0, 0, 75, 0, 0, 0, 0, 0, 0, 0, 0, 0, 0, 0]
    ++ [6, 0, 0, 0, 75, 0, 0, 0, 2, 0, 0, 0, 0, 0, 0, 0]
    ++ [0x41, 0x5c, 0x62, 0, 0x63, 0, 0x61, 0x2f, 0x42, 0] ++ [1, 2, 3]

/-- The archive with these members. -/
def pair : Archive where
  data := pairBytes
  entries := [⟨"A\\b", 74, 1⟩, ⟨"c", 75, 0⟩, ⟨"a/B", 75, 2⟩]
  layout := .grim
  source := "a.lab"

/-- The first of the two members is found under no name, and the last under both. So it is with the
small letters of all characters too. -/
theorem read_answers_pair :
    read "a.lab" pairBytes = .ok pair ∧ Fold.Extends Letters.lower ∧
      pair.find? "A\\b" = some ⟨"a/B", 75, 2⟩ ∧
      (pair.index Letters.lower).get? (keyBy Letters.lower "A\\b") = some ⟨"a/B", 75, 2⟩ ∧
      pair.fetch "A\\b" = .ok [2, 3] ∧ pair.fetch "d" = .error ⟨"d"⟩ := by
  have hread : read "a.lab" pairBytes = .ok pair := by
    have hvalue : (read "a.lab" pairBytes).toOption = some pair := by decide +kernel
    cases hresult : read "a.lab" pairBytes with
    | ok archive =>
        rw [hresult] at hvalue
        exact congrArg Except.ok (Option.some.inj hvalue)
    | error defect =>
        rw [hresult] at hvalue
        cases hvalue
  have hlower := Letters.lower_extends
  obtain ⟨hanswers, -, hindex⟩ := read_answers hread hlower
  have hfound : pair.find? "A\\b" = some ⟨"a/B", 75, 2⟩ :=
    (hanswers.found _ _).mpr
      ⟨[_, _], [], rfl, by decide +kernel, fun _ h => absurd h List.not_mem_nil⟩
  refine ⟨hread, hlower, hfound, (hindex _).trans hfound,
    (hanswers.fetched _ _).mpr ⟨_, hfound, by decide⟩,
    (hanswers.refused _ _).mpr ⟨(hanswers.missing _).mpr ?_, rfl⟩⟩
  decide +kernel

end Archive

end SceneSet
