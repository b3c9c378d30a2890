import SceneSet.Proofs.Archive.Access
import SceneSet.Proofs.Archive.RoundTrip

/-!
# Archives that are cut off

A packed archive ends with the data of its last member, and the entry of this member says so. Every
cut therefore takes away something that an entry leads to. An archive in the EMI layout that is cut
inside its names is looked at as one in the Grim layout, with entries that start four bytes early;
its first entry is then taken to have as much data as the archive has in front of its data.
`read_pack_take` is the result for all cuts.
-/

namespace SceneSet.Archive

open Bytes (slice word)

/-- A word in the part of a buffer that is kept. -/
theorem word_take (data : Bytes) {kept start : Nat} (h : start + 4 ≤ kept) :
    word (data.take kept) start = word data start := by
  have hslice := Bytes.word_slice data 0 h
  rw [Nat.zero_add] at hslice
  exact hslice

/-- The data of the last member ends where the data of all members does. -/
theorem entryWords_last (name start : Nat) {members : List Member} (h : members ≠ []) :
    ∃ place size, (entryWords name start members)[4 * (members.length - 1) + 1]? = some place ∧
      (entryWords name start members)[4 * (members.length - 1) + 2]? = some size ∧
      place + size = start + (payloads members).length := by
  induction members generalizing name start with
  | nil => exact absurd rfl h
  | cons member members ih =>
      have hpayloads : (payloads (member :: members)).length =
          member.payload.length + (payloads members).length := List.length_append
      cases members with
      | nil => exact ⟨start, member.payload.length, rfl, rfl, by rw [hpayloads]; rfl⟩
      | cons second rest =>
          obtain ⟨place, size, hplace, hsize, hend⟩ := ih
            (name + (member.nameBytes.length + 1)) (start + member.payload.length)
            (List.cons_ne_nil _ _)
          -- four words stand in front of those of the other members
          have hindex : ∀ i, 4 * ((member :: second :: rest).length - 1) + i =
              4 * ((second :: rest).length - 1) + i + 4 := by
            intro i
            simp only [List.length_cons]
            omega
          refine ⟨place, size, ?_, ?_, by omega⟩
          · rw [hindex]
            exact hplace
          · rw [hindex]
            exact hsize

section Cuts

variable {layout : Layout} {members : List Member} {kept : Nat}
  (hfits : ∀ number ∈ words layout members, number < 2 ^ 32)
  (hkept : kept < (pack layout members).length)

include hkept in
theorem length_pack_take : ((pack layout members).take kept).length = kept := by
  rw [List.length_take, Nat.min_eq_left (Nat.le_of_lt hkept)]

include hfits in
theorem entryCount_pack_take (hheader : 16 ≤ kept) :
    entryCount ((pack layout members).take kept) = members.length := by
  rw [entryCount, word_take _ (by omega)]
  exact @word_pack _ _ hfits 1 _ rfl

include hfits in
theorem namesSize_pack_take (hheader : 16 ≤ kept) :
    namesSize ((pack layout members).take kept) = (nameTable members).length := by
  rw [namesSize, word_take _ (by omega)]
  exact @word_pack _ _ hfits 2 _ rfl

include hfits hkept in
/-- The last entry leads to something that is cut off. -/
theorem not_entryFits_last (hsome : members ≠ []) (hentries : namesStart layout members ≤ kept) :
    ¬ EntryFits ((pack layout members).take kept)
      (entriesStart layout + 16 * (members.length - 1)) := by
  rintro ⟨-, hdata⟩
  have hpositive := List.length_pos_iff.mpr hsome
  have hlength := length_pack layout members
  obtain ⟨place, size, hplace, hsize, hend⟩ :=
    entryWords_last 0 (dataStart layout members) hsome
  have hplaceAt := word_pack_entries hfits hplace
  have hsizeAt := word_pack_entries hfits hsize
  simp only [namesStart, entrySize] at hentries
  rw [length_pack_take hkept, word_take _ (by omega), word_take _ (by omega)] at hdata
  rw [show entriesStart layout + 16 * (members.length - 1) + 4 =
      entriesStart layout + 4 * (4 * (members.length - 1) + 1) by omega, hplaceAt,
    show entriesStart layout + 16 * (members.length - 1) + 8 =
      entriesStart layout + 4 * (4 * (members.length - 1) + 2) by omega, hsizeAt] at hdata
  omega

end Cuts

/-- If an archive is cut in front of the end of its names, the first of the entries that are looked
for in the Grim layout does not fit: it is taken to lead to as many bytes from the start on as there
are in front of the data. -/
theorem not_entryFits_shifted {members : List Member} {kept : Nat}
    (hfits : ∀ number ∈ words .emi members, number < 2 ^ 32) (hsome : members ≠ [])
    (hkept : kept < (pack .emi members).length) (hroom : 28 ≤ kept)
    (hcut : kept < dataStart .emi members) :
    ¬ EntryFits ((pack .emi members).take kept) 16 := by
  rintro ⟨-, hdata⟩
  obtain ⟨member, rest, rfl⟩ := List.exists_cons_of_ne_nil hsome
  have hname : word (pack .emi (member :: rest)) 20 = 0 := @word_pack_entries _ _ hfits 0 _ rfl
  have hplace : word (pack .emi (member :: rest)) 24 = dataStart .emi (member :: rest) :=
    @word_pack_entries _ _ hfits 1 _ rfl
  rw [length_pack_take hkept, word_take _ (by omega), word_take _ (by omega), hname, hplace]
    at hdata
  omega

/-- In the Grim layout the word behind the header is the place of the first name, at the start of
all names. It puts the names nowhere else, also if the archive is cut. -/
theorem not_putsNames_pack_take {members : List Member} {kept names : Nat}
    (hfits : ∀ number ∈ words .grim members, number < 2 ^ 32) (hsome : members ≠ [])
    (hkept : kept < (pack .grim members).length) :
    ¬ PutsNames ((pack .grim members).take kept) names := by
  intro hput
  obtain ⟨member, rest, rfl⟩ := List.exists_cons_of_ne_nil hsome
  have hpresent := hput.present
  have hbiased := hput.biased
  have hname : word (pack .grim (member :: rest)) 16 = 0 := @word_pack_entries _ _ hfits 0 _ rfl
  rw [length_pack_take hkept] at hpresent
  rw [word_take _ (by omega), hname] at hbiased
  omega

/-- In the EMI layout the word behind the header is followed as long as the names fit. -/
theorem putsNames_pack_take {members : List Member} {kept : Nat}
    (hfits : ∀ number ∈ words .emi members, number < 2 ^ 32)
    (hkept : kept < (pack .emi members).length) (hroom : 20 ≤ kept)
    (hnames : dataStart .emi members ≤ kept) :
    PutsNames ((pack .emi members).take kept) (namesStart .emi members) where
  present := by
    rw [length_pack_take hkept]
    exact hroom
  biased := by
    rw [word_take _ (by omega)]
    exact @word_pack _ _ hfits 3 _ rfl
  behind := by
    rw [entryCount_pack_take hfits (by omega)]
    simp only [namesStart, entriesStart, headerSize, entrySize]
    omega
  inside := by
    rw [namesSize_pack_take hfits (by omega), length_pack_take hkept]
    exact hnames

/-- An archive with at least one member that is cut off anywhere is no archive any more, in neither
layout and whatever its members are called and hold, as long as it could be packed. -/
theorem read_pack_take (source : String) {layout : Layout} {members : List Member} {kept : Nat}
    (hsome : members ≠ []) (hfits : ∀ number ∈ words layout members, number < 2 ^ 32)
    (hkept : kept < (pack layout members).length) :
    ∃ defect, read source ((pack layout members).take kept) = .error defect := by
  cases hread : read source ((pack layout members).take kept) with
  | error defect => exact ⟨defect, rfl⟩
  | ok archive =>
      obtain ⟨tables, hchosen, hformed, -⟩ := read_eq_ok.mp hread
      have hlength := length_pack_take hkept
      have hheader : 16 ≤ kept := hlength ▸ hformed.header
      have hcount := entryCount_pack_take hfits hheader
      have hsize := namesSize_pack_take hfits hheader
      have hpositive := List.length_pos_iff.mpr hsome
      have hentries := hformed.entries
      have hnames := hformed.names
      have hlast := hformed.fits (members.length - 1) (by omega)
      have hfirst := hformed.fits 0 (by omega)
      rw [hcount, hlength] at hentries
      rw [hsize, hlength] at hnames
      exfalso
      cases layout with
      | grim =>
          cases hchosen with
          | grim _ =>
              refine not_entryFits_last hfits hkept hsome ?_ hlast
              simpa only [namesStart, entriesStart, headerSize, entrySize, grimTables,
                Nat.mul_comm] using hentries
          | emi hput => exact not_putsNames_pack_take hfits hsome hkept hput
      | emi =>
          cases hchosen with
          | emi _ =>
              refine not_entryFits_last hfits hkept hsome ?_ hlast
              simpa only [namesStart, entriesStart, headerSize, entrySize, Nat.mul_comm] using
                hentries
          | grim hnone =>
              simp only [grimTables, hcount] at hentries hnames
              refine not_entryFits_shifted hfits hsome hkept (by omega) ?_ hfirst
              -- the Grim layout is tried only if the names do not fit any more
              by_contra hfit
              exact hnone _ (putsNames_pack_take hfits hkept (by omega) (Nat.not_lt.mp hfit))

/-- Two members, the first without a name and the second without data, cut in front of the last byte
of their names in the EMI layout, where the Grim layout is tried, and in front of the last byte of
the data in the Grim layout. -/
theorem read_pack_take_nameless :
    let members : List Member := [⟨"", [1, 2]⟩, ⟨"a", []⟩]
    (∃ defect, read "a.lab" ((pack .emi members).take 54) = .error defect) ∧
      ∃ defect, read "a.lab" ((pack .grim members).take 52) = .error defect := by
  intro members
  exact ⟨read_pack_take "a.lab" (List.cons_ne_nil _ _) (by decide) (by decide),
    read_pack_take "a.lab" (List.cons_ne_nil _ _) (by decide) (by decide)⟩

end SceneSet.Archive
