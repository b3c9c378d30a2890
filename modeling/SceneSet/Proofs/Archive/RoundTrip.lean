import SceneSet.Proofs.Archive.Packing

/-!
# Archives that are packed are read back

The layout of a packed archive is found (`locate_pack`), its entries are read one after the other
(`mapM_readEntry`), and so an archive that is packed in either layout has just the members that it
was packed from (`read_pack`).
-/

namespace SceneSet.Archive

open Bytes (slice word)

/-- The entries of members whose data starts at `start`. -/
def packedEntries (start : Nat) : List Member → List Entry
  | [] => []
  | member :: members =>
      ⟨member.name, start, member.payload.length⟩ ::
        packedEntries (start + member.payload.length) members

/-- A packed archive in memory. -/
def packed (source : String) (layout : Layout) (members : List Member) : Archive where
  data := pack layout members
  entries := packedEntries (dataStart layout members) members
  layout := layout
  source := source

theorem map_size_packedEntries (start : Nat) (members : List Member) :
    (packedEntries start members).map (·.size) = members.map (·.payload.length) := by
  induction members generalizing start with
  | nil => rfl
  | cons member members ih => rw [packedEntries, List.map_cons, List.map_cons, ih]

/-- The entries of data that is stored in a row lead to the members. -/
theorem map_packedEntries {data : Bytes} {start : Nat} {members : List Member}
    (h : data.drop start = payloads members) :
    (packedEntries start members).map
      (fun entry => (⟨entry.name, slice data entry.start entry.size⟩ : Member)) = members := by
  induction members generalizing start with
  | nil => rfl
  | cons member members ih =>
      have hdrop : data.drop start = member.payload ++ payloads members := h
      have hslice : slice data start member.payload.length = member.payload := by
        rw [slice, hdrop, List.take_left]
      have hrest : data.drop (start + member.payload.length) = payloads members := by
        rw [← List.drop_drop, hdrop, List.drop_left]
      rw [packedEntries, List.map_cons, ih hrest, hslice]

/-- The members of a packed archive are those that it was packed from. -/
theorem members_packed (source : String) (layout : Layout) (members : List Member) :
    (packed source layout members).members = members :=
  map_packedEntries (drop_pack_data layout members)

/-- An entry is read whose words, name and data are in place. -/
theorem readEntry_eq_ok {layout : Layout} {data names rest : Bytes} {tables : Tables}
    {member : Member} {index name start : Nat} (hstorable : member.Storable layout)
    (hname : word data (tables.entries + index * entrySize) = name)
    (hstart : word data (tables.entries + index * entrySize + 4) = start)
    (hsize : word data (tables.entries + index * entrySize + 8) = member.payload.length)
    (hnames : names.drop name = member.nameBytes ++ 0 :: rest)
    (hdata : start + member.payload.length ≤ data.length) :
    readEntry data tables names index = .ok ⟨member.name, start, member.payload.length⟩ := by
  have hinside : ¬ names.length ≤ name := by
    intro hle
    rw [List.drop_eq_nil_of_le hle] at hnames
    exact absurd hnames.symm (by simp)
  have hplain : ∀ byte ∈ member.nameBytes, (byte != 0) = true := by
    intro byte hbyte
    rw [bne_iff_ne]
    rintro rfl
    exact not_mem_nameBytes hstorable hstorable.plain rfl hbyte
  have htext : (names.drop name).takeWhile (· != 0) = member.nameBytes := by
    rw [hnames, List.takeWhile_append_of_pos hplain]
    simp
  unfold readEntry
  dsimp only
  rw [hname, hstart, hsize, if_neg hinside, if_neg (Nat.not_lt.mpr hdata), htext,
    decode_nameBytes hstorable]

/-- The entries of members are read whose words, names and data are stored in a row. -/
theorem mapM_readEntry {layout : Layout} {data names : Bytes} {tables : Tables}
    {members : List Member} (index name start : Nat)
    (hstorable : ∀ member ∈ members, member.Storable layout)
    (hwords : ∀ {i number}, (entryWords name start members)[i]? = some number →
      word data (tables.entries + index * entrySize + 4 * i) = number)
    (hnames : names.drop name = nameTable members)
    (hdata : start + (payloads members).length ≤ data.length) :
    (List.range' index members.length).mapM (readEntry data tables names) =
      .ok (packedEntries start members) := by
  induction members generalizing index name start with
  | nil => rfl
  | cons member members ih =>
      have hname : names.drop name = member.nameBytes ++ 0 :: nameTable members := by
        rw [hnames, nameTable, List.flatMap_cons, Bytes.ofName, List.append_assoc]
        rfl
      have hpayload : (payloads (member :: members)).length =
          member.payload.length + (payloads members).length := List.length_append
      have hfirst : readEntry data tables names index =
          .ok ⟨member.name, start, member.payload.length⟩ :=
        readEntry_eq_ok (hstorable member List.mem_cons_self) (@hwords 0 _ rfl) (@hwords 1 _ rfl)
          (@hwords 2 _ rfl) hname (by omega)
      -- what holds of the words behind the first entry holds of those of the other members
      have hothers : (List.range' (index + 1) members.length).mapM (readEntry data tables names) =
          .ok (packedEntries (start + member.payload.length) members) := by
        refine ih (index + 1) (name + (member.nameBytes.length + 1)) _
          (fun other hother => hstorable other (List.mem_cons_of_mem _ hother)) ?_ ?_ (by omega)
        · intro i number hi
          have hword : (entryWords name start (member :: members))[i + 4]? = some number := hi
          rw [← hwords hword]
          congr 1
          simp only [entrySize]
          omega
        · rw [← List.drop_drop, hname, List.drop_append, Nat.add_sub_cancel_left]
          simp
      rw [List.length_cons, List.range'_succ, List.mapM_cons, hfirst, hothers]
      rfl

variable {layout : Layout} {members : List Member}

/-- The word that may tell the place of the names tells it just in the EMI layout: in the Grim
layout it is the place of the first name among the names, or there is none. -/
theorem locate_pack (h : Packable layout members) :
    locate (pack layout members) members.length (nameTable members).length =
      .ok ⟨layout, entriesStart layout, namesStart layout members⟩ := by
  have hlength := length_pack layout members
  unfold locate
  dsimp only
  cases layout with
  | emi =>
      have hbiased : word (pack .emi members) headerSize = namesStart .emi members + nameBias :=
        @word_pack _ _ h.fits 3 _ rfl
      simp only [dataStart, namesStart, entriesStart] at hlength hbiased
      rw [hbiased, if_pos ⟨by omega, by omega, by omega⟩, Nat.add_sub_cancel]
      rfl
  | grim =>
      simp only [dataStart, namesStart, entriesStart] at hlength
      rw [if_neg, if_neg (by omega)]
      · rfl
      · -- the layout is mistaken neither without entries, as the further word is missing, nor
        -- with some, as the first name is at the start of the names
        rintro ⟨hsize, hbiased, _⟩
        cases members with
        | nil =>
            have hempty : (pack .grim []).length = headerSize := rfl
            omega
        | cons member members =>
            have hfirst : word (pack .grim (member :: members)) headerSize = 0 :=
              @word_pack_entries _ _ h.fits 0 _ rfl
            rw [hfirst] at hbiased
            simp only [nameBias] at hbiased
            omega

/-- A packed archive is read, in the layout in which it was packed. -/
theorem read_pack_eq (source : String) (h : Packable layout members) :
    read source (pack layout members) = .ok (packed source layout members) := by
  have hlength := length_pack layout members
  have hcount : word (pack layout members) 8 = members.length := @word_pack _ _ h.fits 1 _ rfl
  have hnamesSize : word (pack layout members) 12 = (nameTable members).length :=
    @word_pack _ _ h.fits 2 _ rfl
  have hheader : headerSize ≤ (pack layout members).length := by
    rw [hlength]
    cases layout <;> simp only [dataStart, namesStart, entriesStart] <;> omega
  have hmagic : (pack layout members).take 4 = magic := rfl
  have hnamesFit : ¬ (pack layout members).length <
      namesStart layout members + (nameTable members).length := by
    rw [hlength, dataStart]
    omega
  have hentries : (List.range members.length).mapM
      (readEntry (pack layout members) ⟨layout, entriesStart layout, namesStart layout members⟩
        (nameTable members)) = .ok (packedEntries (dataStart layout members) members) := by
    rw [List.range_eq_range']
    refine mapM_readEntry 0 0 _ h.storable ?_ rfl (Nat.le_of_eq hlength.symm)
    intro i number hi
    rw [Nat.zero_mul, Nat.add_zero]
    exact word_pack_entries h.fits hi
  unfold read
  dsimp only
  rw [hcount, hnamesSize, if_neg (Nat.not_lt.mpr hheader), if_neg (not_not.mpr hmagic),
    locate_pack h]
  show (if _ then _ else _) = _
  rw [if_neg hnamesFit, slice_pack_names, unmask_nameTable h.storable, hentries]
  rfl

/-- Looking up a name finds the last member with the same key. -/
theorem read?_eq (archive : Archive) (name : String) :
    archive.read? name = (archive.members.reverse.find? fun member =>
      key member.name == key name).map (·.payload) := by
  rw [members, ← List.map_reverse, List.find?_map, Option.map_map]
  rfl

/-- Reading undoes packing. An archive that is packed in some layout is read in this layout, and has
the members that it was packed from, in their order, each under its name and with its size and
data; a name leads to the last member with its key. So both layouts of the same members hold the
same. -/
theorem read_pack (source : String) (members : List Member) :
    (∀ layout, Packable layout members →
      ∃ archive, read source (pack layout members) = .ok archive ∧
        archive.layout = layout ∧
        archive.size = members.length ∧
        archive.members = members ∧
        archive.entries.map (·.size) = members.map (·.payload.length) ∧
        ∀ name, archive.read? name =
          (members.reverse.find? fun member => key member.name == key name).map (·.payload)) ∧
    (Packable .grim members → Packable .emi members →
      ∃ grim emi, read source (pack .grim members) = .ok grim ∧
        read source (pack .emi members) = .ok emi ∧
        grim.members = emi.members ∧
        grim.entries.map (·.size) = emi.entries.map (·.size)) := by
  have hsizes : ∀ layout, (packed source layout members).entries.map (·.size) =
      members.map (·.payload.length) := fun layout => map_size_packedEntries _ members
  constructor
  · intro layout h
    have hmembers := members_packed source layout members
    refine ⟨packed source layout members, read_pack_eq source h, rfl, ?_, hmembers, hsizes layout,
      fun name => ?_⟩
    · have hlength := congrArg List.length (hsizes layout)
      rw [List.length_map, List.length_map] at hlength
      exact hlength
    · rw [read?_eq, hmembers]
  · intro hgrim hemi
    refine ⟨_, _, read_pack_eq source hgrim, read_pack_eq source hemi, ?_, ?_⟩
    · rw [members_packed, members_packed]
    · rw [hsizes, hsizes]

/-- Three members: the first and the last have the same key, and the second has no name. -/
def twins : List Member := [⟨"Mel\\A.set", [1, 2, 3]⟩, ⟨"", [4]⟩, ⟨"mel/a.SET", []⟩]

/-- The last of the members with one key is found. -/
theorem read_pack_twins :
    Packable .grim twins ∧ Packable .emi twins ∧
      (∃ archive, read "a.lab" (pack .grim twins) = .ok archive ∧ archive.members = twins ∧
        archive.read? "MEL/A.set" = some []) ∧
      ∃ grim emi, read "a.lab" (pack .grim twins) = .ok grim ∧
        read "a.lab" (pack .emi twins) = .ok emi ∧ grim.members = emi.members := by
  have hstorable : ∀ layout, ∀ member ∈ twins, member.Storable layout := by
    intro layout member hmember
    have hascii : ∀ member ∈ twins,
        member.name.toList.all fun c => 0 < c.toNat ∧ c.toNat < 128 := by decide
    have hchars : ∀ c ∈ member.name.toList, 0 < c.toNat ∧ c.toNat < 128 := by
      intro c hc
      exact of_decide_eq_true (List.all_eq_true.mp (hascii member hmember) c hc)
    refine ⟨fun c hc => ?_, fun hc => ?_, fun _ hc => ?_⟩
    · exact Nat.lt_trans (hchars c hc).2 (by decide)
    · exact absurd (hchars _ hc).1 (by decide)
    · exact absurd (hchars _ hc).2 (by decide)
  have hgrim : Packable .grim twins := ⟨hstorable .grim, by decide⟩
  have hemi : Packable .emi twins := ⟨hstorable .emi, by decide⟩
  obtain ⟨hread, hboth⟩ := read_pack "a.lab" twins
  obtain ⟨archive, hok, _, _, hmembers, _, hfind⟩ := hread .grim hgrim
  obtain ⟨grim, emi, hgrimOk, hemiOk, hsame, _⟩ := hboth hgrim hemi
  refine ⟨hgrim, hemi, ⟨archive, hok, hmembers, ?_⟩, grim, emi, hgrimOk, hemiOk, hsame⟩
  rw [hfind]
  decide

end SceneSet.Archive
