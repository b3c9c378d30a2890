import SceneSet.Archive
import SceneSet.Proofs.Bytes.Word

/-!
# Packing archives

How an archive is made of its members, in both layouts. `pack` writes the magic, all words of the
header and of the entries (`words`), the names, and the data of the members one right behind the
other. `Packable` is what this takes: each name can be stored, and each word has 32 bits.
-/

namespace SceneSet

open Bytes (slice word length_flatMap_ofNat slice_append word_flatMap_ofNat)

/-- What is packed into an archive: a name and the data under it. -/
structure Member where
  name : String
  payload : Bytes
  deriving DecidableEq

namespace Member

/-- The bytes of the name, one for each character. -/
def nameBytes (member : Member) : Bytes := member.name.toList.map fun c => UInt8.ofNat c.toNat

/-- A name can be stored if each of its characters is a byte that does not end it, neither by itself
nor when it is masked. -/
structure Storable (layout : Archive.Layout) (member : Member) : Prop where
  latin : ∀ c ∈ member.name.toList, c.toNat < 256
  plain : '\x00' ∉ member.name.toList
  unmasked : layout = .emi → '\u0096' ∉ member.name.toList

end Member

namespace Archive

/-- The version that an archive announces. -/
def version : Nat := 0x10000

/-- The names of members, each ended by a NUL. -/
def nameTable (members : List Member) : Bytes :=
  members.flatMap fun member => Bytes.ofName member.nameBytes []

/-- The data of members. -/
def payloads (members : List Member) : Bytes := members.flatMap (·.payload)

/-- Where the entries start, behind the header. -/
def entriesStart : Layout → Nat
  | .grim => headerSize
  | .emi => headerSize + 4

/-- Where the names start, behind the entries. -/
def namesStart (layout : Layout) (members : List Member) : Nat :=
  entriesStart layout + members.length * entrySize

/-- Where the data starts, behind the names. -/
def dataStart (layout : Layout) (members : List Member) : Nat :=
  namesStart layout members + (nameTable members).length

/-- The words of the header behind the magic. -/
def headerWords (layout : Layout) (members : List Member) : List Nat :=
  [version, members.length, (nameTable members).length] ++
    match layout with
    | .grim => []
    | .emi => [namesStart layout members + nameBias]

/-- The words of the entries of members whose names and data start at these places. -/
def entryWords (name start : Nat) : List Member → List Nat
  | [] => []
  | member :: members =>
      name :: start :: member.payload.length :: 0 ::
        entryWords (name + (member.nameBytes.length + 1)) (start + member.payload.length) members

/-- All words in front of the names. -/
def words (layout : Layout) (members : List Member) : List Nat :=
  headerWords layout members ++ entryWords 0 (dataStart layout members) members

/-- The archive of some members. -/
def pack (layout : Layout) (members : List Member) : Bytes :=
  magic ++ (words layout members).flatMap (Bytes.ofNat 4)
    ++ (nameTable members).map (unmask layout) ++ payloads members

example : pack .emi [⟨"a", [7]⟩] =
    [0x4c, 0x41, 0x42, 0x4e, 0, 0, 1, 0, 1, 0, 0, 0, 2, 0, 0, 0, 0x33, 0x3d, 1, 0,
      0, 0, 0, 0, 38, 0, 0, 0, 1, 0, 0, 0, 0, 0, 0, 0, 0xf7, 0, 7] := by decide

/-- The names can be stored, and the words have 32 bits. -/
structure Packable (layout : Layout) (members : List Member) : Prop where
  storable : ∀ member ∈ members, member.Storable layout
  fits : ∀ word ∈ words layout members, word < 2 ^ 32

/-- The members that an archive holds. -/
def members (archive : Archive) : List Member :=
  archive.entries.map fun entry => ⟨entry.name, archive.dataOf entry⟩

/-- The name of a member that can be stored is what its bytes are the text of. -/
theorem decode_nameBytes {layout : Layout} {member : Member} (h : member.Storable layout) :
    Latin.decode member.nameBytes = member.name := by
  have hchars : member.nameBytes.map Latin.char = member.name.toList := by
    rw [Member.nameBytes, List.map_map]
    refine (List.map_congr_left fun c hc => ?_).trans (List.map_id _)
    show Char.ofNat (UInt8.ofNat c.toNat).toNat = c
    rw [UInt8.toNat_ofNat_of_lt' (h.latin c hc), Char.ofNat_toNat]
  rw [Latin.decode, hchars, String.ofList_toList]

/-- No byte of a name that can be stored is the byte of a character that it does not have. -/
theorem not_mem_nameBytes {layout : Layout} {member : Member} (h : member.Storable layout)
    {c : Char} (hc : c ∉ member.name.toList) {byte : UInt8} (hbyte : byte.toNat = c.toNat) :
    byte ∉ member.nameBytes := by
  rw [Member.nameBytes, List.mem_map]
  rintro ⟨other, hother, rfl⟩
  rw [UInt8.toNat_ofNat_of_lt' (h.latin other hother)] at hbyte
  rw [← Char.toNat_inj.mp hbyte] at hc
  exact hc hother

/-- Masking undoes itself, but for the byte that it makes a NUL. -/
theorem unmask_unmask {layout : Layout} {byte : UInt8} (h : layout = .emi → byte ≠ nameMask) :
    unmask layout (unmask layout byte) = byte := by
  cases layout with
  | grim => rfl
  | emi =>
      have hmask : byte ≠ nameMask := h rfl
      by_cases hnul : byte = 0
      · subst hnul
        rfl
      · -- a byte that is masked becomes a NUL just if it is the mask
        have hmasked : byte ^^^ nameMask ≠ 0 := by
          rw [ne_eq, UInt8.xor_eq_zero_iff]
          exact hmask
        show (if (if byte = 0 then 0 else byte ^^^ nameMask) = 0 then 0
          else (if byte = 0 then 0 else byte ^^^ nameMask) ^^^ nameMask) = byte
        rw [if_neg hnul, if_neg hmasked, UInt8.xor_assoc, UInt8.xor_self, UInt8.xor_zero]

/-- The names that are stored are those that are read. -/
theorem unmask_nameTable {layout : Layout} {members : List Member}
    (h : ∀ member ∈ members, member.Storable layout) :
    ((nameTable members).map (unmask layout)).map (unmask layout) = nameTable members := by
  rw [List.map_map]
  refine (List.map_congr_left fun byte hbyte => ?_).trans (List.map_id _)
  refine unmask_unmask fun hlayout => ?_
  rintro rfl
  obtain ⟨member, hmember, hname⟩ := List.mem_flatMap.mp hbyte
  have hstorable := h member hmember
  rcases List.mem_append.mp hname with hname | hnul
  · exact not_mem_nameBytes hstorable (hstorable.unmasked hlayout) rfl hname
  · exact absurd hnul (by decide)

@[simp] theorem length_entryWords (name start : Nat) (members : List Member) :
    (entryWords name start members).length = 4 * members.length := by
  induction members generalizing name start with
  | nil => rfl
  | cons member members ih =>
      simp only [entryWords, List.length_cons, ih]
      omega

/-- The words end where the names start. -/
theorem length_words (layout : Layout) (members : List Member) :
    4 + 4 * (words layout members).length = namesStart layout members := by
  rw [words, List.length_append, length_entryWords]
  cases layout <;>
    · simp only [headerWords, namesStart, entriesStart, headerSize, entrySize, List.length_append,
        List.length_cons, List.length_nil]
      omega

section Places

variable {layout : Layout} {members : List Member}

/-- The words of an archive are found at their places. -/
theorem word_pack (h : ∀ number ∈ words layout members, number < 2 ^ 32) {i number : Nat}
    (hi : (words layout members)[i]? = some number) :
    word (pack layout members) (4 + 4 * i) = number := by
  have hword := word_flatMap_ofNat h magic
    ((nameTable members).map (unmask layout) ++ payloads members) hi
  rw [← List.append_assoc] at hword
  exact hword

/-- The words of the entries follow those of the header. -/
theorem word_pack_entries (h : ∀ number ∈ words layout members, number < 2 ^ 32) {i number : Nat}
    (hi : (entryWords 0 (dataStart layout members) members)[i]? = some number) :
    word (pack layout members) (entriesStart layout + 4 * i) = number := by
  have hword : (words layout members)[(headerWords layout members).length + i]? = some number := by
    rw [words, List.getElem?_append_right (Nat.le_add_right ..), Nat.add_sub_cancel_left, hi]
  rw [← word_pack h hword]
  congr 1
  cases layout <;>
    · simp only [headerWords, entriesStart, headerSize, List.length_append, List.length_cons,
        List.length_nil]
      omega

/-- What precedes the names of an archive is as long as it should be. -/
theorem length_magic_words (layout : Layout) (members : List Member) :
    (magic ++ (words layout members).flatMap (Bytes.ofNat 4)).length =
      namesStart layout members := by
  rw [List.length_append, length_flatMap_ofNat, ← length_words]
  rfl

/-- An archive ends with the data of its last member. -/
theorem length_pack (layout : Layout) (members : List Member) :
    (pack layout members).length = dataStart layout members + (payloads members).length := by
  rw [pack, List.length_append, List.length_append, length_magic_words, List.length_map, dataStart]

/-- The names are at their place. -/
theorem slice_pack_names (layout : Layout) (members : List Member) :
    slice (pack layout members) (namesStart layout members) (nameTable members).length =
      (nameTable members).map (unmask layout) := by
  have hslice := slice_append (magic ++ (words layout members).flatMap (Bytes.ofNat 4))
    ((nameTable members).map (unmask layout)) (payloads members)
  rw [length_magic_words, List.length_map] at hslice
  exact hslice

/-- The data is at its place. -/
theorem drop_pack_data (layout : Layout) (members : List Member) :
    (pack layout members).drop (dataStart layout members) = payloads members := by
  refine List.drop_left' ?_
  rw [List.length_append, length_magic_words, List.length_map, dataStart]

end Places

end Archive

end SceneSet
