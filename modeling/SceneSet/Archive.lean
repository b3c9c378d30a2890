import SceneSet.Bytes.Slice
import SceneSet.Text.Fold
import SceneSet.Text.Quoted

/-!
# Archives

An archive packs members into one file: a header, a table of entries, a table of names ended by
NULs, and the data of the members. In the Grim layout the names follow the entries in plain bytes;
in the EMI layout the header has a further word, the place of the names plus a bias, and all bytes
of the names but the NULs are masked. Looking up a member takes no notice of case or of the
direction of slashes, and of members with the same key it finds the last.
-/

namespace SceneSet

open Bytes (slice word)

/-- How an archive stores the names of its members. -/
inductive Archive.Layout where
  | grim
  | emi
  deriving DecidableEq

/-- The name of a layout. -/
def Archive.Layout.name : Archive.Layout → String
  | .grim => "Grim"
  | .emi => "EMI"

/-- A member of an archive: its name, and where its data is. -/
structure Entry where
  name : String
  start : Nat
  size : Nat
  deriving DecidableEq

namespace Entry

/-- One line about a member. -/
def describe (entry : Entry) : String :=
  "off=0x" ++ Numeral.upperHex 8 entry.start ++ " | size="
    ++ Numeral.padRight 9 (Numeral.text entry.size) ++ " | " ++ entry.name

end Entry

/-- An archive in memory. `source` is the name that messages use for it. -/
structure Archive where
  data : Bytes
  entries : List Entry
  layout : Archive.Layout
  source : String
  deriving DecidableEq

namespace Archive

/-- A reason why bytes are no archive. -/
inductive Defect where
  | tooSmall (size : Nat)
  | badMagic (magic : Bytes)
  | entriesPastEnd (count : Nat)
  | namesPastEnd
  | nameOutside (index offset : Nat)
  | dataPastEnd (index : Nat)
  deriving DecidableEq

/-- The wording of a defect of the archive with this name. -/
def Defect.message (source : String) : Defect → String
  | tooSmall size =>
      source ++ ": too small to be a LAB archive (" ++ Numeral.text size ++ " bytes)"
  | badMagic magic => source ++ ": bad LAB magic " ++ Quoted.bytes magic
  | entriesPastEnd count =>
      "entry table for " ++ Numeral.text count ++ " entries runs past the end of the archive"
  | namesPastEnd => source ++ ": string table runs past the end of the archive"
  | nameOutside index offset =>
      source ++ ": entry #" ++ Numeral.text index ++ " name offset "
        ++ Numeral.offset offset ++ " outside string table"
  | dataPastEnd index =>
      source ++ ": entry #" ++ Numeral.text index
        ++ " data runs past the end of the archive"

/-- The first four bytes of an archive. -/
def magic : Bytes := [0x4c, 0x41, 0x42, 0x4e]

/-- The size of the header, without the further word of the EMI layout. -/
def headerSize : Nat := 16

/-- The size of an entry. -/
def entrySize : Nat := 16

/-- What is added to the place of the names in the EMI layout. -/
def nameBias : Nat := 0x13d0f

/-- What the bytes of the names are combined with in the EMI layout. -/
def nameMask : UInt8 := 0x96

/-- Where the tables of an archive are. -/
structure Tables where
  layout : Layout
  entries : Nat
  names : Nat
  deriving DecidableEq

/-- Finds the tables. The layout is EMI if its further word, where there is one, puts the names
behind the entries and inside the archive. -/
def locate (data : Bytes) (count namesSize : Nat) : Except Defect Tables :=
  let emiEntries := headerSize + 4
  let biased := word data headerSize
  if emiEntries ≤ data.length ∧ emiEntries + count * entrySize + nameBias ≤ biased
      ∧ biased - nameBias + namesSize ≤ data.length then
    .ok ⟨.emi, emiEntries, biased - nameBias⟩
  else if data.length < headerSize + count * entrySize then .error (.entriesPastEnd count)
  else .ok ⟨.grim, headerSize, headerSize + count * entrySize⟩

/-- One byte of the names of an archive, masked or not. NULs are never masked. -/
def unmask (layout : Layout) (byte : UInt8) : UInt8 :=
  match layout with
  | .grim => byte
  | .emi => if byte = 0 then 0 else byte ^^^ nameMask

/-- The entry with this index. -/
def readEntry (data : Bytes) (tables : Tables) (names : Bytes) (index : Nat) :
    Except Defect Entry :=
  let place := tables.entries + index * entrySize
  let nameOffset := word data place
  let start := word data (place + 4)
  let size := word data (place + 8)
  if names.length ≤ nameOffset then .error (.nameOutside index nameOffset)
  else if data.length < start + size then .error (.dataPastEnd index)
  else .ok ⟨Latin.decode ((names.drop nameOffset).takeWhile (· != 0)), start, size⟩

/-- The archive that some bytes are. -/
def read (source : String) (data : Bytes) : Except Defect Archive :=
  let count := word data 8
  let namesSize := word data 12
  if data.length < headerSize then .error (.tooSmall data.length)
  else if data.take 4 ≠ magic then .error (.badMagic (data.take 4))
  else do
    let tables ← locate data count namesSize
    if data.length < tables.names + namesSize then .error .namesPastEnd
    else do
      let names := (slice data tables.names namesSize).map (unmask tables.layout)
      let entries ← (List.range count).mapM (readEntry data tables names)
      pure ⟨data, entries, tables.layout, source⟩

/-- How many members an archive has. -/
def size (archive : Archive) : Nat := archive.entries.length

/-- The form of a name under which members are looked up. -/
def key (name : String) : List Char :=
  Fold.lower (name.toList.map fun c => if c = '\\' then '/' else c)

/-- The last member whose name has the same key. -/
def find? (archive : Archive) (name : String) : Option Entry :=
  archive.entries.reverse.find? fun entry => key entry.name == key name

/-- The data of a member. -/
def dataOf (archive : Archive) (entry : Entry) : Bytes :=
  slice archive.data entry.start entry.size

/-- The data of the member that is found under a name. -/
def read? (archive : Archive) (name : String) : Option Bytes :=
  (archive.find? name).map archive.dataOf

/-- No member is found under a name. -/
structure Missing where
  name : String
  deriving DecidableEq

/-- The data of the member that has to be found under a name. -/
def fetch (archive : Archive) (name : String) : Except Missing Bytes :=
  match archive.find? name with
  | some entry => .ok (archive.dataOf entry)
  | none => .error ⟨name⟩

end Archive

end SceneSet
