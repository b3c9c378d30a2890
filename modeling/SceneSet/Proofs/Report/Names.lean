import SceneSet.Proofs.Report.Encoding
import Mathlib.Data.List.Basic
import Mathlib.Data.List.TakeDrop

/-!
# Names in reports

A name goes from the buffer into the report without a change: `Report.bytes` is the layout of a
report into which the bytes of the buffer are copied, from where a name is stored up to the next NUL.
No other part of it depends on a name. `Report.encode?_scene` shows that the report of a scene that
is read is written as just these bytes.
-/

namespace SceneSet

namespace Latin

/-- The bytes of characters that have one. -/
def octets (text : List Char) : Bytes := text.map fun c => UInt8.ofNat c.toNat

@[simp] theorem octets_nil : octets [] = [] := rfl

@[simp] theorem octets_append (first second : List Char) :
    octets (first ++ second) = octets first ++ octets second := List.map_append

@[simp] theorem octets_cons (c : Char) (rest : List Char) :
    octets (c :: rest) = UInt8.ofNat c.toNat :: octets rest := rfl

theorem octets_flatMap {α : Type} (f : α → List Char) (items : List α) :
    octets (items.flatMap f) = items.flatMap fun item => octets (f item) := List.map_flatMap

@[simp] theorem octets_decode (bytes : Bytes) : octets (decode bytes).toList = bytes := by
  simp [octets, decode, Function.comp_def]

/-- A text whose characters have bytes is encoded as these. -/
theorem encode?_of_fits {text : String} (h : Fits text) :
    encode? text = some (octets text.toList) := by
  unfold encode? octets
  unfold Fits at h
  generalize text.toList = chars at h
  induction chars with
  | nil => rfl
  | cons c rest ih =>
      rw [List.forall_mem_cons] at h
      rw [List.mapM_cons, ih h.2, byte?, if_pos h.1]
      rfl

end Latin

namespace Bytes

/-- The bytes from a place up to the next NUL. -/
def upToNul (data : Bytes) (start : Nat) : Bytes := (data.drop start).takeWhile (· != 0)

theorem FirstNul.slice_eq {data : Bytes} {start stop : Nat} (h : FirstNul data start stop) :
    slice data start (stop - start) = data.upToNul start := by
  have hplace : start + (stop - start) = stop := Nat.add_sub_cancel' h.le
  have hnul : (data.drop start)[stop - start]? = some 0 := by
    rw [List.getElem?_drop, hplace]
    exact h.nul
  obtain ⟨hlt, hzero⟩ := List.getElem?_eq_some_iff.mp hnul
  -- no byte of the slice is a NUL, and the one behind it is
  have hplain : ∀ byte ∈ slice data start (stop - start), (byte != 0) = true := by
    intro byte hbyte
    obtain ⟨i, hi, rfl⟩ := List.mem_iff_getElem.mp hbyte
    rw [bne_iff_ne]
    intro hbyte
    rw [slice, List.length_take] at hi
    refine h.plain (start + i) (Nat.le_add_right _ _) (by omega) ?_
    rw [← List.getElem?_drop, List.getElem?_eq_some_iff]
    exact ⟨by omega, by rw [← hbyte]; simp [slice]⟩
  have hsplit : data.drop start =
      slice data start (stop - start) ++ 0 :: (data.drop start).drop (stop - start + 1) := by
    rw [slice, ← hzero, List.cons_getElem_drop_succ, List.take_append_drop]
  rw [upToNul, hsplit, List.takeWhile_append_of_pos hplain, List.takeWhile_cons_of_neg (by simp),
    List.append_nil]

theorem TextAt.eq_decode {data : Bytes} {start : Nat} {text : String} (h : TextAt data start text) :
    text = Latin.decode (data.upToNul start) := by
  obtain ⟨stop, hnul, rfl⟩ := h
  rw [hnul.slice_eq]

end Bytes

/-- The stored name of a setup. -/
def Setup.storedName (data : Bytes) (setup : Setup) : Bytes := data.upToNul setup.offset.toNat

/-- The stored name of a sector, behind its vertices and the size of the field. -/
def Sector.storedName (data : Bytes) (sector : Sector) : Bytes :=
  data.upToNul (sector.offset.toNat + 4 + 12 * sector.vertices.length + 4)

theorem Setup.StoredAt.name_eq {data : Bytes} {start stop : Nat} {setup : Setup}
    (h : setup.StoredAt data start stop) : setup.name = Latin.decode (setup.storedName data) := by
  rw [Setup.storedName, h.offset]
  exact h.name.eq_decode

theorem Sector.StoredAt.name_eq {legacy : Bool} {data : Bytes} {start stop : Nat} {sector : Sector}
    (h : sector.StoredAt legacy data start stop) :
    sector.name = Latin.decode (sector.storedName data) := by
  obtain ⟨sizes, hwith, -⟩ := h
  have hvertices : sector.vertices.length = sizes.vertices := by
    rw [hwith.vertices, List.length_map, List.length_range]
  rw [Sector.storedName, hwith.offset, hvertices]
  exact hwith.name.eq_decode

namespace Report

open Latin (octets)

/-- The record of a setup or sector: a line with the name, and further lines. -/
def namedRecord (field : String) (name : Bytes) (rest : List Line) : Bytes :=
  octets (fieldLine field []) ++ name ++ octets ('\n' :: unlines rest)

/-- The record of a setup with a name. -/
def setupBytes (name : Bytes) (s : SetupOutline) : Bytes :=
  namedRecord "name" name (s.lines.tail ++ [[], []])

/-- The record of a sector with a name. -/
def sectorBytes (name : Bytes) (s : SectorOutline) : Bytes :=
  namedRecord "sector" name (s.lines.tail ++ s.blanks)

/-- The report of a scene with the names that are stored in a buffer. -/
def bytes (trueCounts : Bool) (data : Bytes) (s : Scene) : Bytes :=
  octets (unlines (Outline.ofScene s).head)
    ++ s.setups.flatMap (fun setup => setupBytes (setup.storedName data) (.ofSetup setup))
    ++ octets (unlines (Outline.lightsHeading :: (Outline.ofScene s).lightCount trueCounts ::
        (Outline.ofScene s).lightLines ++ [Outline.sectorsHeading]))
    ++ s.sectors.flatMap fun sector => sectorBytes (sector.storedName data) (.ofSector sector)

theorem octets_named {field : String} {name : Bytes} {text : String} (h : text = Latin.decode name)
    (rest : List Line) : octets (unlines (fieldLine field text.toList :: rest)) =
      namedRecord field name rest := by
  subst h
  simp [namedRecord, unlines_cons, fieldLine]

/-- The records of a report are laid out with the names that are stored. -/
theorem octets_scene {data : Bytes} {s : Scene}
    (hsetups : ∀ setup ∈ s.setups, setup.name = Latin.decode (setup.storedName data))
    (hsectors : ∀ sector ∈ s.sectors, sector.name = Latin.decode (sector.storedName data))
    (trueCounts : Bool) : octets (scene trueCounts s).toList = bytes trueCounts data s := by
  have hsetupLines : octets (unlines (Outline.ofScene s).setupLines) =
      s.setups.flatMap fun setup => setupBytes (setup.storedName data) (.ofSetup setup) := by
    unfold Outline.setupLines Outline.ofScene
    rw [unlines_flatMap, Latin.octets_flatMap, List.flatMap_map]
    exact List.flatMap_congr fun setup hsetup => octets_named (hsetups setup hsetup) _
  have hsectorLines : octets (unlines (Outline.ofScene s).sectorLines) =
      s.sectors.flatMap fun sector => sectorBytes (sector.storedName data) (.ofSector sector) := by
    unfold Outline.sectorLines Outline.ofScene
    rw [unlines_flatMap, Latin.octets_flatMap, List.flatMap_map]
    exact List.flatMap_congr fun sector hsector => octets_named (hsectors sector hsector) _
  rw [toList_scene, bytes, ← hsetupLines, ← hsectorLines]
  simp [Outline.lines, unlines_append, unlines_cons, unlines_nil]

/-- The report of a scene that is read fits into bytes, and these are laid out with the names that
are stored in the buffer. -/
theorem encode?_scene {options : ReadOptions} {log : Option Log} {data : Bytes} {s : Scene}
    (h : (Scene.read options log data).1 = .ok s) (trueCounts : Bool) :
    Latin.Fits (scene trueCounts s) ∧
      Latin.encode? (scene trueCounts s) = some (bytes trueCounts data s) := by
  obtain ⟨_, hreader⟩ := Scene.read_fst_eq_ok.mp h
  obtain ⟨_, -, -, hstored⟩ := Scene.storedAt_of_reader hreader
  obtain ⟨_, _, -, hsetups, -, -, -, hsectors⟩ := hstored.sections
  have hsetupNames := hsetups.forall_mem fun hsetup => hsetup.name_eq
  have hsectorNames := hsectors.forall_mem fun hsector => hsector.name_eq
  have hfits : Latin.Fits (scene trueCounts s) := by
    refine fits_scene (fun setup hsetup => ?_) (fun sector hsector => ?_) trueCounts
    · rw [hsetupNames setup hsetup]
      exact Latin.fits_decode _
    · rw [hsectorNames sector hsector]
      exact Latin.fits_decode _
  exact ⟨hfits, by rw [Latin.encode?_of_fits hfits, octets_scene hsetupNames hsectorNames]⟩

end Report

end SceneSet
