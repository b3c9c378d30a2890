import SceneSet.Proofs.Report.Characters
import SceneSet.Proofs.Stored.Tiling

/-!
# Reports as bytes

A report can be written with one byte for each character if the names in it can be (`fits_scene`).
The names of a scene that is read are made of bytes, so its report always can
(`encode?_scene_of_read`).
-/

namespace SceneSet

/-- All characters of a text have bytes. -/
def Latin.Fits (text : String) : Prop := ∀ c ∈ text.toList, c.toNat < 256

theorem Latin.fits_decode (bytes : Bytes) : Fits (decode bytes) := by
  intro c hc
  rw [decode, String.toList_ofList, List.mem_map] at hc
  obtain ⟨byte, -, rfl⟩ := hc
  rw [toNat_char]
  exact byte.toNat_lt

/-- A text whose characters have bytes can be encoded. -/
theorem Latin.Fits.encode? {text : String} (h : Fits text) : ∃ bytes, encode? text = some bytes := by
  unfold Latin.encode?
  unfold Fits at h
  generalize text.toList = chars at h
  induction chars with
  | nil => exact ⟨[], rfl⟩
  | cons c rest ih =>
      rw [List.forall_mem_cons] at h
      obtain ⟨bytes, hbytes⟩ := ih h.2
      refine ⟨UInt8.ofNat c.toNat :: bytes, ?_⟩
      rw [List.mapM_cons, hbytes, byte?, if_pos h.1]
      rfl

/-- What is true of each stored value is true of all values that are stored one behind the other. -/
theorem Tiled.forall_mem {α : Type} {stored : Nat → α → Nat → Prop} {start stop : Nat}
    {values : List α} {holds : α → Prop} (h : Tiled stored start values stop)
    (hstored : ∀ {start value stop}, stored start value stop → holds value) :
    ∀ value ∈ values, holds value := by
  induction h with
  | nil => exact nofun
  | cons hvalue _ ih => exact List.forall_mem_cons.mpr ⟨hstored hvalue, ih⟩

/-- The name of a setup that is read is made of bytes. -/
theorem Setup.StoredAt.fits_name {data : Bytes} {start stop : Nat} {setup : Setup}
    (h : setup.StoredAt data start stop) : Latin.Fits setup.name := by
  obtain ⟨_, -, hname⟩ := h.name
  rw [hname]
  exact Latin.fits_decode _

/-- The name of a sector that is read is made of bytes. -/
theorem Sector.StoredAt.fits_name {legacy : Bool} {data : Bytes} {start stop : Nat}
    {sector : Sector} (h : sector.StoredAt legacy data start stop) : Latin.Fits sector.name := by
  obtain ⟨_, hwith, -⟩ := h
  obtain ⟨_, -, hname⟩ := hwith.name
  rw [hname]
  exact Latin.fits_decode _

namespace Report

/-- If the names of a scene fit into bytes, then its report does. -/
theorem fits_scene {s : Scene} (hsetups : ∀ setup ∈ s.setups, Latin.Fits setup.name)
    (hsectors : ∀ sector ∈ s.sectors, Latin.Fits sector.name) (trueCounts : Bool) :
    Latin.Fits (scene trueCounts s) := by
  have hcovers : Covers fun c => c.toNat < 256 := by
    refine ⟨fun {c} hc => ?_, by decide⟩
    simp only [Quoted.isAsciiPrintable, Bool.and_eq_true, decide_eq_true_eq] at hc
    omega
  unfold Latin.Fits
  rw [toList_scene, unlines, List.forall_mem_flatMap]
  intro line hline
  rw [List.forall_mem_append, List.forall_mem_singleton]
  exact ⟨Outline.forall_mem_lines hcovers ⟨hsetups, hsectors⟩ trueCounts line hline, by decide⟩

/-- The report of a scene that is read can be encoded, since its names are made of bytes. -/
theorem encode?_scene_of_read {options : ReadOptions} {log : Option Log} {data : Bytes} {s : Scene}
    (h : (Scene.read options log data).1 = .ok s) (trueCounts : Bool) :
    ∃ bytes, Latin.encode? (scene trueCounts s) = some bytes := by
  obtain ⟨_, hreader⟩ := Scene.read_fst_eq_ok.mp h
  obtain ⟨_, -, -, hstored⟩ := Scene.storedAt_of_reader hreader
  obtain ⟨_, _, -, hsetups, -, -, -, hsectors⟩ := hstored.sections
  exact (fits_scene (hsetups.forall_mem fun h => h.fits_name)
    (hsectors.forall_mem fun h => h.fits_name) trueCounts).encode?

end Report

end SceneSet
