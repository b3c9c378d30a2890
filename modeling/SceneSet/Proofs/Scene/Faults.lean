import SceneSet.Proofs.Scene.Strictness

/-!
# Faults tell the truth

A fault names offsets, sizes and stored values. `Fault.TrueOf` says that they are those of the
buffer, and `Walk.telling` is the walk on which no other faults may be met. `Scene.read_fault` is
the result for whole sets: a block of a negative size is never asked for, and a strict reading
refuses only a sector that is stored in the buffer.
-/

namespace SceneSet

open Bytes (slice signedAt)

/-- What a fault says is true of a buffer. A block of a negative size and a field of a negative
length have no case, since no set makes a reader ask for them. -/
inductive Fault.TrueOf (options : ReadOptions) (data : Bytes) : Fault → Prop where
  | truncated {offset size : Int} {what : String} :
      0 ≤ offset → offset ≤ data.length → data.length < offset + size →
      TrueOf options data (.truncated offset size data.length what)
  | negativeCount {what : String} {offset : Nat} :
      offset + 4 ≤ data.length → signedAt data offset < 0 →
      TrueOf options data (.negativeCount what (signedAt data offset) offset)
  | unknownTag {start stop : Nat} {sector : Sector} :
      options.strict = true → stop ≤ data.length →
      sector.StoredAt options.legacyNormal data start stop →
      SectorType.ofTag? sector.tag = none →
      TrueOf options data (.unknownTag sector.tag start "SectorType")

/-- A buffer beside itself, whose readers may end with faults that are true of it. -/
def Walk.telling (options : ReadOptions) (data : Bytes) : Walk data where
  origin := 0
  kept := data.length
  front := []
  back := []
  met := Fault.TrueOf options data
  truncated hoffset hlong := .truncated (Int.natCast_nonneg _) (Int.ofNat_le.mpr hoffset) hlong
  negativeCount := .negativeCount

/-- A set is refused just if the reader without a log meets this fault. -/
theorem Scene.read_fst_eq_error {options : ReadOptions} {log : Option Log} {data : Bytes}
    {fault : Fault} : (Scene.read options log data).1 = .error fault ↔
      ∃ stop, Scene.reader options (Cursor.ofBytes data) = .error fault stop := by
  rw [Scene.read_fst]
  cases Scene.reader options (Cursor.ofBytes data) <;> simp

/-- What stops the reading of a set is true of its bytes, whatever they are. A truncation starts
inside the buffer and needs more than there is, a count that is refused is stored where the message
says and is the one that it prints, and a tag is refused only by a strict reading, in a sector that
is stored inside the buffer. -/
theorem Scene.read_fault {options : ReadOptions} {log : Option Log} {data : Bytes} {fault : Fault}
    (h : (Scene.read options log data).1 = .error fault) :
    fault.TrueOf options data ∧
      (fault.kind = .unknownTag → options.strict = true) ∧
      (fault.kind = .malformed → ∃ what offset,
        offset + 4 ≤ data.length ∧ signedAt data offset < 0 ∧
        fault.message = "Negative " ++ what ++ " (" ++ Numeral.text (signedAt data offset)
          ++ ") at offset " ++ Numeral.offset offset) := by
  obtain ⟨_, hreader⟩ := Scene.read_fst_eq_error.mp h
  have hfollows : (Walk.telling options data).Follows 0 _ _ (Scene.reader options) _ :=
    .scene .unknownTag (Nat.le_refl _)
  obtain ⟨_, -, -, -, htrue, -⟩ := hfollows.of_error (Nat.le_refl 0) (Nat.zero_le _) hreader
  refine ⟨htrue, fun hkind => ?_, fun hkind => ?_⟩
  · cases htrue with
    | truncated => cases hkind
    | negativeCount => cases hkind
    | unknownTag hstrict => exact hstrict
  · cases htrue with
    | truncated => cases hkind
    | @negativeCount what offset hinside hnegative =>
        exact ⟨what, offset, hinside, hnegative, rfl⟩
    | unknownTag => cases hkind

/-- A set that stops at the length of the name of its only sector, which is negative. -/
def Scene.negativeBytes : Bytes :=
  [0, 0, 0, 0, 0, 0, 0, 0, 1, 0, 0, 0, 0, 0, 0, 0, 0xfe, 0xff, 0xff, 0xff]

/-- A set with one sector of an unknown type. -/
def Scene.strangeBytes : Bytes :=
  [0, 0, 0, 0, 0, 0, 0, 0, 1, 0, 0, 0, 0, 0, 0, 0, 1, 0, 0, 0, 0, 0, 0, 0, 0, 1, 0x34, 0x12, 0, 0,
    0, 0, 0, 0, 0, 0, 0x80, 0x7f]

/-- The length is stored at the place that is named, and the strange tag in a sector that starts at
the place that is named. -/
theorem Scene.read_fault_negative :
    ((read ⟨false, false⟩ none negativeBytes).1 =
        .error (.negativeCount "sector name length" (-2) 16) ∧
      ∃ what offset, signedAt negativeBytes offset < 0 ∧
        "Negative sector name length (-2) at offset 0x10" = "Negative " ++ what ++ " ("
          ++ Numeral.text (signedAt negativeBytes offset) ++ ") at offset "
          ++ Numeral.offset offset) ∧
      (read ⟨true, false⟩ none strangeBytes).1 =
        .error (.unknownTag 0x1234 12 "SectorType") ∧
      (Fault.unknownTag 0x1234 12 "SectorType").TrueOf ⟨true, false⟩ strangeBytes := by
  have hnegative : (read ⟨false, false⟩ none negativeBytes).1 =
      .error (.negativeCount "sector name length" (-2) 16) := by decide +kernel
  have hstrange : (read ⟨true, false⟩ none strangeBytes).1 =
      .error (.unknownTag 0x1234 12 "SectorType") := by decide +kernel
  obtain ⟨-, -, hmalformed⟩ := read_fault hnegative
  obtain ⟨what, offset, -, hsign, hmessage⟩ := hmalformed rfl
  have htext : (Fault.negativeCount "sector name length" (-2) 16).message =
      "Negative sector name length (-2) at offset 0x10" := by decide
  rw [htext] at hmessage
  exact ⟨⟨hnegative, what, offset, hsign, hmessage⟩, hstrange, (read_fault hstrange).1⟩

end SceneSet
