import SceneSet.Proofs.Reader.Basic
import SceneSet.Record.Reader

/-!
# Records at other places

The same bytes may follow a cursor at some other offset, in a buffer of some other length. What is
read there, or the fault that is met, is the same but for the offsets that it tells and the length
of the buffer, which are all moved by one distance.
-/

namespace SceneSet

variable {distance : Int}

/-- The same bytes follow both cursors, and their offsets lie apart by `distance`. -/
structure Cursor.Moved (distance : Int) (cursor other : Cursor) : Prop where
  offset : (other.offset : Int) = cursor.offset + distance
  rest : other.rest = cursor.rest

/-- Two faults that are the same but for the offset that they concern and for the length of the
buffer, which lie apart by `distance`. -/
inductive Fault.Moved (distance : Int) : Fault → Fault → Prop where
  | truncated {offset other length otherLength : Int} (size : Int) (what : String) :
      other = offset + distance → otherLength = length + distance →
      Moved distance (.truncated offset size length what) (.truncated other size otherLength what)
  | negativeSize {offset other : Nat} (what : String) (size : Int) :
      (other : Int) = offset + distance →
      Moved distance (.negativeSize what size offset) (.negativeSize what size other)
  | negativeLength {offset other : Nat} (length : Int) : (other : Int) = offset + distance →
      Moved distance (.negativeLength length offset) (.negativeLength length other)
  | negativeCount {offset other : Nat} (what : String) (count : Int) :
      (other : Int) = offset + distance →
      Moved distance (.negativeCount what count offset) (.negativeCount what count other)
  | unknownTag {offset other : Int} (tag : Int) (typeName : String) : other = offset + distance →
      Moved distance (.unknownTag tag offset typeName) (.unknownTag tag other typeName)

/-- The setup that is stored somewhere else. -/
def Setup.moved (distance : Int) (setup : Setup) : Setup :=
  { setup with offset := setup.offset + distance }

/-- The light that is stored somewhere else. -/
def Light.moved (distance : Int) (light : Light) : Light :=
  { light with offset := light.offset + distance }

/-- The sector that is stored somewhere else. -/
def Sector.moved (distance : Int) (sector : Sector) : Sector :=
  { sector with offset := sector.offset + distance }

@[simp] theorem Setup.moved_zero (setup : Setup) : setup.moved 0 = setup := by
  rw [moved, Int.add_zero]

@[simp] theorem Light.moved_zero (light : Light) : light.moved 0 = light := by
  rw [moved, Int.add_zero]

@[simp] theorem Sector.moved_zero (sector : Sector) : sector.moved 0 = sector := by
  rw [moved, Int.add_zero]

/-- The note about a record that is stored somewhere else. -/
def Diagnostic.moved (distance : Int) (note : Diagnostic) : Diagnostic :=
  { note with offset := note.offset + distance }

end SceneSet
