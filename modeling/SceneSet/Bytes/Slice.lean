import SceneSet.Bytes.Cursor

/-!
# Parts of a buffer

The bytes at a place of a buffer, and what they are read as.
-/

namespace SceneSet.Bytes

/-- Some bytes of a buffer, fewer if it ends before. -/
def slice (data : Bytes) (start size : Nat) : Bytes := (data.drop start).take size

/-- The word of 32 bits at some place. -/
def word (data : Bytes) (start : Nat) : Nat := Reader.littleEndian (slice data start 4)

end SceneSet.Bytes
