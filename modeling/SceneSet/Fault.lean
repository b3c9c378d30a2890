import SceneSet.Text.Numeral

/-!
# Faults in set data

The reasons why bytes cannot be read as a set, each with the offset that it concerns, and the one
wording of each.
-/

namespace SceneSet

/-- A reason why set data cannot be read. -/
inductive Fault where
  /-- A value of `size` bytes would run past the end of a buffer of `length` bytes. -/
  | truncated (offset size length : Int) (what : String)
  /-- A block of a negative size was asked for. -/
  | negativeSize (what : String) (size : Int) (offset : Nat)
  /-- A field of a negative length was asked for. -/
  | negativeLength (length : Int) (offset : Nat)
  /-- The data announces a negative number of something. -/
  | negativeCount (what : String) (count : Int) (offset : Nat)
  /-- A tag names no member of its type, and unknown tags are not accepted. -/
  | unknownTag (tag offset : Int) (typeName : String)
  deriving DecidableEq

namespace Fault

/-- The kinds of faults: the buffer ends too early, it announces something that cannot be, or it
holds a tag that is not accepted. -/
inductive Kind where
  | truncated
  | malformed
  | unknownTag
  deriving DecidableEq

/-- The kind of a fault. -/
def kind : Fault → Kind
  | truncated .. => .truncated
  | negativeSize .. | negativeLength .. | negativeCount .. => .malformed
  | unknownTag .. => .unknownTag

/-- The wording of a fault. -/
def message : Fault → String
  | truncated offset size length what =>
      "Truncated input: " ++ what ++ " needs " ++ Numeral.text size ++ " byte(s) at offset "
        ++ Numeral.offset offset ++ " but the buffer ends at " ++ Numeral.offset length
  | negativeSize what size offset =>
      "Negative " ++ what ++ " size " ++ Numeral.text size ++ " at offset " ++ Numeral.offset offset
  | negativeLength length offset =>
      "Negative string length " ++ Numeral.text length ++ " at offset " ++ Numeral.offset offset
  | negativeCount what count offset =>
      "Negative " ++ what ++ " (" ++ Numeral.text count ++ ") at offset " ++ Numeral.offset offset
  | unknownTag tag offset typeName =>
      "Unknown " ++ typeName ++ " tag " ++ Numeral.tag tag ++ " in record at offset "
        ++ Numeral.offset offset

end Fault

end SceneSet
