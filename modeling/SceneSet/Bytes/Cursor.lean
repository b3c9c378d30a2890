import SceneSet.Fault
import SceneSet.Number.Binary
import SceneSet.Text.Latin

/-!
# Reading bytes in order

A cursor is a place in a buffer, and a reader moves it forward. A reader that fails leaves the
cursor where it got to; each of the readers of this module is atomic, so it leaves the cursor
where it was. Words are little-endian.
-/

namespace SceneSet

open Number (Binary Single Double)

/-- A place in a buffer: how many bytes lie before it, and those that follow. -/
structure Cursor where
  offset : Nat
  rest : Bytes
  deriving DecidableEq

namespace Cursor

/-- The start of a buffer. -/
def ofBytes (data : Bytes) : Cursor := ⟨0, data⟩

/-- The place after some bytes of a buffer, if it has as many. -/
def at? (data : Bytes) (start : Int) : Option Cursor :=
  if 0 ≤ start ∧ start ≤ data.length then some ⟨start.toNat, data.drop start.toNat⟩ else none

/-- How many bytes follow. -/
def remaining (cursor : Cursor) : Nat := cursor.rest.length

/-- How many bytes the buffer has. -/
def length (cursor : Cursor) : Nat := cursor.offset + cursor.remaining

/-- Whether no byte follows. -/
def atEnd (cursor : Cursor) : Bool := cursor.rest.isEmpty

end Cursor

/-- An action that reads from a cursor and may fail. -/
abbrev Reader := EStateM Fault Cursor

/-- What an action gives when it is run some number of times. -/
def repeated {ε σ α : Type} (action : EStateM ε σ α) : Nat → EStateM ε σ (List α)
  | 0 => pure []
  | n + 1 => do
      let first ← action
      let rest ← repeated action n
      pure (first :: rest)

namespace Reader

/-- The natural number of a little-endian word. -/
def littleEndian (word : Bytes) : Nat :=
  word.foldr (fun byte higher => byte.toNat + 256 * higher) 0

/-- The integer of a little-endian word in two's complement. -/
def signed (word : Bytes) : Int :=
  let n := littleEndian word
  let range := 1 <<< (8 * word.length)
  if 2 * n < range then n else n - range

/-- The offset of the cursor. -/
def offset : Reader Nat := fun cursor => .ok cursor.offset cursor

/-- The next bytes, as many as asked for. -/
def claim (size : Int) (what : String) : Reader Bytes := fun cursor =>
  if size < 0 then .error (.negativeSize what size cursor.offset) cursor
  else
    let block := cursor.rest.take size.toNat
    if block.length = size then
      .ok block ⟨cursor.offset + block.length, cursor.rest.drop size.toNat⟩
    else .error (.truncated cursor.offset size cursor.length what) cursor

/-- A block that is there is read, whatever follows it. -/
theorem claim_append (block tail : Bytes) (start : Nat) (what : String) :
    claim block.length what ⟨start, block ++ tail⟩ = .ok block ⟨start + block.length, tail⟩ := by
  simp [claim]

/-- A signed integer of 32 bits. -/
def int32 : Reader Int := do
  pure (signed (← claim 4 "int32"))

/-- A floating-point number of 32 bits, widened to 64. -/
def float32 : Reader Double := do
  let word ← claim 4 "float32"
  pure (Binary.convert (Binary.ofBits (littleEndian word) : Single))

/-- One byte, true unless it is zero. -/
def bool8 : Reader Bool := do
  pure (littleEndian (← claim 1 "bool8") != 0)

/-- A block of bytes. -/
def bytes (size : Int) : Reader Bytes := claim size "byte block"

/-- A block of bytes that is not looked at. -/
def skip (size : Int) : Reader Unit := do
  let _ ← claim size "skipped block"

/-- The bytes before the next NUL. The cursor stays. -/
def untilNul : Reader Bytes := fun cursor =>
  match cursor.rest.dropWhile (· != 0) with
  | [] => .error (.truncated cursor.offset (cursor.remaining + 1) cursor.length
      "string terminator") cursor
  | _ :: _ => .ok (cursor.rest.takeWhile (· != 0)) cursor

/-- A text in a field of `length` bytes. The text ends at the first NUL, wherever that is; the
cursor moves past the field. -/
def fixedString (length : Int) : Reader String := do
  let start ← offset
  if length < 0 then throw (.negativeLength length start)
  else do
    let text ← untilNul
    let _ ← claim length "fixed string"
    pure (Latin.decode text)

/-- A text and the NUL that ends it. -/
def cString : Reader String := do
  let text ← untilNul
  let _ ← claim (text.length + 1) "string"
  pure (Latin.decode text)

/-- An integer of 32 bits that counts something and so must not be negative. -/
def count (what : String) : Reader Nat := do
  let start ← offset
  let value ← int32
  if value < 0 then throw (.negativeCount what value start)
  else pure value.toNat

end Reader

end SceneSet
