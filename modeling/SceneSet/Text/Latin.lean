/-!
# Byte text

Texts of the set files and archives hold one character per byte, the first 256 characters of
Unicode. `Latin.decode` is total; `Latin.encode?` fails on a character that has no byte.
-/

namespace SceneSet

/-- A run of bytes. -/
abbrev Bytes := List UInt8

namespace Latin

/-- The character of a byte. -/
def char (byte : UInt8) : Char := Char.ofNat byte.toNat

/-- The byte of a character, if it has one. -/
def byte? (c : Char) : Option UInt8 :=
  if c.toNat < 256 then some (UInt8.ofNat c.toNat) else none

/-- The text of some bytes. -/
def decode (bytes : Bytes) : String := String.ofList (bytes.map char)

/-- The bytes of a text, if all of its characters have one. -/
def encode? (text : String) : Option Bytes := text.toList.mapM byte?

@[simp] theorem toNat_char (byte : UInt8) : (char byte).toNat = byte.toNat := by
  have small := byte.toNat_lt
  have valid : byte.toNat.isValidChar := .inl (by omega)
  have hchar : char byte = Char.ofNatAux byte.toNat valid := dif_pos valid
  rw [hchar]
  rfl

@[simp] theorem byte?_char (byte : UInt8) : byte? (char byte) = some byte := by
  simp [byte?, byte.toNat_lt]

/-- A text has one character for each byte. -/
@[simp] theorem length_decode (bytes : Bytes) : (decode bytes).length = bytes.length := by
  simp [decode]

/-- Every text made of bytes has them back. -/
theorem encode?_decode (bytes : Bytes) : encode? (decode bytes) = some bytes := by
  simp only [encode?, decode, String.toList_ofList]
  induction bytes with
  | nil => rfl
  | cons byte bytes ih => simp [List.mapM_cons, ih]

end Latin

/-- The bytes of a text in UTF-8. -/
def utf8 (text : String) : Bytes := text.toList.flatMap String.utf8EncodeChar

end SceneSet
