import SceneSet.Bytes.Slice
import Mathlib.Algebra.Order.Ring.Nat

/-!
# Fields as bytes

The bytes of a number, the least significant first, and what they are read as: `Bytes.ofNat` is
undone by `Reader.littleEndian`, and `Bytes.ofInt32` by `Reader.signed`. A name is followed by a
NUL and by what is left of its field. Words that are stored in a row are found by their index
(`Bytes.word_flatMap_ofNat`).
-/

namespace SceneSet

open Reader (littleEndian signed)

namespace Bytes

/-- The last `size` bytes of a number, the least significant first. -/
def ofNat : Nat → Nat → Bytes
  | 0, _ => []
  | size + 1, n => UInt8.ofNat n :: ofNat size (n / 256)

/-- The four bytes of a signed integer in two's complement. -/
def ofInt32 (n : Int32) : Bytes := ofNat 4 n.toUInt32.toNat

/-- The four bytes of a pattern of 32 bits. -/
def ofUInt32 (pattern : UInt32) : Bytes := ofNat 4 pattern.toNat

/-- A name in its field: the name, a NUL, and the padding. -/
def ofName (name padding : Bytes) : Bytes := name ++ 0 :: padding

@[simp] theorem length_ofNat (size n : Nat) : (ofNat size n).length = size := by
  induction size generalizing n with
  | zero => rfl
  | succ size ih => rw [ofNat, List.length_cons, ih]

@[simp] theorem length_ofInt32 (n : Int32) : (ofInt32 n).length = 4 := length_ofNat 4 _

@[simp] theorem length_ofUInt32 (pattern : UInt32) : (ofUInt32 pattern).length = 4 :=
  length_ofNat 4 _

/-- The bytes that are kept give the number up to a multiple of `256 ^ size`. -/
theorem littleEndian_ofNat_mod (size n : Nat) : littleEndian (ofNat size n) = n % 256 ^ size := by
  induction size generalizing n with
  | zero => exact (Nat.mod_one n).symm
  | succ size ih =>
      show (UInt8.ofNat n).toNat + 256 * littleEndian (ofNat size (n / 256)) = n % 256 ^ (size + 1)
      rw [ih, Nat.pow_succ', Nat.mod_mul, UInt8.toNat_ofNat']

/-- A number that fits is read back. -/
theorem littleEndian_ofNat {size n : Nat} (h : n < 256 ^ size) :
    littleEndian (ofNat size n) = n := by
  rw [littleEndian_ofNat_mod, Nat.mod_eq_of_lt h]

/-- A single byte is zero just as the number that it is read as. -/
theorem littleEndian_singleton_bne (byte : UInt8) : (littleEndian [byte] != 0) = (byte != 0) := by
  rw [Bool.eq_iff_iff, bne_iff_ne, bne_iff_ne, ne_eq, ne_eq, not_iff_not, ← UInt8.toNat_inj]
  show byte.toNat + 256 * 0 = 0 ↔ byte.toNat = 0
  rw [Nat.mul_zero, Nat.add_zero]

/-- A number that fits without the sign bit is read back also as a signed integer. -/
theorem signed_ofNat {n : Nat} (h : n < 2 ^ 31) : signed (ofNat 4 n) = n := by
  have hread : littleEndian (ofNat 4 n) = n := littleEndian_ofNat (by omega)
  unfold signed
  rw [hread, length_ofNat]
  exact if_pos (show 2 * n < 2 ^ 32 by omega)

/-- A signed integer is read back. -/
theorem signed_ofInt32 (n : Int32) : signed (ofInt32 n) = n.toInt := by
  have hlt := n.toUInt32.toNat_lt
  have hread : littleEndian (ofInt32 n) = n.toUInt32.toNat := littleEndian_ofNat hlt
  unfold signed
  rw [hread, length_ofInt32]
  exact (BitVec.toInt_eq_toNat_cond n.toBitVec).symm

@[simp] theorem length_flatMap_ofNat (size : Nat) (numbers : List Nat) :
    (numbers.flatMap (ofNat size)).length = size * numbers.length := by
  induction numbers with
  | nil => rfl
  | cons number numbers ih =>
      rw [List.flatMap_cons, List.length_append, ih, length_ofNat, List.length_cons,
        Nat.mul_succ, Nat.add_comm]

/-- A block of a buffer. -/
theorem slice_append (before block after : Bytes) :
    slice (before ++ block ++ after) before.length block.length = block := by
  rw [slice, List.append_assoc, List.drop_left, List.take_left]

/-- Words in a row are read by their index. -/
theorem word_flatMap_ofNat {numbers : List Nat} (h : ∀ number ∈ numbers, number < 2 ^ 32)
    (before after : Bytes) {i number : Nat} (hi : numbers[i]? = some number) :
    word (before ++ numbers.flatMap (ofNat 4) ++ after) (before.length + 4 * i) = number := by
  induction numbers generalizing before i with
  | nil => cases hi
  | cons first numbers ih =>
      rw [List.flatMap_cons]
      cases i with
      | zero =>
          cases hi
          rw [← List.append_assoc before, List.append_assoc _ _ after]
          have hslice := slice_append before (ofNat 4 number)
            (numbers.flatMap (ofNat 4) ++ after)
          rw [length_ofNat] at hslice
          rw [word, Nat.mul_zero, Nat.add_zero, hslice]
          exact littleEndian_ofNat (h number List.mem_cons_self)
      | succ i =>
          have hrest := ih (fun number hnumber => h number (List.mem_cons_of_mem _ hnumber))
            (before ++ ofNat 4 first) hi
          rw [List.length_append, length_ofNat] at hrest
          rw [← List.append_assoc before, ← hrest]
          congr 1
          omega

end Bytes

end SceneSet
