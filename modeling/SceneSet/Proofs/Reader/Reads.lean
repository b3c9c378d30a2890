import SceneSet.Proofs.Bytes.Word
import SceneSet.Proofs.Number.Widening
import SceneSet.Proofs.Reader.Basic

/-!
# Reading what was written

`Reads reader start block value` says that a reader that comes to `block` at the offset `start`
takes just this block and gives `value`, whatever follows. It holds for each of the readers of
fields (`Reads.int32`, `Reads.fixedString` and so on) and goes through chains of readers
(`Reads.bind`) and repetitions (`Reads.repeated`).
-/

namespace SceneSet

open Number (widened)

/-- A reader takes a block at some offset and gives a value, whatever follows the block. -/
def Reads {α : Type} (reader : Reader α) (start : Nat) (block : Bytes) (value : α) : Prop :=
  ∀ tail, reader ⟨start, block ++ tail⟩ = .ok value ⟨start + block.length, tail⟩

/-- The values of items that are stored one after the other, each by its own offset. -/
def laidOut {ι α : Type} (block : ι → Bytes) (value : Nat → ι → α) : Nat → List ι → List α
  | _, [] => []
  | start, item :: items =>
      value start item :: laidOut block value (start + (block item).length) items

/-- Values that do not depend on their offsets are laid out as they are. -/
theorem laidOut_const {ι α : Type} (block : ι → Bytes) (value : ι → α) (start : Nat)
    (items : List ι) : laidOut block (fun _ => value) start items = items.map value := by
  induction items generalizing start with
  | nil => rfl
  | cons item items ih => rw [laidOut, ih, List.map_cons]

namespace Reads

variable {α β : Type} {start : Nat}

theorem pure (value : α) : Reads (Pure.pure value) start [] value := fun _ => rfl

/-- One reader after the other takes one block after the other. -/
theorem bind {first : Reader α} {next : α → Reader β} {front back : Bytes} {value : α} {result : β}
    (hfirst : Reads first start front value)
    (hnext : Reads (next value) (start + front.length) back result) :
    Reads (first >>= next) start (front ++ back) result := by
  intro tail
  rw [List.append_assoc, bind_of_ok (hfirst (back ++ tail)), hnext tail, List.length_append,
    Nat.add_assoc]

/-- A reader that only looks at the block leaves it for the next. -/
theorem look_bind {first : Reader α} {next : α → Reader β} {block : Bytes} {value : α} {result : β}
    (hfirst : ∀ tail, first ⟨start, block ++ tail⟩ = .ok value ⟨start, block ++ tail⟩)
    (hnext : Reads (next value) start block result) :
    Reads (first >>= next) start block result := by
  intro tail
  rw [bind_of_ok (hfirst tail)]
  exact hnext tail

theorem offset_bind {next : Nat → Reader β} {block : Bytes} {result : β}
    (h : Reads (next start) start block result) :
    Reads (Reader.offset >>= next) start block result :=
  look_bind (fun _ => rfl) h

/-- A last step that takes nothing. -/
theorem bind_nil {first : Reader α} {next : α → Reader β} {block : Bytes} {value : α} {result : β}
    (hfirst : Reads first start block value)
    (hnext : Reads (next value) (start + block.length) [] result) :
    Reads (first >>= next) start block result := by
  have h := hfirst.bind hnext
  rwa [List.append_nil] at h

/-- A last step that only computes. -/
theorem map {first : Reader α} {f : α → β} {block : Bytes} {value : α}
    (h : Reads first start block value) :
    Reads (first >>= fun a => Pure.pure (f a)) start block (f value) :=
  h.bind_nil (pure (f value))

/-- A repeated reader takes the blocks of a list of items. -/
theorem repeated {ι : Type} {action : Reader α} {block : ι → Bytes} {value : Nat → ι → α}
    {items : List ι}
    (h : ∀ item ∈ items, ∀ start, Reads action start (block item) (value start item)) :
    Reads (SceneSet.repeated action items.length) start (items.flatMap block)
      (laidOut block value start items) := by
  induction items generalizing start with
  | nil => exact pure _
  | cons item items ih =>
      have hhead := h item (List.mem_cons_self ..) start
      -- the other items start behind this one, so their values take the later offset
      have hothers : Reads (SceneSet.repeated action items.length)
          (start + (block item).length) _ _ :=
        ih fun other hother => h other (List.mem_cons_of_mem _ hother)
      exact hhead.bind hothers.map

/-! ## Fields -/

/-- A block of the size that is asked for. -/
theorem claim {block : Bytes} {size : Int} (hsize : size = block.length) (what : String) :
    Reads (Reader.claim size what) start block block := by
  intro tail
  rw [hsize]
  exact Reader.claim_append block tail start what

/-- A signed integer of 32 bits. -/
theorem int32 (n : Int32) : Reads Reader.int32 start (Bytes.ofInt32 n) n.toInt := by
  have hsize : (4 : Int) = (Bytes.ofInt32 n).length := by
    rw [Bytes.length_ofInt32]
    rfl
  have h : Reads Reader.int32 start (Bytes.ofInt32 n) (Reader.signed (Bytes.ofInt32 n)) :=
    (claim hsize "int32").map
  rwa [Bytes.signed_ofInt32] at h

/-- A pattern of 32 bits, read as a number. -/
theorem float32 (pattern : UInt32) :
    Reads Reader.float32 start (Bytes.ofUInt32 pattern) (widened pattern.toNat) := by
  have hsize : (4 : Int) = (Bytes.ofUInt32 pattern).length := by
    rw [Bytes.length_ofUInt32]
    rfl
  have h : Reads Reader.float32 start (Bytes.ofUInt32 pattern)
      (widened (Reader.littleEndian (Bytes.ofUInt32 pattern))) :=
    (claim hsize "float32").map
  rwa [Bytes.ofUInt32, Bytes.littleEndian_ofNat pattern.toNat_lt] at h

/-- A byte, read as a truth value. -/
theorem bool8 (byte : UInt8) : Reads Reader.bool8 start [byte] (byte != 0) := by
  have hsize : (1 : Int) = [byte].length := rfl
  have h : Reads Reader.bool8 start [byte] (Reader.littleEndian [byte] != 0) :=
    (claim hsize "bool8").map
  rwa [Bytes.littleEndian_singleton_bne] at h

/-- A count that fits a signed integer. -/
theorem count {n : Nat} (hn : n < 2 ^ 31) (what : String) :
    Reads (Reader.count what) start (Bytes.ofNat 4 n) n := by
  have hsize : (4 : Int) = (Bytes.ofNat 4 n).length := by
    rw [Bytes.length_ofNat]
    rfl
  have h : Reads Reader.int32 start (Bytes.ofNat 4 n) (Reader.signed (Bytes.ofNat 4 n)) :=
    (claim hsize "int32").map
  rw [Bytes.signed_ofNat hn] at h
  refine offset_bind (h.bind_nil ?_)
  rw [if_neg (Int.not_lt.mpr (Int.natCast_nonneg n))]
  exact pure _

/-- A block of bytes. -/
theorem bytes {block : Bytes} {size : Int} (hsize : size = block.length) :
    Reads (Reader.bytes size) start block block := claim hsize "byte block"

/-- Bytes that are not looked at. -/
theorem skip {block : Bytes} {size : Int} (hsize : size = block.length) :
    Reads (Reader.skip size) start block () := (claim hsize "skipped block").map

/-- A name is looked up to the NUL that ends it, whatever follows. -/
theorem untilNul {name : Bytes} (hname : 0 ∉ name) (padding : Bytes) (start : Nat) (tail : Bytes) :
    Reader.untilNul ⟨start, Bytes.ofName name padding ++ tail⟩ =
      .ok name ⟨start, Bytes.ofName name padding ++ tail⟩ :=
  Reader.untilNul_eq_ok.mpr ⟨rfl, hname, padding ++ tail, List.append_assoc ..⟩

/-- A name in a field of a known size. -/
theorem fixedString {name padding : Bytes} (hname : 0 ∉ name) {size : Nat}
    (hsize : size = (Bytes.ofName name padding).length) :
    Reads (Reader.fixedString size) start (Bytes.ofName name padding) (Latin.decode name) := by
  have hclaim : (size : Int) = (Bytes.ofName name padding).length := congrArg Nat.cast hsize
  refine offset_bind ?_
  rw [if_neg (Int.not_lt.mpr (Int.natCast_nonneg size))]
  -- looking for the NUL leaves the cursor, so the whole field is still to be taken
  exact look_bind (untilNul hname padding start) (claim hclaim "fixed string").map

/-- A name without padding. -/
theorem cString {name : Bytes} (hname : 0 ∉ name) :
    Reads Reader.cString start (Bytes.ofName name []) (Latin.decode name) := by
  have hsize : (name.length : Int) + 1 = (Bytes.ofName name []).length := by
    rw [Bytes.ofName, List.length_append]
    rfl
  exact look_bind (untilNul hname [] start) (claim hsize "string").map

end Reads

end SceneSet
