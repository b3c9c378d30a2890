import SceneSet.Bytes.Slice
import SceneSet.Proofs.Bytes.Word
import SceneSet.Proofs.Number.Widening
import SceneSet.Proofs.Reader.Basic
import SceneSet.Record.Reader

/-!
# Places in a buffer

What is stored at a place of a buffer, and what the two primitive readers make of it: a block is
taken if the buffer has all of it (`Reader.claim_within`), and a text is found if a NUL follows
(`Reader.untilNul_within`).
-/

namespace SceneSet

open Number (Double widened)
open Bytes (slice word)

namespace Bytes

/-- The signed integer of 32 bits at a place. -/
def signedAt (data : Bytes) (place : Nat) : Int := Reader.signed (slice data place 4)

/-- The number of 32 bits at a place, in 64 bits. -/
def numberAt (data : Bytes) (place : Nat) : Double := widened (word data place)

/-- The three numbers of 32 bits at a place. -/
def pointAt (data : Bytes) (place : Nat) : Point3 :=
  ⟨numberAt data place, numberAt data (place + 4), numberAt data (place + 8)⟩

/-- The first NUL at `start` or behind it is at `stop`. -/
structure FirstNul (data : Bytes) (start stop : Nat) : Prop where
  le : start ≤ stop
  nul : data[stop]? = some 0
  plain : ∀ place, start ≤ place → place < stop → data[place]? ≠ some 0

/-- A text goes from `start` to the first NUL, wherever that is. -/
def TextAt (data : Bytes) (start : Nat) (text : String) : Prop :=
  ∃ stop, FirstNul data start stop ∧ text = Latin.decode (slice data start (stop - start))

namespace FirstNul

variable {data : Bytes} {start stop other place : Nat}

/-- No NUL is in front of the first one. -/
theorem le_of_nul (h : FirstNul data start stop) (hle : start ≤ place)
    (hnul : data[place]? = some 0) : stop ≤ place :=
  Nat.not_lt.mp fun hlt => h.plain place hle hlt hnul

/-- There is only one first NUL. -/
theorem unique (h : FirstNul data start stop) (hother : FirstNul data start other) : stop = other :=
  Nat.le_antisymm (h.le_of_nul hother.le hother.nul) (hother.le_of_nul h.le h.nul)

theorem lt_length (h : FirstNul data start stop) : stop < data.length :=
  (List.getElem?_eq_some_iff.mp h.nul).1

end FirstNul

/-- The first NUL is behind the characters of the text. -/
theorem TextAt.firstNul {data : Bytes} {start : Nat} {text : String} (h : TextAt data start text) :
    FirstNul data start (start + text.length) := by
  obtain ⟨stop, hnul, rfl⟩ := h
  have hlt := hnul.lt_length
  have hle := hnul.le
  rw [Latin.length_decode, slice, List.length_take, List.length_drop,
    show start + min (stop - start) (data.length - start) = stop by omega]
  exact hnul

end Bytes

open Bytes

/-- The cursor at a place of a buffer. -/
def Cursor.within (data : Bytes) (place : Nat) : Cursor := ⟨place, data.drop place⟩

/-- A buffer has the same length wherever the cursor is. -/
theorem Cursor.length_within {data : Bytes} {start : Nat} (h : start ≤ data.length) :
    (within data start).length = data.length := by
  simp [within, length, remaining]
  omega

/-- `Tiled stored start values stop` says that values are stored one right behind the other, the
first at `start` and the last up to `stop`. -/
inductive Tiled {α : Type} (stored : Nat → α → Nat → Prop) : Nat → List α → Nat → Prop where
  | nil (start : Nat) : Tiled stored start [] start
  | cons {start middle stop : Nat} {value : α} {values : List α} :
      stored start value middle → Tiled stored middle values stop →
      Tiled stored start (value :: values) stop

namespace Reader

/-- A block of a negative size is refused where the cursor is. -/
theorem claim_of_neg {size : Int} (h : size < 0) (what : String) (cursor : Cursor) :
    claim size what cursor = .error (.negativeSize what size cursor.offset) cursor := by
  unfold claim
  rw [if_pos h]

/-- A block is the part of the buffer behind the cursor, if the buffer does not end before. -/
theorem claim_within {data : Bytes} {start : Nat} (h : start ≤ data.length) (size : Nat)
    (what : String) : claim size what (Cursor.within data start) =
      if start + size ≤ data.length then
        .ok (slice data start size) (Cursor.within data (start + size))
      else .error (.truncated start size data.length what) (Cursor.within data start) := by
  have hlength := Cursor.length_within h
  unfold claim
  rw [if_neg (by omega), hlength]
  simp only [Cursor.within, slice, Int.toNat_natCast, List.length_take, List.length_drop,
    List.drop_drop]
  by_cases hfits : start + size ≤ data.length
  · rw [if_pos (by omega), if_pos hfits, Nat.min_eq_left (by omega)]
  · rw [if_neg (by omega), if_neg hfits]

/-- The text that is looked up starts at the cursor, which stays, and ends at the first NUL. -/
theorem firstNul_of_untilNul {data name : Bytes} {start : Nat} {after : Cursor}
    (h : untilNul (Cursor.within data start) = .ok name after) :
    after = Cursor.within data start ∧ FirstNul data start (start + name.length) ∧
      name = slice data start name.length := by
  obtain ⟨rfl, hname, rest, hrest⟩ := untilNul_eq_ok.mp h
  have hdrop : data.drop start = name ++ 0 :: rest := hrest
  refine ⟨rfl, ⟨Nat.le_add_right _ _, ?_, ?_⟩, ?_⟩
  · rw [← List.getElem?_drop, hdrop]
    simp
  · intro place hle hlt hnul
    obtain ⟨i, rfl⟩ := Nat.exists_eq_add_of_le hle
    rw [← List.getElem?_drop, hdrop, List.getElem?_append_left (by omega)] at hnul
    exact hname (List.mem_of_getElem? hnul)
  · unfold slice
    rw [hdrop, List.take_left]

/-- If no NUL follows, the text in front of it is not found, as the buffer ends before. The cursor
stays in either case. -/
theorem untilNul_within {data : Bytes} {start : Nat} (h : start ≤ data.length) :
    (∃ name, untilNul (Cursor.within data start) = .ok name (Cursor.within data start)) ∨
      (∀ nul, start ≤ nul → data[nul]? ≠ some 0) ∧
        untilNul (Cursor.within data start) =
          .error (.truncated start (data.length - start + 1) data.length "string terminator")
            (Cursor.within data start) := by
  have hlength := Cursor.length_within h
  unfold untilNul
  split
  · rename_i hnone
    refine .inr ⟨fun nul hle hnul => ?_, ?_⟩
    · obtain ⟨i, rfl⟩ := Nat.exists_eq_add_of_le hle
      rw [← List.getElem?_drop] at hnul
      have hplain := List.dropWhile_eq_nil_iff.mp hnone 0 (List.mem_of_getElem? hnul)
      exact absurd hplain (by decide)
    · have hremaining : (Cursor.within data start).remaining = data.length - start :=
        List.length_drop
      rw [hlength, hremaining, Int.ofNat_sub h]
      rfl
  · exact .inl ⟨_, rfl⟩

end Reader

end SceneSet
