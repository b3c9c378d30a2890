import SceneSet.Proofs.Reader.Walk

/-!
# Readers and longer buffers

A reader looks at the bytes in front of it and at nothing else, so bytes that are added at the end
of the buffer matter only to a reader that ran out of them. `Stable` says so of an action: a result
that it gave it gives again, and also a fault, unless that fault is a truncated buffer. Chains and
repetitions of stable actions are stable. A reader is, since the longer buffer goes on behind all
bytes of the shorter one (`Stable.of_follows`).
-/

namespace SceneSet

/-- The same place in a buffer that goes on. -/
def Cursor.grow (tail : Bytes) (cursor : Cursor) : Cursor := ⟨cursor.offset, cursor.rest ++ tail⟩

/-- A place in a buffer that goes on is a place in the longer buffer. -/
theorem Cursor.grow_within {data : Bytes} {place : Nat} (tail : Bytes) (h : place ≤ data.length) :
    (within data place).grow tail = within (data ++ tail) place := by
  unfold within grow
  rw [List.drop_append_of_le_length h]

/-- Every cursor is at a place of some buffer. -/
theorem Cursor.exists_within (cursor : Cursor) :
    ∃ data start, start ≤ data.length ∧ cursor = within data start := by
  refine ⟨List.replicate cursor.offset 0 ++ cursor.rest, cursor.offset, ?_, ?_⟩
  · rw [List.length_append, List.length_replicate]
    omega
  · rw [within, List.drop_left' List.length_replicate]

/-- The cursor in the longer buffer is the one that goes on. -/
theorem Walk.cursor_grow {data : Bytes} {start : Nat} (tail : Bytes) (h : start ≤ data.length) :
    (between data 0 data.length [] tail).cursor start = (Cursor.within data start).grow tail := by
  have hbuffer : (between data 0 data.length [] tail).buffer = data ++ tail := by
    simp [buffer, between, Bytes.slice]
  rw [Cursor.grow_within tail h, cursor, hbuffer]
  rfl

/-- Faults that are not moved are the same. -/
theorem Fault.Moved.eq_of_zero {fault other : Fault} (h : fault.Moved 0 other) : other = fault := by
  cases h with
  | truncated size what hoffset hlength => rw [hoffset, hlength, Int.add_zero, Int.add_zero]
  | negativeSize what size hoffset => rw [Int.ofNat_inj.mp (hoffset.trans (Int.add_zero _))]
  | negativeLength length hoffset => rw [Int.ofNat_inj.mp (hoffset.trans (Int.add_zero _))]
  | negativeCount what count hoffset => rw [Int.ofNat_inj.mp (hoffset.trans (Int.add_zero _))]
  | unknownTag tag typeName hoffset => rw [hoffset, Int.add_zero]

/-- A larger state changes nothing in what an action does, unless the action ran into the end of a
buffer. -/
structure Stable {σ α : Type} (grow : σ → σ) (action : EStateM Fault σ α) : Prop where
  ok : ∀ {before value after}, action before = .ok value after →
    action (grow before) = .ok value (grow after)
  error : ∀ {before fault after}, action before = .error fault after → fault.kind ≠ .truncated →
    action (grow before) = .error fault (grow after)

namespace Stable

variable {σ α β : Type} {grow : σ → σ}

theorem pure (value : α) : Stable grow (Pure.pure value : EStateM Fault σ α) where
  ok h := by
    cases h
    rfl
  error h _ := by cases h

theorem bind {first : EStateM Fault σ α} {next : α → EStateM Fault σ β}
    (hfirst : Stable grow first) (hnext : ∀ value, Stable grow (next value)) :
    Stable grow (first >>= next) where
  ok h := by
    obtain ⟨value, middle, hvalue, hresult⟩ := bind_eq_ok.mp h
    exact bind_eq_ok.mpr ⟨value, grow middle, hfirst.ok hvalue, (hnext value).ok hresult⟩
  error h hkind := by
    rcases bind_eq_error.mp h with hfault | ⟨value, middle, hvalue, hfault⟩
    · exact bind_eq_error.mpr (.inl (hfirst.error hfault hkind))
    · exact bind_eq_error.mpr
        (.inr ⟨value, grow middle, hfirst.ok hvalue, (hnext value).error hfault hkind⟩)

theorem repeated {action : EStateM Fault σ α} (h : Stable grow action) (n : Nat) :
    Stable grow (SceneSet.repeated action n) := by
  induction n with
  | zero => exact pure []
  | succ n ih => exact h.bind fun first => ih.bind fun rest => pure (first :: rest)

/-- A reader that does the same in a buffer that goes on is stable. -/
theorem of_follows {tail : Bytes} {reader : Reader α} {stored : Bytes → Nat → α → Nat → Prop}
    (h : ∀ data start, (Walk.between data 0 data.length [] tail).Follows start id
      (stored data start) reader reader) : Stable (Cursor.grow tail) reader where
  ok {before value after} hrun := by
    obtain ⟨data, start, hstart, rfl⟩ := before.exists_within
    obtain ⟨stop, rfl, -, hinside, -, hagain⟩ := (h data start).of_ok (Nat.zero_le _) hstart hrun
    rw [← Walk.cursor_grow tail hstart, ← Walk.cursor_grow tail hinside]
    exact hagain hinside
  error {before fault after} hrun hkind := by
    obtain ⟨data, start, hstart, rfl⟩ := before.exists_within
    obtain ⟨stop, rfl, -, hinside, -, hagain⟩ := (h data start).of_error (Nat.zero_le _) hstart hrun
    obtain ⟨other, hmoved, hother⟩ := hagain (Nat.le_refl _) fun h => absurd h hkind
    rw [← Walk.cursor_grow tail hstart, ← Walk.cursor_grow tail hinside, hother]
    rw [Fault.Moved.eq_of_zero hmoved]

end Stable

end SceneSet
