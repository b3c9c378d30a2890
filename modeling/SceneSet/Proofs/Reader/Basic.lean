import SceneSet.Bytes.Cursor
import Mathlib.Data.List.TakeWhile

/-!
# How chains of steps are taken apart

When a chain of two steps succeeds (`bind_eq_ok`) or fails (`bind_eq_error`), when checks without a
state pass (`except_bind_eq_ok`, `mapM_eq_ok`), and when a NUL is found (`Reader.untilNul_eq_ok`).
-/

namespace SceneSet

variable {ε σ α β : Type} {first : EStateM ε σ α} {next : α → EStateM ε σ β} {before after : σ}

/-- A step that has succeeded hands its value and the state on. -/
theorem bind_of_ok {middle : σ} {value : α} (h : first before = .ok value middle) :
    (first >>= next) before = next value middle := by
  show EStateM.bind first next before = _
  unfold EStateM.bind
  rw [h]

/-- A chain of two steps succeeds if both do. -/
theorem bind_eq_ok {result : β} :
    (first >>= next) before = .ok result after ↔
      ∃ value middle, first before = .ok value middle ∧ next value middle = .ok result after := by
  show EStateM.bind first next before = _ ↔ _
  unfold EStateM.bind
  cases first before with
  | ok value middle =>
      constructor
      · intro h
        exact ⟨value, middle, rfl, h⟩
      · rintro ⟨_, _, hfirst, h⟩
        cases hfirst
        exact h
  | error fault middle =>
      constructor
      · intro h
        cases h
      · rintro ⟨_, _, hfirst, _⟩
        cases hfirst

/-- A chain of two steps fails if the first does, or the second after it. -/
theorem bind_eq_error {fault : ε} :
    (first >>= next) before = .error fault after ↔
      first before = .error fault after ∨
      ∃ value middle, first before = .ok value middle ∧ next value middle = .error fault after := by
  show EStateM.bind first next before = _ ↔ _
  unfold EStateM.bind
  cases first before with
  | ok value middle =>
      constructor
      · intro h
        exact .inr ⟨value, middle, rfl, h⟩
      · rintro (hfirst | ⟨_, _, hfirst, h⟩)
        · cases hfirst
        · cases hfirst
          exact h
  | error fault middle =>
      constructor
      · intro h
        cases h
        exact .inl rfl
      · rintro (hfirst | ⟨_, _, hfirst, _⟩)
        · cases hfirst
          rfl
        · cases hfirst

/-- A chain of two checks passes if both do. -/
theorem except_bind_eq_ok {check : Except ε α} {further : α → Except ε β} {result : β} :
    (check >>= further) = .ok result ↔
      ∃ value, check = .ok value ∧ further value = .ok result := by
  cases check with
  | error fault =>
      constructor
      · intro h
        cases h
      · rintro ⟨_, hfirst, -⟩
        cases hfirst
  | ok value =>
      constructor
      · intro h
        exact ⟨value, rfl, h⟩
      · rintro ⟨_, hfirst, h⟩
        cases hfirst
        exact h

/-- Checks of all members of a list pass if each member is fit for them. -/
theorem mapM_eq_ok {check : α → Except ε β} {fits : α → Prop} {value : α → β}
    (hcheck : ∀ x y, check x = .ok y ↔ fits x ∧ y = value x) {xs : List α} {ys : List β} :
    xs.mapM check = .ok ys ↔ (∀ x ∈ xs, fits x) ∧ ys = xs.map value := by
  induction xs generalizing ys with
  | nil =>
      constructor
      · intro h
        cases h
        exact ⟨fun _ hx => absurd hx List.not_mem_nil, rfl⟩
      · rintro ⟨-, rfl⟩
        rfl
  | cons x xs ih =>
      simp only [List.mapM_cons, except_bind_eq_ok, hcheck, ih, List.forall_mem_cons]
      constructor
      · rintro ⟨_, ⟨hfits, rfl⟩, _, ⟨hothers, rfl⟩, h⟩
        cases h
        exact ⟨⟨hfits, hothers⟩, rfl⟩
      · rintro ⟨⟨hfits, hothers⟩, rfl⟩
        exact ⟨_, ⟨hfits, rfl⟩, _, ⟨hothers, rfl⟩, rfl⟩

/-- The text before a NUL is found just if there is a NUL, and the cursor stays. -/
theorem Reader.untilNul_eq_ok {cursor stop : Cursor} {name : Bytes} :
    Reader.untilNul cursor = .ok name stop ↔
      stop = cursor ∧ 0 ∉ name ∧ ∃ rest, cursor.rest = name ++ 0 :: rest := by
  unfold Reader.untilNul
  constructor
  · intro h
    split at h
    · cases h
    · rename_i byte rest hdrop
      cases h
      have hbyte : byte = 0 := by
        have := List.head?_dropWhile_not (· != 0) cursor.rest
        rw [hdrop] at this
        simpa using this
      subst hbyte
      refine ⟨rfl, ?_, rest, ?_⟩
      · intro hmem
        exact absurd (List.mem_takeWhile_imp hmem) (by decide)
      · rw [← hdrop, List.takeWhile_append_dropWhile]
  · rintro ⟨rfl, hname, rest, hrest⟩
    have hplain : ∀ byte ∈ name, (byte != 0) = true := by
      intro byte hbyte
      rw [bne_iff_ne]
      rintro rfl
      exact hname hbyte
    rw [hrest, List.dropWhile_append_of_pos hplain, List.takeWhile_append_of_pos hplain]
    simp

end SceneSet
