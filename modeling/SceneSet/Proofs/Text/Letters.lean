import SceneSet.Text.Fold
import SceneSet.Text.Letters
import Mathlib.Tactic.ByContra

/-!
# Small letters of names and patterns

The small letters that patterns are compared in are those of all characters, while the keys of
members are made with the few that matter to names. The two agree on names, and no other text comes
out as one does: the full table of small letters extends the short one (`Letters.lower_extends`).
-/

namespace SceneSet

namespace Fold

/-- A character whose small letters are among the first 256 characters. -/
def Narrow (c : Char) : Prop := ∀ d ∈ lowerChar c, d.toNat < 256

/-- A way to make small letters that gives what `Fold.lower` gives where that is all among the first
256 characters, and elsewhere something that is not. -/
structure Extends (lower : List Char → List Char) : Prop where
  narrow : ∀ {text}, (∀ c ∈ text, Narrow c) → lower text = Fold.lower text
  wide : ∀ {text}, ¬ (∀ c ∈ text, Narrow c) → ∃ d ∈ lower text, 256 ≤ d.toNat

theorem Extends.refl : Extends Fold.lower where
  narrow _ := rfl
  wide {text} h := by
    simp only [Narrow, not_forall] at h
    obtain ⟨c, hc, d, hd, hlarge⟩ := h
    exact ⟨d, List.mem_flatMap.mpr ⟨c, hc, hd⟩, Nat.not_lt.mp hlarge⟩

theorem toNat_ofNat_le (n : Nat) : (Char.ofNat n).toNat ≤ n := by
  by_cases hvalid : n.isValidChar
  · have hchar : Char.ofNat n = Char.ofNatAux n hvalid := dif_pos hvalid
    rw [hchar]
    exact Nat.le_refl n
  · have hnul : Char.ofNat n = Char.ofNatAux 0 (.inl (by decide)) := dif_neg hvalid
    rw [hnul]
    exact Nat.zero_le n

/-- The first 256 characters have their small letters among them. -/
theorem narrow_of_lt {c : Char} (h : c.toNat < 256) : Narrow c := by
  intro d hd
  unfold lowerChar at hd
  dsimp only at hd
  have hle := toNat_ofNat_le (c.toNat + 0x20)
  split at hd
  · rw [List.mem_singleton.mp hd]
    omega
  split at hd
  · rw [List.mem_singleton.mp hd]
    omega
  iterate 5
    rw [if_neg (by omega)] at hd
  rw [List.mem_singleton.mp hd]
  exact h

/-- A text of the first 256 characters has the small letters of the same texts, whichever way they
are made. -/
theorem Extends.eq_iff {lower : List Char → List Char} (h : Extends lower) {text other : List Char}
    (htext : ∀ c ∈ text, c.toNat < 256) :
    lower text = lower other ↔ Fold.lower text = Fold.lower other := by
  have hnarrow : ∀ c ∈ text, Narrow c := fun c hc => narrow_of_lt (htext c hc)
  rw [h.narrow hnarrow]
  by_cases hother : ∀ c ∈ other, Narrow c
  · rw [h.narrow hother]
  · -- the other text has a small letter that this text has not, in both ways
    have hdiffers : ∀ letters : List Char, (∃ d ∈ letters, 256 ≤ d.toNat) →
        Fold.lower text ≠ letters := by
      rintro _ ⟨d, hd, hlarge⟩ rfl
      obtain ⟨c, hc, hmem⟩ := List.mem_flatMap.mp hd
      exact absurd (hnarrow c hc d hmem) (Nat.not_lt.mpr hlarge)
    exact iff_of_false (hdiffers _ (h.wide hother)) (hdiffers _ (Extends.refl.wide hother))

end Fold

namespace Letters

open Fold (Narrow)

/-- The few characters beyond the first 256 whose small letters are among those. -/
def narrowCapitals : List Nat := [0x178, 0x1e9e, 0x212a, 0x212b]

/-- Whether the small letters of all capitals of a run are characters beyond the first 256. -/
def Capitals.IsWide (run : Capitals) : Prop :=
  256 ≤ run.first + run.shift ∧
    (run.last + run.shift < 0xd800 ∨
      0xdfff < run.first + run.shift ∧ run.last + run.shift < 0x110000)

instance (run : Capitals) : Decidable run.IsWide :=
  inferInstanceAs (Decidable (_ ∧ _))

/-- A run is among the first 256 characters, or all of its small letters are beyond them, or it is
one of the few. -/
theorem capitals_sorted : ∀ run ∈ capitals, run.last < 256 ∨ run.IsWide ∨
    run.first = run.last ∧ run.first ∈ narrowCapitals := by
  decide +kernel

theorem small?_eq_some {run : Capitals} {n m : Nat} (h : run.small? n = some m) :
    run.first ≤ n ∧ n ≤ run.last ∧ m = (n + run.shift).toNat := by
  unfold Capitals.small? at h
  split at h
  · rename_i hrun
    exact ⟨hrun.1, hrun.2.1, (Option.some.inj h).symm⟩
  · cases h

theorem narrow_of_lowerChar {c small : Char} (h : Fold.lowerChar c = [small])
    (hsmall : small.toNat < 256) : Narrow c := by
  intro d hd
  rw [h] at hd
  rw [List.mem_singleton.mp hd]
  exact hsmall

theorem narrow_iff (c : Char) : Narrow c ↔ c.toNat < 256 ∨ c.toNat ∈ narrowCapitals := by
  constructor
  · intro h
    by_contra hwide
    simp only [narrowCapitals, List.mem_cons, List.not_mem_nil, or_false, not_or] at hwide
    by_cases hdotted : c.toNat = 0x130
    · have hlower : Fold.lowerChar c = ['i', '\u0307'] := by
        unfold Fold.lowerChar
        rw [hdotted]
        rfl
      exact absurd (h '\u0307' (by simp [hlower])) (by decide)
    · have hlower : Fold.lowerChar c = [c] := by
        unfold Fold.lowerChar
        dsimp only
        iterate 7
          rw [if_neg (by omega)]
      have hlt := h c (by simp [hlower])
      omega
  · rintro (h | h)
    · exact Fold.narrow_of_lt h
    · have hfew : c.toNat = 0x178 ∨ c.toNat = 0x1e9e ∨ c.toNat = 0x212a ∨ c.toNat = 0x212b := by
        simpa [narrowCapitals] using h
      rw [← Char.ofNat_toNat c]
      rcases hfew with hc | hc | hc | hc
      · rw [hc]
        exact @narrow_of_lowerChar _ '\u00ff' rfl (by decide)
      · rw [hc]
        exact @narrow_of_lowerChar _ '\u00df' rfl (by decide)
      · rw [hc]
        exact @narrow_of_lowerChar _ 'k' rfl (by decide)
      · rw [hc]
        exact @narrow_of_lowerChar _ '\u00e5' rfl (by decide)

/-- The small letters of the first 256 characters are told by the first three runs. -/
theorem findSome?_capitals {n : Nat} (h : n < 256) :
    capitals.findSome? (·.small? n) = (capitals.take 3).findSome? (·.small? n) := by
  have hlate : ∀ run ∈ capitals.drop 3, 256 ≤ run.first := by decide +kernel
  have hnone : (capitals.drop 3).findSome? (·.small? n) = none := by
    refine List.findSome?_eq_none_iff.mpr fun run hrun => if_neg fun hin => ?_
    exact absurd hin.1 (Nat.not_le.mpr (Nat.lt_of_lt_of_le h (hlate run hrun)))
  calc capitals.findSome? (·.small? n)
      = (capitals.take 3 ++ capitals.drop 3).findSome? (·.small? n) := by
        rw [List.take_append_drop]
    _ = (capitals.take 3).findSome? (·.small? n) := by
        rw [List.findSome?_append, hnone, Option.or_none]

/-- Both tables have the same small letters for the characters that are narrow. -/
theorem lowerChar_eq {c : Char} (h : Narrow c) : lowerChar c = Fold.lowerChar c := by
  rcases (narrow_iff c).mp h with hlow | hfew
  · have hruns : ∀ n < 256, ((capitals.take 3).findSome? (·.small? (Char.ofNat n).toNat)).elim
        [Char.ofNat n] (fun m => [Char.ofNat m]) = Fold.lowerChar (Char.ofNat n) := by
      decide +kernel
    have hdotted : c ≠ '\u0130' := by
      rintro rfl
      exact absurd hlow (by decide)
    have hlower := hruns c.toNat hlow
    rw [Char.ofNat_toNat, ← findSome?_capitals hlow] at hlower
    rw [lowerChar, if_neg hdotted, ← hlower]
    cases capitals.findSome? (·.small? c.toNat) <;> rfl
  · have hlower : ∀ n ∈ narrowCapitals,
        lowerChar (Char.ofNat n) = Fold.lowerChar (Char.ofNat n) := by
      decide +kernel
    have heq := hlower c.toNat hfew
    rwa [Char.ofNat_toNat] at heq

/-- The other characters have a small letter that is not narrow either. -/
theorem exists_le_of_not_narrow {c : Char} (h : ¬ Narrow c) : ∃ d ∈ lowerChar c, 256 ≤ d.toNat := by
  rw [narrow_iff] at h
  have hlarge : 256 ≤ c.toNat := Nat.not_lt.mp fun hlt => h (.inl hlt)
  unfold lowerChar
  split
  · exact ⟨'\u0307', by simp, by decide⟩
  · split
    · rename_i n hfound
      obtain ⟨run, hrun, hsmall⟩ := List.exists_of_findSome?_eq_some hfound
      obtain ⟨hfirst, hlast, rfl⟩ := small?_eq_some hsmall
      refine ⟨_, List.mem_singleton_self _, ?_⟩
      rcases capitals_sorted run hrun with hlow | hwide | ⟨hsingle, hnarrow⟩
      · omega
      · obtain ⟨hbound, hvalid⟩ := hwide
        have hisValid : ((c.toNat : Int) + run.shift).toNat.isValidChar := by
          unfold Nat.isValidChar
          omega
        rw [show Char.ofNat _ = Char.ofNatAux _ hisValid from dif_pos hisValid]
        show 256 ≤ ((c.toNat : Int) + run.shift).toNat
        omega
      · have hfew : c.toNat = run.first := by omega
        exact absurd (.inr (hfew ▸ hnarrow)) h
    · exact ⟨c, List.mem_singleton_self c, hlarge⟩

theorem lowerAfter_of_narrow {text : List Char} (h : ∀ c ∈ text, Narrow c) (before : List Char) :
    lowerAfter before text = Fold.lower text := by
  induction text generalizing before with
  | nil => rfl
  | cons c rest ih =>
      have hc : Narrow c := h c List.mem_cons_self
      have hsigma : c ≠ sigma := by
        rintro rfl
        exact absurd ((narrow_iff sigma).mp hc) (by decide)
      rw [lowerAfter, if_neg hsigma, lowerChar_eq hc,
        ih fun d hd => h d (List.mem_cons_of_mem c hd)]
      rfl

theorem exists_le_lowerAfter {text : List Char} {c : Char} (hmem : c ∈ text) (h : ¬ Narrow c)
    (before : List Char) : ∃ d ∈ lowerAfter before text, 256 ≤ d.toNat := by
  induction text generalizing before with
  | nil => cases hmem
  | cons first rest ih =>
      rw [lowerAfter]
      rcases List.mem_cons.mp hmem with rfl | hrest
      · split
        · refine ⟨_, List.mem_append_left _ (List.mem_singleton_self _), ?_⟩
          split <;> decide
        · obtain ⟨d, hd, hle⟩ := exists_le_of_not_narrow h
          exact ⟨d, List.mem_append_left _ hd, hle⟩
      · obtain ⟨d, hd, hle⟩ := ih hrest (first :: before)
        exact ⟨d, List.mem_append_right _ hd, hle⟩

/-- The full table of small letters can stand in for the short one. -/
theorem lower_extends : Fold.Extends lower where
  narrow h := lowerAfter_of_narrow h []
  wide h := by
    obtain ⟨c, hmem, hc⟩ : ∃ c, c ∈ _ ∧ ¬ Narrow c := by simpa using h
    exact exists_le_lowerAfter hmem hc []

end Letters

end SceneSet
