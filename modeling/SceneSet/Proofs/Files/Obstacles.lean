import SceneSet.Proofs.Files.Creation

/-!
# What stands in the way of a file

If a file cannot be created, then no file is written at all, and none is found where it should be
(`Action.create_of_not_creatable`). After a file has been put somewhere, another one can be created
just if it could be before, and neither of them has to be a directory for the other one
(`Tree.Placed.creatable_iff`).
-/

namespace SceneSet.Files

namespace Tree

variable {tree before after : Tree} {path second : Path} {content : Bytes}

/-- One of two files is where the other one needs a directory. -/
def Obstructs (tree : Tree) (path second : Path) : Prop :=
  tree.target path ∈ tree.above second ∨ tree.target second ∈ tree.above path

instance (tree : Tree) (path second : Path) : Decidable (tree.Obstructs path second) :=
  inferInstanceAs (Decidable (_ ∨ _))

/-- What can be created after a file has been put somewhere. -/
theorem Placed.creatable_iff (h : Placed path content before after)
    (hpath : before.Creatable path) :
    after.Creatable second ↔ before.Creatable second ∧ ¬ before.Obstructs path second := by
  rw [Obstructs, not_or]
  constructor
  · -- the new file must not be on the way, and its directories must not be at the target
    rintro ⟨hadmits, hfree, htarget, hapart⟩
    rw [above_congr h.working] at hfree hapart
    rw [target_congr h.working] at htarget hapart
    have hway : before.target path ∉ before.above second := fun hway =>
      hfree _ hway content h.target
    refine ⟨⟨hadmits, fun other hother old hold => ?_, fun hdirectory => ?_, hapart⟩, hway,
      fun hother => htarget (h.above hother)⟩
    · have hne : other ≠ before.target path := fun hne => hway (hne ▸ hother)
      exact hfree other hother old (h.file hpath hne hold)
    · by_cases habove : before.target second ∈ before.above path
      · exact htarget (h.above habove)
      · have hne : before.target second ≠ before.target path := fun hne =>
          hpath.target (hne ▸ hdirectory)
        exact htarget ((h.others hne habove).trans hdirectory)
  · rintro ⟨⟨hadmits, hfree, htarget, hapart⟩, hway, hother⟩
    refine ⟨hadmits, fun place hplace old hold => ?_, fun hdirectory => ?_, ?_⟩
    · rw [above_congr h.working] at hplace
      have hne : place ≠ before.target path := fun hne => hway (hne ▸ hplace)
      by_cases habove : place ∈ before.above path
      · rw [h.above habove] at hold
        cases hold
      · rw [h.others hne habove] at hold
        exact hfree place hplace old hold
    · rw [target_congr h.working] at hdirectory
      by_cases hsame : before.target second = before.target path
      · rw [hsame, h.target] at hdirectory
        cases hdirectory
      · rw [h.others hsame hother] at hdirectory
        exact htarget hdirectory
    · rw [target_congr h.working, above_congr h.working]
      exact hapart

/-- Directories that are made do not help to find a file that could not be created. -/
theorem Evolves.not_holds (h : Evolves (fun _ _ => False) before after)
    (hpath : ¬ before.Creatable path) : ¬ after.Holds path content := by
  rintro ⟨_, hresolve, hfile⟩
  obtain ⟨hadmits, hdirectories, rfl⟩ := resolve_eq_ok_iff.mp hresolve
  rw [above_congr h.working] at hdirectories
  rw [target_congr h.working] at hfile
  refine hpath ⟨hadmits, fun other hother old hold => ?_, fun hdirectory => ?_, fun habove => ?_⟩
  · -- a file that was there could not become a directory
    have hchange := h.changes other
    rw [hold, hdirectories other hother] at hchange
    cases hchange
  · rw [h.keeps.directories hdirectory] at hfile
    cases hfile
  · rw [hdirectories _ habove] at hfile
    cases hfile

end Tree

namespace Action

variable {tree : Tree} {path : Path}

/-- If a file cannot be created, then the attempt makes directories at most. -/
theorem create_of_not_creatable (h : tree.WellFormed) (hpath : ¬ tree.Creatable path)
    (content : Bytes) : ∃ failure after, create path content tree = .error failure after ∧
      Tree.Evolves (fun _ _ => False) tree after := by
  have hlasting : Tree.Lasting fun _ _ => False := fun _ _ _ _ hfalse => hfalse
  have hparents := moves_makeParents hlasting path tree h
  cases hrun : create path content tree with
  | ok value after => exact absurd ((create_eq_ok h).mp ⟨after, hrun⟩) hpath
  | error failure after =>
      refine ⟨failure, after, rfl, ?_⟩
      rcases bind_eq_error.mp hrun with hmake | ⟨_, made, hmake, hwrite⟩
      · rwa [hmake] at hparents
      · rw [hmake] at hparents
        -- a file that cannot be written changes nothing
        have hkept : after = made := by
          rw [write_eq] at hwrite
          split at hwrite
          · cases hwrite
            rfl
          · split at hwrite
            · cases hwrite
              rfl
            · cases hwrite
        rwa [hkept]

end Action

end SceneSet.Files
