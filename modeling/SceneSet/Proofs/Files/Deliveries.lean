import SceneSet.Proofs.Files.Creation

/-!
# Files that are put one after the other

`Tree.PlacedAll` says that some files are put where their paths lead, one after the other. In the
end each path holds what was put there last (`PlacedAll.holds_last`), a file elsewhere is as it was
(`PlacedAll.file?_other`), and the directories are those that were there and those on the ways
(`PlacedAll.directory_iff`).
-/

namespace SceneSet.Files.Tree

variable {tree before middle after : Tree} {place : Place} {path second : Path} {content : Bytes}
  {files others : List (Path × Bytes)}

/-- The content of the file at a place, if there is one. -/
def file? (tree : Tree) (place : Place) : Option Bytes :=
  match tree.node? place with
  | some (.file content) => some content
  | _ => none

theorem file?_eq_none (h : ∀ content, tree.node? place ≠ some (.file content)) :
    tree.file? place = none := by
  unfold file?
  split
  · rename_i content hnode
    exact absurd hnode (h content)
  · rfl

/-- Ways that do not meet in a tree do not meet in another one with the same working directory. -/
theorem Apart.congr (h : before.Apart path second) (hworking : after.working = before.working) :
    after.Apart path second where
  targets := by
    rw [target_congr hworking, target_congr hworking]
    exact h.targets
  firstFree := by
    rw [target_congr hworking, above_congr hworking]
    exact h.firstFree
  secondFree := by
    rw [target_congr hworking, above_congr hworking]
    exact h.secondFree

namespace Placed

/-- What is a file elsewhere, and with what content, is not changed. -/
theorem file?_of_ne (h : Placed path content before after) (hpath : before.Creatable path)
    (hplace : place ≠ before.target path) : after.file? place = before.file? place := by
  by_cases habove : place ∈ before.above path
  · rw [file?_eq_none (hpath.free place habove)]
    refine file?_eq_none fun content hfile => ?_
    rw [h.above habove] at hfile
    cases hfile
  · unfold file?
    rw [h.others hplace habove]

/-- The directories are those that were there and those on the way. -/
theorem directory_iff (h : Placed path content before after)
    (hplace : place ≠ before.target path) :
    after.node? place = some .directory ↔
      before.node? place = some .directory ∨ place ∈ before.above path := by
  by_cases habove : place ∈ before.above path
  · exact iff_of_true (h.above habove) (.inr habove)
  · rw [h.others hplace habove]
    exact (or_iff_left habove).symm

end Placed

/-- Files are put where their paths lead, one after the other. -/
inductive PlacedAll : List (Path × Bytes) → Tree → Tree → Prop where
  | nil (tree : Tree) : PlacedAll [] tree tree
  | cons {path : Path} {content : Bytes} {files : List (Path × Bytes)}
      {before middle after : Tree} : before.Creatable path → Placed path content before middle →
      PlacedAll files middle after → PlacedAll ((path, content) :: files) before after

namespace PlacedAll

theorem append (h : PlacedAll files before middle) (hothers : PlacedAll others middle after) :
    PlacedAll (files ++ others) before after := by
  induction h with
  | nil => exact hothers
  | cons hcreatable hplaced _ ih => exact .cons hcreatable hplaced (ih hothers)

theorem working (h : PlacedAll files before after) : after.working = before.working := by
  induction h with
  | nil => rfl
  | cons _ hplaced _ ih => exact ih.trans hplaced.working

/-- A file can be created where it could be before, if the ways do not meet. -/
theorem creatable (h : PlacedAll files before after) (hsecond : before.Creatable second)
    (hapart : ∀ file ∈ files, before.Apart file.1 second) : after.Creatable second := by
  induction h with
  | nil => exact hsecond
  | cons _ hplaced _ ih =>
      rw [List.forall_mem_cons] at hapart
      exact ih (hplaced.creatable hsecond hapart.1) fun file hfile =>
        (hapart.2 file hfile).congr hplaced.working

/-- A path leads to the file that it has led to, if no other one is put there. -/
theorem holds_other (h : PlacedAll files before after)
    (hfiles : ∀ file ∈ files, before.target second ≠ before.target file.1)
    (hold : before.Holds second content) : after.Holds second content := by
  induction h with
  | nil => exact hold
  | cons hcreatable hplaced _ ih =>
      rw [List.forall_mem_cons] at hfiles
      refine ih (fun file hfile => ?_) (hplaced.holds_other hcreatable hfiles.1 hold)
      rw [target_congr hplaced.working, target_congr hplaced.working]
      exact hfiles.2 file hfile

/-- In the end a path leads to the last file that was put there. -/
theorem holds_last (h : PlacedAll (files ++ (path, content) :: others) before after)
    (hothers : ∀ file ∈ others, before.target path ≠ before.target file.1) :
    after.Holds path content := by
  induction files generalizing before with
  | nil =>
      cases h with
      | cons hcreatable hplaced hrest =>
          refine hrest.holds_other (fun file hfile => ?_) (hplaced.holds hcreatable.admits)
          rw [target_congr hplaced.working, target_congr hplaced.working]
          exact hothers file hfile
  | cons first files ih =>
      cases h with
      | cons _ hplaced hrest =>
          refine ih hrest fun file hfile => ?_
          rw [target_congr hplaced.working, target_congr hplaced.working]
          exact hothers file hfile

/-- If no two ways meet, then each path leads to its file. -/
theorem holds (h : PlacedAll files before after)
    (hapart : files.Pairwise fun file other => before.Apart file.1 other.1) :
    ∀ file ∈ files, after.Holds file.1 file.2 := by
  intro file hfile
  obtain ⟨front, back, rfl⟩ := List.append_of_mem hfile
  refine h.holds_last fun other hother => ?_
  exact ((List.pairwise_cons.mp (List.pairwise_append.mp hapart).2.1).1 other hother).targets

/-- What is a file elsewhere, and with what content, is not changed. -/
theorem file?_other (h : PlacedAll files before after)
    (hplace : ∀ file ∈ files, place ≠ before.target file.1) :
    after.file? place = before.file? place := by
  induction h with
  | nil => rfl
  | cons hcreatable hplaced _ ih =>
      rw [List.forall_mem_cons] at hplace
      rw [ih, hplaced.file?_of_ne hcreatable hplace.1]
      intro file hfile
      rw [target_congr hplaced.working]
      exact hplace.2 file hfile

/-- The directories are those that were there and those on the ways. -/
theorem directory_iff (h : PlacedAll files before after)
    (hplace : ∀ file ∈ files, place ≠ before.target file.1) :
    after.node? place = some .directory ↔
      before.node? place = some .directory ∨ ∃ file ∈ files, place ∈ before.above file.1 := by
  induction h with
  | nil => simp
  | @cons path content files before middle after _ hplaced _ ih =>
      rw [List.forall_mem_cons] at hplace
      have hrest : ∀ file ∈ files, place ≠ middle.target file.1 := by
        intro file hfile
        rw [target_congr hplaced.working]
        exact hplace.2 file hfile
      rw [ih hrest, hplaced.directory_iff hplace.1]
      simp only [above_congr hplaced.working, List.mem_cons, exists_eq_or_imp, or_assoc]

end PlacedAll

end SceneSet.Files.Tree
