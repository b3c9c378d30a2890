import SceneSet.Proofs.Files.Growth

/-!
# Which files can be created

`Tree.Creatable` says of a tree and a path that a file can be put where the path leads: no file is
in the way, and there is no directory in its place. Making the directories above and writing the
file succeed in just these cases (`Action.create_eq_ok`), and `Tree.Placed` says what the tree is
then: the file is there, the directories above it are, and nothing else has changed.
-/

namespace SceneSet.Files

namespace Tree

variable {tree before after : Tree} {start place : Place} {places : List Place}
  {path second : Path} {components : List String} {content : Bytes}

/-! ### The way of a path -/

/-- The places that are left on the way through some components, the first one at the start. -/
def passed (start : Place) : List String → List Place
  | [] => []
  | component :: rest => start :: passed (step start component) rest

/-- The places of the directories on the way of a path. -/
def above (tree : Tree) (path : Path) : List Place := passed (tree.base path) path.components

/-- The place that a path leads to, if nothing is in the way. -/
def target (tree : Tree) (path : Path) : Place := path.components.foldl step (tree.base path)

theorem passed_concat (start : Place) (front : List String) (last : String) :
    passed start (front ++ [last]) = passed start front ++ [front.foldl step start] := by
  induction front generalizing start with
  | nil => rfl
  | cons component front ih =>
      show start :: passed _ (front ++ [last]) = start :: (passed _ front ++ _)
      rw [ih]
      rfl

theorem above_child (tree : Tree) (path : Path) {name : String} (hname : name ≠ "") :
    tree.above (path.child name) = tree.above path ++ [tree.target path] := by
  rw [Path.child, if_neg hname]
  exact passed_concat _ _ _

theorem target_child (tree : Tree) (path : Path) {name : String} (hname : name ≠ "") :
    tree.target (path.child name) = step (tree.target path) name := by
  rw [Path.child, if_neg hname]
  exact List.foldl_append

/-- Components can be walked through just if all places on the way are directories, and no
component is too long. -/
theorem walk_eq_ok : components.foldlM tree.enter start = .ok place ↔
    (∀ other ∈ passed start components, tree.node? other = some .directory) ∧
      (∀ component ∈ components, component.utf8ByteSize ≤ maxComponentSize) ∧
      place = components.foldl step start := by
  induction components generalizing start with
  | nil =>
      constructor
      · intro h
        cases h
        exact ⟨fun _ h => absurd h List.not_mem_nil, fun _ h => absurd h List.not_mem_nil, rfl⟩
      · intro h
        rw [h.2.2]
        rfl
  | cons component rest ih =>
      simp only [List.foldlM_cons, except_bind_eq_ok, enter_eq_ok, passed, List.forall_mem_cons,
        List.foldl_cons]
      constructor
      · rintro ⟨_, ⟨hdirectory, hsize, rfl⟩, hrest⟩
        obtain ⟨hdirectories, hsizes, hplace⟩ := ih.mp hrest
        exact ⟨⟨hdirectory, hdirectories⟩, ⟨hsize, hsizes⟩, hplace⟩
      · rintro ⟨⟨hdirectory, hdirectories⟩, ⟨hsize, hsizes⟩, hplace⟩
        exact ⟨_, ⟨hdirectory, hsize, rfl⟩, ih.mpr ⟨hdirectories, hsizes, hplace⟩⟩

/-- There is no file at some places. -/
def Free (tree : Tree) (places : List Place) : Prop :=
  ∀ place ∈ places, ∀ content, tree.node? place ≠ some (.file content)

/-- If no file is on the way but a directory is missing, then it is not found. -/
theorem walk_eq_notFound
    (hsizes : ∀ component ∈ components, component.utf8ByteSize ≤ maxComponentSize)
    (hfree : tree.Free (passed start components))
    (hmissing : ¬ ∀ other ∈ passed start components, tree.node? other = some .directory) :
    components.foldlM tree.enter start = .error .notFound := by
  induction components generalizing start with
  | nil => exact absurd (fun _ h => absurd h List.not_mem_nil) hmissing
  | cons component rest ih =>
      simp only [Free, passed, List.forall_mem_cons] at hsizes hfree hmissing
      rw [List.foldlM_cons]
      cases hnode : tree.node? start with
      | none =>
          have henter : tree.enter start component = .error .notFound := by
            unfold enter
            rw [hnode]
          rw [henter]
          rfl
      | some node =>
          cases node with
          | file content => exact absurd hnode (hfree.1 content)
          | directory =>
              have henter := enter_eq_ok.mpr ⟨hnode, hsizes.1, rfl⟩
              rw [henter]
              exact ih hsizes.2 hfree.2 fun h => hmissing ⟨hnode, h⟩

/-- What is needed of a path itself to be used: it is short enough, and so are its components. -/
structure Admits (path : Path) : Prop where
  usable : path.Usable
  sizes : ∀ component ∈ path.components, component.utf8ByteSize ≤ maxComponentSize

theorem Admits.of_concat {anchor : Anchor} {front : List String} {last : String}
    (h : Admits ⟨anchor, front ++ [last]⟩) : Admits ⟨anchor, front⟩ where
  usable := h.usable.of_concat
  sizes component hcomponent := h.sizes component (List.mem_append_left _ hcomponent)

/-- A path leads to its target just if all places on the way are directories. -/
theorem resolve_eq_ok_iff : tree.resolve path = .ok place ↔
    Admits path ∧ (∀ other ∈ tree.above path, tree.node? other = some .directory) ∧
      place = tree.target path := by
  rw [resolve_eq_ok, walk_eq_ok]
  constructor
  · rintro ⟨husable, hdirectories, hsizes, hplace⟩
    exact ⟨⟨husable, hsizes⟩, hdirectories, hplace⟩
  · rintro ⟨⟨husable, hsizes⟩, hdirectories, hplace⟩
    exact ⟨husable, hdirectories, hsizes, hplace⟩

/-- If no file is on the way of a path but a directory is missing, then it is not found. -/
theorem resolve_eq_notFound (hpath : Admits path) (hfree : tree.Free (tree.above path))
    (hmissing : ¬ ∀ other ∈ tree.above path, tree.node? other = some .directory) :
    tree.resolve path = .error .notFound := by
  unfold resolve
  rw [if_neg (Bool.eq_false_iff.mp hpath.usable.plain),
    if_neg (Nat.not_le.mpr hpath.usable.short)]
  exact walk_eq_notFound hpath.sizes hfree hmissing

/-- A path without NULs does not fail because of one. -/
theorem resolve_ne_embeddedNul (h : path.text.toList.contains '\x00' = false) :
    tree.resolve path ≠ .error .embeddedNul := by
  have henter : ∀ place component, tree.enter place component ≠ .error .embeddedNul := by
    intro place component
    unfold enter
    split
    · exact nofun
    · exact nofun
    · split <;> exact nofun
  have hwalk : ∀ start, path.components.foldlM tree.enter start ≠ .error .embeddedNul := by
    induction path.components with
    | nil => exact fun _ => nofun
    | cons component rest ih =>
        intro start
        rw [List.foldlM_cons]
        cases hstep : tree.enter start component with
        | error cause =>
            intro hcause
            cases hcause
            exact henter start component hstep
        | ok place => exact ih place
  unfold resolve
  rw [if_neg (Bool.eq_false_iff.mp h)]
  split
  · exact nofun
  · exact hwalk _

/-- Places are named alike by trees with the same working directory. -/
theorem base_congr (h : after.working = before.working) (path : Path) :
    after.base path = before.base path := by
  unfold base
  rw [h]

theorem above_congr (h : after.working = before.working) (path : Path) :
    after.above path = before.above path := by
  rw [above, above, base_congr h]

theorem target_congr (h : after.working = before.working) (path : Path) :
    after.target path = before.target path := by
  rw [target, target, base_congr h]

/-! ### Directories that are made -/

/-- Directories are made at some places, where there are none yet, and nothing else is changed. -/
structure Made (places : List Place) (before after : Tree) : Prop where
  working : after.working = before.working
  made : ∀ {place}, place ∈ places → after.node? place = some .directory
  others : ∀ {place}, place ∉ places → after.node? place = before.node? place

namespace Made

/-- Nothing needs to be made. -/
theorem refl (h : ∀ place ∈ places, tree.node? place = some .directory) :
    Made places tree tree := ⟨rfl, fun hplace => h _ hplace, fun _ => rfl⟩

/-- One more directory is made after the others, unless it is there already. -/
theorem concat {last : Place} (h : Made places before after) (hfree : before.Free [last]) :
    Made (places ++ [last]) before
      (if after.node? last = none then after.put last .directory else after) := by
  by_cases hnone : after.node? last = none
  · rw [if_pos hnone]
    have hnil : last ≠ [] := ne_nil_of_not_directory (by rw [hnone]; exact nofun)
    refine ⟨h.working, fun {place} hplace => ?_, fun {place} hplace => ?_⟩
    · by_cases heq : place = last
      · rw [heq]
        exact node?_put_self hnil
      · rw [node?_put_of_ne heq]
        exact h.made ((List.mem_append.mp hplace).resolve_right
          fun hother => heq (List.mem_singleton.mp hother))
    · rw [List.mem_append, List.mem_singleton, not_or] at hplace
      rw [node?_put_of_ne hplace.2]
      exact h.others hplace.1
  · rw [if_neg hnone]
    refine ⟨h.working, fun {place} hplace => ?_, fun {place} hplace => ?_⟩
    · by_cases hmem : place ∈ places
      · exact h.made hmem
      · have hlast : place = last :=
          List.mem_singleton.mp ((List.mem_append.mp hplace).resolve_left hmem)
        subst hlast
        have hsame := h.others hmem
        cases hnode : before.node? place with
        | none => exact absurd (hsame.trans hnode) hnone
        | some node =>
            cases node with
            | directory => exact hsame.trans hnode
            | file content => exact absurd hnode (hfree place List.mem_cons_self content)
    · exact h.others fun hother => hplace (List.mem_append_left _ hother)

/-- A path leads to its target when the directories on its way have been made. -/
theorem resolve (h : Made (before.above path) before after) (hpath : Admits path) :
    after.resolve path = .ok (before.target path) := by
  refine resolve_eq_ok_iff.mpr ⟨hpath, ?_, (target_congr h.working path).symm⟩
  rw [above_congr h.working]
  exact fun _ hother => h.made hother

end Made

/-! ### Files that can be created -/

/-- A file can be put where a path leads: the path can be used, nothing on its way is a file, and
its target is neither a directory nor on its way. -/
structure Creatable (tree : Tree) (path : Path) : Prop where
  admits : Admits path
  free : tree.Free (tree.above path)
  target : tree.node? (tree.target path) ≠ some .directory
  apart : tree.target path ∉ tree.above path

/-- A file is put where a path leads, directories are made above it where there are none yet, and
nothing else is changed. -/
structure Placed (path : Path) (content : Bytes) (before after : Tree) : Prop where
  working : after.working = before.working
  target : after.node? (before.target path) = some (.file content)
  above : ∀ {place}, place ∈ before.above path → after.node? place = some .directory
  others : ∀ {place}, place ≠ before.target path → place ∉ before.above path →
    after.node? place = before.node? place

/-- A path leads to a file with this content. -/
def Holds (tree : Tree) (path : Path) (content : Bytes) : Prop :=
  ∃ place, tree.resolve path = .ok place ∧ tree.node? place = some (.file content)

/-- The ways of two paths do not meet: neither target is that of the other path or on its way. -/
structure Apart (tree : Tree) (path second : Path) : Prop where
  targets : tree.target path ≠ tree.target second
  firstFree : tree.target second ∉ tree.above path
  secondFree : tree.target path ∉ tree.above second

namespace Placed

/-- The path leads to the new file. -/
theorem holds (h : Placed path content before after) (hpath : Admits path) :
    after.Holds path content := by
  refine ⟨before.target path, resolve_eq_ok_iff.mpr ⟨hpath, ?_, ?_⟩, h.target⟩
  · rw [above_congr h.working]
    exact fun _ hother => h.above hother
  · exact (target_congr h.working path).symm

/-- A file that was there stays, if it is not the one that is replaced. -/
theorem file (h : Placed path content before after) (hpath : before.Creatable path)
    (hplace : place ≠ before.target path) {old : Bytes}
    (hold : before.node? place = some (.file old)) : after.node? place = some (.file old) := by
  rw [h.others hplace fun habove => hpath.free place habove old hold, hold]

/-- A path that goes another way leads to the file that it has led to. -/
theorem holds_other (h : Placed path content before after) (hpath : before.Creatable path)
    (hplace : before.target second ≠ before.target path) {old : Bytes}
    (hold : before.Holds second old) : after.Holds second old := by
  obtain ⟨place, hresolve, hnode⟩ := hold
  obtain ⟨hadmits, hdirectories, rfl⟩ := resolve_eq_ok_iff.mp hresolve
  refine ⟨_, resolve_eq_ok_iff.mpr ⟨hadmits, ?_, (target_congr h.working second).symm⟩,
    h.file hpath hplace hnode⟩
  rw [above_congr h.working]
  intro other hother
  by_cases habove : other ∈ before.above path
  · exact h.above habove
  · by_cases htarget : other = before.target path
    · exact absurd (htarget ▸ hdirectories other hother) hpath.target
    · rw [h.others htarget habove]
      exact hdirectories other hother

/-- A file can be created where it could be before, if the ways do not meet. -/
theorem creatable (h : Placed path content before after) (hsecond : before.Creatable second)
    (hapart : before.Apart path second) : after.Creatable second where
  admits := hsecond.admits
  free other hother old hold := by
    rw [above_congr h.working] at hother
    by_cases habove : other ∈ before.above path
    · rw [h.above habove] at hold
      cases hold
    · by_cases htarget : other = before.target path
      · exact hapart.secondFree (htarget ▸ hother)
      · rw [h.others htarget habove] at hold
        exact hsecond.free other hother old hold
  target := by
    rw [target_congr h.working, h.others hapart.targets.symm hapart.firstFree]
    exact hsecond.target
  apart := by
    rw [target_congr h.working, above_congr h.working]
    exact hsecond.apart

end Placed

end Tree

namespace Action

open Files.Tree (Admits Creatable Made Placed)

variable {tree after : Tree} {path : Path} {content : Bytes}

/-- The content of a file is read just if the path leads to it. -/
theorem read_eq_ok : read path tree = .ok content after ↔ after = tree ∧ tree.Holds path content := by
  rw [read_eq]
  unfold Tree.Holds
  cases tree.resolve path with
  | error cause =>
      constructor
      · intro h
        cases h
      · rintro ⟨-, _, h, -⟩
        cases h
  | ok place =>
      dsimp only
      constructor
      · intro h
        split at h
        · rename_i hnode
          cases h
          exact ⟨rfl, place, rfl, hnode⟩
        · cases h
        · cases h
      · rintro ⟨rfl, _, h, hnode⟩
        cases h
        rw [hnode]

/-- When the directories above have been made, the last one is, unless it is there too. -/
theorem ensureDirectory_of_made {made : Tree} (hpath : Admits path)
    (hmade : Made (tree.above path) tree made) (hfree : tree.Free [tree.target path]) :
    ∃ after, ensureDirectory path made = .ok () after ∧
      Made (tree.above path ++ [tree.target path]) tree after := by
  refine ⟨_, ?_, hmade.concat hfree⟩
  have hresolve : made.resolve path = .ok (tree.target path) := hmade.resolve hpath
  unfold ensureDirectory
  rw [makeDirectory_eq, hresolve]
  dsimp only
  cases hnode : made.node? (tree.target path) with
  | none => rfl
  | some node =>
      rw [if_neg nofun]
      dsimp only
      rw [if_pos]
      refine Tree.isDirectory_eq_true.mpr ⟨_, hresolve, ?_⟩
      -- what is there cannot be a file
      have hsame := (hmade.concat hfree).made (List.mem_append_right _ List.mem_cons_self)
      rwa [hnode, if_neg nofun] at hsame

/-- If a directory above is missing, the last one cannot be made yet. -/
theorem ensureDirectory_notFound (hpath : Admits path) (hfree : tree.Free (tree.above path))
    (hmissing : ¬ ∀ other ∈ tree.above path, tree.node? other = some .directory) :
    ensureDirectory path tree = .error ⟨.notFound, path⟩ tree := by
  have hresolve := Tree.resolve_eq_notFound hpath hfree hmissing
  unfold ensureDirectory Tree.isDirectory
  rw [makeDirectory_eq, hresolve]
  dsimp only
  rw [hresolve]
  exact if_neg nofun

/-- All directories on a way without files are made. The induction is on the directories above,
which are made first if one of them is missing. -/
theorem ensureDirectories_made (anchor : Anchor) (components : List String)
    (hpath : Admits ⟨anchor, components.reverse⟩)
    (hfree : tree.Free (tree.above ⟨anchor, components.reverse⟩ ++
      [tree.target ⟨anchor, components.reverse⟩])) :
    ∃ after, ensureDirectories anchor components tree = .ok () after ∧
      Made (tree.above ⟨anchor, components.reverse⟩ ++
        [tree.target ⟨anchor, components.reverse⟩]) tree after := by
  induction components with
  | nil =>
      have hnothing : Made (tree.above ⟨anchor, []⟩) tree tree :=
        .refl fun _ hother => absurd hother List.not_mem_nil
      exact ensureDirectory_of_made hpath hnothing hfree
  | cons last front ih =>
      rw [List.reverse_cons] at hpath hfree ⊢
      have habove : tree.above ⟨anchor, front.reverse ++ [last]⟩ =
          tree.above ⟨anchor, front.reverse⟩ ++ [tree.target ⟨anchor, front.reverse⟩] :=
        Tree.passed_concat _ _ _
      rw [← habove] at ih
      have hfreeAbove : tree.Free (tree.above ⟨anchor, front.reverse ++ [last]⟩) :=
        fun other hother => hfree other (List.mem_append_left _ hother)
      have hfreeLast : tree.Free [tree.target ⟨anchor, front.reverse ++ [last]⟩] :=
        fun other hother => hfree other (List.mem_append_right _ hother)
      unfold ensureDirectories
      rw [List.reverse_cons]
      dsimp only
      by_cases hall : ∀ other ∈ tree.above ⟨anchor, front.reverse ++ [last]⟩,
          tree.node? other = some .directory
      · -- only the last directory may be missing
        obtain ⟨after, hrun, hmade⟩ := ensureDirectory_of_made hpath (.refl hall) hfreeLast
        rw [hrun]
        exact ⟨after, rfl, hmade⟩
      · -- the directories above are made first
        obtain ⟨made, hrunAbove, hmadeAbove⟩ := ih hpath.of_concat hfreeAbove
        obtain ⟨after, hrun, hmade⟩ := ensureDirectory_of_made hpath hmadeAbove hfreeLast
        rw [ensureDirectory_notFound hpath hfreeAbove hall]
        exact ⟨after, bind_eq_ok.mpr ⟨(), made, hrunAbove, hrun⟩, hmade⟩

/-- A file that is written after its directories have been made. -/
def create (path : Path) (content : Bytes) : Action Unit := do
  makeParents path
  write path content

/-- When the directories above have been made, a file is written. -/
theorem write_of_made {made : Tree} (hpath : tree.Creatable path)
    (hmade : Made (tree.above path) tree made) (content : Bytes) :
    ∃ after, write path content made = .ok () after ∧ Placed path content tree after := by
  have hresolve : made.resolve path = .ok (tree.target path) := hmade.resolve hpath.admits
  have htarget : made.node? (tree.target path) ≠ some .directory := by
    rw [hmade.others hpath.apart]
    exact hpath.target
  refine ⟨made.put (tree.target path) (.file content), ?_, hmade.working,
    Tree.node?_put_self (Tree.ne_nil_of_not_directory htarget), fun {place} hplace => ?_,
    fun {place} hother hplace => ?_⟩
  · rw [write_eq, hresolve]
    dsimp only
    split
    · rename_i hdirectory
      exact absurd hdirectory htarget
    · rfl
  · rw [Tree.node?_put_of_ne, hmade.made hplace]
    rintro rfl
    exact hpath.apart hplace
  · rw [Tree.node?_put_of_ne hother, hmade.others hplace]

/-- A file that can be created is put where its path leads. -/
theorem create_of_creatable (h : tree.WellFormed) (hpath : tree.Creatable path) (content : Bytes) :
    ∃ after, create path content tree = .ok () after ∧ Placed path content tree after := by
  have hmake : ∃ made, makeParents path tree = .ok () made ∧ Made (tree.above path) tree made := by
    obtain ⟨anchor, components⟩ := path
    rcases List.eq_nil_or_concat components with rfl | ⟨front, last, hconcat⟩
    · -- the target of a path without components is a directory
      exact absurd (h.base _) hpath.target
    · rw [List.concat_eq_append] at hconcat
      subst hconcat
      have habove : tree.above ⟨anchor, front ++ [last]⟩ =
          tree.above ⟨anchor, front⟩ ++ [tree.target ⟨anchor, front⟩] := Tree.passed_concat _ _ _
      have hmake := @ensureDirectories_made tree anchor front.reverse
      rw [List.reverse_reverse, ← habove] at hmake
      unfold makeParents Path.parent
      rw [List.dropLast_concat]
      exact hmake hpath.admits.of_concat hpath.free
  obtain ⟨made, hparents, hmade⟩ := hmake
  obtain ⟨after, hwrite, hplaced⟩ := write_of_made hpath hmade content
  exact ⟨after, bind_eq_ok.mpr ⟨(), made, hparents, hwrite⟩, hplaced⟩

/-- Making directories changes nothing that is there. -/
theorem evolves_of_makeParents {made : Tree} (h : tree.WellFormed)
    (hrun : makeParents path tree = .ok () made) : Tree.Evolves (fun _ _ => False) tree made := by
  have hlasting : Tree.Lasting fun _ _ => False := fun _ _ _ _ hfalse => hfalse
  have hmoves := moves_makeParents hlasting path tree h
  rwa [hrun] at hmoves

/-- Files are created just where they can be. -/
theorem create_eq_ok (h : tree.WellFormed) :
    (∃ after, create path content tree = .ok () after) ↔ tree.Creatable path := by
  constructor
  · rintro ⟨after, hrun⟩
    obtain ⟨_, made, hparents, hwrite⟩ := bind_eq_ok.mp hrun
    have hevolves := evolves_of_makeParents h hparents
    rw [write_eq] at hwrite
    cases hresolve : made.resolve path with
    | error cause =>
        rw [hresolve] at hwrite
        cases hwrite
    | ok place =>
        obtain ⟨hadmits, hdirectories, rfl⟩ := Tree.resolve_eq_ok_iff.mp hresolve
        have hfile : made.node? (made.target path) ≠ some .directory := by
          intro hdirectory
          rw [hresolve] at hwrite
          dsimp only at hwrite
          rw [hdirectory] at hwrite
          cases hwrite
        rw [Tree.above_congr hevolves.working] at hdirectories
        rw [Tree.target_congr hevolves.working] at hfile
        refine ⟨hadmits, fun other hother old hold => ?_, fun hdirectory => ?_, fun habove => ?_⟩
        · have hchange := hevolves.changes other
          rw [hold, hdirectories other hother] at hchange
          cases hchange
        · exact hfile (hevolves.keeps.directories hdirectory)
        · exact hfile (hdirectories _ habove)
  · intro hpath
    obtain ⟨after, hrun, -⟩ := create_of_creatable h hpath content
    exact ⟨after, hrun⟩

/-- A file can be created if an attempt succeeds. -/
theorem creatable_of_value? (h : tree.WellFormed)
    (hrun : value? (create path content tree) = some ()) : tree.Creatable path :=
  (create_eq_ok h).mp ⟨_, eq_ok_of_value? hrun⟩

/-- What is known when a file has been created. -/
theorem placed_of_create (h : tree.WellFormed) (hrun : create path content tree = .ok () after) :
    tree.Creatable path ∧ Placed path content tree after ∧ after.WellFormed := by
  have hpath := (create_eq_ok h).mp ⟨after, hrun⟩
  obtain ⟨_, hsame, hplaced⟩ := create_of_creatable h hpath content
  rw [hrun] at hsame
  cases hsame
  obtain ⟨_, made, hparents, hwrite⟩ := bind_eq_ok.mp hrun
  have hformed := moves_write path content made (evolves_of_makeParents h hparents).formed
  rw [hwrite] at hformed
  exact ⟨hpath, hplaced, hformed.formed⟩

end Action

end SceneSet.Files
