import SceneSet.Files.Tree
import SceneSet.Proofs.Reader.Basic

/-!
# How actions change trees

In a well-formed tree everything lies in a directory. An action keeps a tree well-formed, whether it
succeeds or fails, and a directory that is there stays there. So a path that has led somewhere goes
on leading there (`Tree.Keeps.resolve`), and what is known of the paths that files are written to
can be carried to the end of a run. `Tree.Evolves` collects what a run does to a tree, and `Moves`
says that a step does no more than that.
-/

namespace SceneSet

section Steps

variable {ε σ α β : Type}

/-- The state that a step ends in, with a value or with an error. -/
def endState : EStateM.Result ε σ α → σ
  | .ok _ after => after
  | .error _ after => after

/-- The value that a step gives, if it succeeds. -/
def value? : EStateM.Result ε σ α → Option α
  | .ok value _ => some value
  | .error _ _ => none

theorem eq_ok_of_value? {result : EStateM.Result ε σ α} {value : α}
    (h : value? result = some value) : result = .ok value (endState result) := by
  cases result with
  | ok _ after =>
      cases h
      rfl
  | error _ after => cases h

/-- Wherever a step starts, the state that it ends in is in this relation to it. -/
def Moves (relation : σ → σ → Prop) (step : EStateM ε σ α) : Prop :=
  ∀ before, relation before (endState (step before))

variable {relation : σ → σ → Prop}

theorem Moves.bind {first : EStateM ε σ α} {next : α → EStateM ε σ β}
    (hfirst : Moves relation first)
    (trans : ∀ before middle after, relation before middle → relation middle after →
      relation before after) (hnext : ∀ value, Moves relation (next value)) :
    Moves relation (first >>= next) := by
  intro before
  have hbefore := hfirst before
  show relation before (endState (EStateM.bind first next before))
  unfold EStateM.bind
  cases hrun : first before with
  | ok value middle =>
      rw [hrun] at hbefore
      exact trans _ _ _ hbefore (hnext value middle)
  | error error middle =>
      rw [hrun] at hbefore
      exact hbefore

end Steps

namespace Files

namespace Path

/-- The text of a path is short enough, and free of NULs. -/
structure Usable (path : Path) : Prop where
  plain : path.text.toList.contains '\x00' = false
  short : path.text.utf8ByteSize < pathSizeLimit

/-- The text of a path goes on when a component is added, but for the single dot. -/
theorem text_concat (anchor : Anchor) (above : List String) (last : String) :
    text ⟨anchor, above⟩ = "." ∨
      ∃ rest, text ⟨anchor, above ++ [last]⟩ = text ⟨anchor, above⟩ ++ rest := by
  have hconcat : text ⟨anchor, above ++ [last]⟩ =
      Anchor.text anchor ++ String.intercalate "/" (above ++ [last]) := by
    rw [text, if_neg]
    rintro ⟨-, hnone⟩
    exact absurd hnone (List.append_ne_nil_of_right_ne_nil _ (List.cons_ne_nil last []))
  by_cases hdot : anchor = .working ∧ above = []
  · exact .inl (if_pos hdot)
  · refine .inr ?_
    rw [hconcat, text, if_neg hdot]
    by_cases hnone : above = []
    · refine ⟨last, ?_⟩
      rw [hnone, List.nil_append, String.intercalate_singleton, String.intercalate_nil,
        String.append_empty]
    · refine ⟨"/" ++ last, ?_⟩
      rw [String.intercalate_append_of_ne_nil hnone (List.cons_ne_nil last []),
        String.intercalate_singleton]
      simp only [String.append_assoc]

/-- A path can be used only if the path without its last component can. -/
theorem Usable.of_concat {anchor : Anchor} {above : List String} {last : String}
    (h : Usable ⟨anchor, above ++ [last]⟩) : Usable ⟨anchor, above⟩ := by
  obtain ⟨hplain, hshort⟩ := h
  rcases text_concat anchor above last with hdot | ⟨rest, hrest⟩
  · constructor <;> rw [hdot] <;> decide
  · rw [hrest] at hplain hshort
    rw [String.toList_append, List.contains_append, Bool.or_eq_false_iff] at hplain
    rw [String.utf8ByteSize_append] at hshort
    exact ⟨hplain.1, Nat.lt_of_le_of_lt (Nat.le_add_right ..) hshort⟩

/-- A path to something in a directory can be used only if that to the directory can. -/
theorem Usable.of_child {path : Path} {name : String} (hname : name ≠ "")
    (h : (path.child name).Usable) : path.Usable := by
  rw [child, if_neg hname] at h
  exact h.of_concat

end Path

namespace Tree

variable {tree before middle after : Tree} {place other : Place} {node : Node} {path : Path}
  {component : String}

/-! ### What paths lead to -/

/-- A place is left through a component just if it is a directory, and the component is not too
long. -/
theorem enter_eq_ok {next : Place} : tree.enter place component = .ok next ↔
    tree.node? place = some .directory ∧ component.utf8ByteSize ≤ maxComponentSize ∧
      next = step place component := by
  unfold enter
  constructor
  · intro h
    split at h
    · cases h
    · cases h
    · rename_i hdirectory
      split at h
      · cases h
      · rename_i hsize
        cases h
        exact ⟨hdirectory, Nat.not_lt.mp hsize, rfl⟩
  · rintro ⟨hdirectory, hsize, rfl⟩
    rw [hdirectory]
    exact if_neg (Nat.not_lt.mpr hsize)

/-- A path leads to a place just if it can be used, and one component after the other can be
entered. -/
theorem resolve_eq_ok : tree.resolve path = .ok place ↔
    path.Usable ∧ path.components.foldlM tree.enter (tree.base path) = .ok place := by
  unfold resolve
  constructor
  · intro h
    split at h
    · cases h
    · rename_i hplain
      split at h
      · cases h
      · rename_i hshort
        exact ⟨⟨Bool.eq_false_iff.mpr hplain, Nat.not_le.mp hshort⟩, h⟩
  · rintro ⟨⟨hplain, hshort⟩, h⟩
    rw [if_neg (Bool.eq_false_iff.mp hplain), if_neg (Nat.not_le.mpr hshort), h]

/-- The last component of a path is entered from the directory that those before it lead to. -/
theorem walk_concat {start : Place} {above : List String} {last : String} :
    (above ++ [last]).foldlM tree.enter start = .ok place ↔
      ∃ parent, above.foldlM tree.enter start = .ok parent ∧
        tree.enter parent last = .ok place := by
  rw [List.foldlM_append, except_bind_eq_ok]
  simp only [List.foldlM_cons, List.foldlM_nil, bind_pure]

/-- What a path leads to through a last component is one step from where it leads without. -/
theorem resolve_child (hname : component ≠ "")
    (h : tree.resolve (path.child component) = .ok place) :
    ∃ parent, tree.resolve path = .ok parent ∧ tree.node? parent = some .directory ∧
      place = step parent component := by
  obtain ⟨husable, hwalk⟩ := resolve_eq_ok.mp h
  have hcomponents : (path.child component).components = path.components ++ [component] := by
    rw [Path.child, if_neg hname]
  have hbase : tree.base (path.child component) = tree.base path := by
    rw [Path.child, if_neg hname]
    rfl
  rw [hcomponents, hbase] at hwalk
  obtain ⟨parent, hparent, henter⟩ := walk_concat.mp hwalk
  obtain ⟨hdirectory, -, hplace⟩ := enter_eq_ok.mp henter
  exact ⟨parent, resolve_eq_ok.mpr ⟨husable.of_child hname, hparent⟩, hdirectory, hplace⟩

/-- Whether a path leads to a directory. -/
theorem isDirectory_eq_true : tree.isDirectory path = true ↔
    ∃ place, tree.resolve path = .ok place ∧ tree.node? place = some .directory := by
  unfold isDirectory
  cases tree.resolve path with
  | error cause =>
      constructor
      · intro h
        cases h
      · rintro ⟨_, hplace, -⟩
        cases hplace
  | ok place =>
      constructor
      · intro h
        exact ⟨place, rfl, eq_of_beq h⟩
      · rintro ⟨_, hplace, h⟩
        cases hplace
        exact beq_iff_eq.mpr h

/-! ### Later trees -/

/-- A later tree of a run: the working directory is the same, and no directory is lost. -/
structure Keeps (before after : Tree) : Prop where
  working : after.working = before.working
  directories : ∀ {place}, before.node? place = some .directory →
    after.node? place = some .directory

namespace Keeps

theorem walk (h : before.Keeps after) {components : List String} {start : Place}
    (hwalk : components.foldlM before.enter start = .ok place) :
    components.foldlM after.enter start = .ok place := by
  induction components generalizing start with
  | nil => exact hwalk
  | cons component rest ih =>
      rw [List.foldlM_cons, except_bind_eq_ok] at hwalk ⊢
      obtain ⟨next, hnext, hrest⟩ := hwalk
      obtain ⟨hdirectory, hsize, hplace⟩ := enter_eq_ok.mp hnext
      exact ⟨next, enter_eq_ok.mpr ⟨h.directories hdirectory, hsize, hplace⟩, ih hrest⟩

/-- A path goes on leading where it has led. -/
theorem resolve (h : before.Keeps after) (hplace : before.resolve path = .ok place) :
    after.resolve path = .ok place := by
  obtain ⟨husable, hwalk⟩ := resolve_eq_ok.mp hplace
  have hbase : after.base path = before.base path := by
    unfold base
    rw [h.working]
  exact resolve_eq_ok.mpr ⟨husable, hbase ▸ h.walk hwalk⟩

/-- A path that leads to something else in the end did not lead to a directory before. -/
theorem isDirectory_eq_false (h : before.Keeps after) (hplace : after.resolve path = .ok place)
    (hother : after.node? place ≠ some .directory) : before.isDirectory path = false := by
  refine Bool.eq_false_iff.mpr fun hpath => ?_
  obtain ⟨first, hfirst, hdirectory⟩ := isDirectory_eq_true.mp hpath
  have hsame : Except.ok first = Except.ok place := (h.resolve hfirst).symm.trans hplace
  cases hsame
  exact hother (h.directories hdirectory)

end Keeps

/-! ### Well-formed trees -/

/-- The working directory is there, and everything lies in a directory. -/
structure WellFormed (tree : Tree) : Prop where
  working : tree.node? tree.working = some .directory
  parents : ∀ {place node}, tree.node? place = some node →
    tree.node? place.dropLast = some .directory

namespace WellFormed

/-- It is enough to look at the nodes that are listed. -/
theorem of_nodes (hworking : tree.node? tree.working = some .directory)
    (hnodes : ∀ entry ∈ tree.nodes, tree.node? entry.1.dropLast = some .directory) :
    tree.WellFormed where
  working := hworking
  parents {place node} h := by
    cases place with
    | nil => rfl
    | cons component rest =>
        obtain ⟨before, after, hsplit, -⟩ := List.lookup_eq_some_iff.mp h
        exact hnodes (component :: rest, node) (hsplit ▸ List.mem_append_cons_self)

/-- Where a path begins, there is a directory. -/
theorem base (h : tree.WellFormed) (path : Path) :
    tree.node? (tree.base path) = some .directory := by
  unfold Tree.base
  split
  · exact h.working
  · rfl

/-- Whatever a path leads to lies in a directory. -/
theorem parent_of_resolve (h : tree.WellFormed) (hplace : tree.resolve path = .ok place) :
    tree.node? place.dropLast = some .directory := by
  obtain ⟨-, hwalk⟩ := resolve_eq_ok.mp hplace
  rcases List.eq_nil_or_concat path.components with hnone | ⟨above, last, hlast⟩
  · rw [hnone] at hwalk
    cases hwalk
    exact h.parents (h.base path)
  · rw [hlast, List.concat_eq_append] at hwalk
    obtain ⟨parent, -, henter⟩ := walk_concat.mp hwalk
    obtain ⟨hdirectory, -, rfl⟩ := enter_eq_ok.mp henter
    unfold step
    split
    · exact h.parents (h.parents hdirectory)
    · rw [List.dropLast_concat]
      exact hdirectory

/-- One step up is a directory. -/
theorem directory_of_resolve_up (h : tree.WellFormed)
    (hplace : tree.resolve (path.child "..") = .ok place) :
    tree.node? place = some .directory := by
  obtain ⟨parent, -, hdirectory, rfl⟩ := resolve_child (by decide) hplace
  exact h.parents hdirectory

end WellFormed

/-! ### Putting a node somewhere -/

/-- What is taken from a list of nodes is no longer found there, and nothing else is lost. -/
theorem lookup_filter_ne {nodes : List (Place × Node)} (h : other ≠ place) :
    (nodes.filter fun entry => entry.1 != place).lookup other = nodes.lookup other := by
  induction nodes with
  | nil => rfl
  | cons entry rest ih =>
      obtain ⟨key, node⟩ := entry
      by_cases hkey : key = place
      · subst hkey
        rw [List.filter_cons_of_neg (by simp), ih, List.lookup_cons, beq_false_of_ne h]
      · rw [List.filter_cons_of_pos (by simpa using hkey), List.lookup_cons, List.lookup_cons, ih]

theorem node?_put_self (h : place ≠ []) : (tree.put place node).node? place = some node := by
  obtain ⟨component, rest, rfl⟩ := List.exists_cons_of_ne_nil h
  show ((component :: rest, node) :: tree.nodes.filter _).lookup _ = _
  rw [List.lookup_cons, beq_self_eq_true]

theorem node?_put_of_ne (h : other ≠ place) :
    (tree.put place node).node? other = tree.node? other := by
  cases other with
  | nil => rfl
  | cons component rest =>
      show ((place, node) :: tree.nodes.filter _).lookup _ = tree.nodes.lookup _
      rw [List.lookup_cons, beq_false_of_ne h]
      exact lookup_filter_ne h

theorem ne_nil_of_not_directory (h : tree.node? place ≠ some .directory) : place ≠ [] := by
  rintro rfl
  exact h rfl

section Put

variable (hparent : tree.node? place.dropLast = some .directory)
  (hplace : tree.node? place ≠ some .directory)

include hplace

/-- Directories stay when a node is put where there is none. -/
theorem keeps_put : tree.Keeps (tree.put place node) where
  working := rfl
  directories {other} hother := by
    rw [node?_put_of_ne, hother]
    rintro rfl
    exact hplace hother

include hparent

/-- A node can be put into a directory, but not in the place of one. -/
theorem WellFormed.put (h : tree.WellFormed) : (tree.put place node).WellFormed where
  working := (keeps_put hplace).directories h.working
  parents {other found} hfound := by
    refine (keeps_put hplace).directories ?_
    by_cases hother : other = place
    · rw [hother]
      exact hparent
    · rw [node?_put_of_ne hother] at hfound
      exact h.parents hfound

end Put

/-! ### What a run does to a tree -/

/-- What becomes of a place: nothing, or a directory is made where there was nothing, or a file is
written if that is allowed. -/
inductive Change (allowed : Prop) : Option Node → Option Node → Prop where
  | none {node : Option Node} : Change allowed node node
  | made : Change allowed none (some .directory)
  | written {old : Option Node} {content : Bytes} : old ≠ some .directory → allowed →
      Change allowed old (some (.file content))

/-- What a run does to a tree, if it writes files only where it is allowed to. Which places are
allowed is said by the tree after the run. -/
structure Evolves (allowed : Tree → Place → Prop) (before after : Tree) : Prop where
  formed : after.WellFormed
  working : after.working = before.working
  changes : ∀ place, Change (allowed after place) (before.node? place) (after.node? place)

/-- A place that is allowed stays so in later trees. -/
def Lasting (allowed : Tree → Place → Prop) : Prop :=
  ∀ before after place, before.Keeps after → allowed before place → allowed after place

variable {allowed : Tree → Place → Prop}

namespace Evolves

theorem refl (h : tree.WellFormed) : Evolves allowed tree tree := ⟨h, rfl, fun _ => .none⟩

theorem keeps (h : Evolves allowed before after) : before.Keeps after where
  working := h.working
  directories {place} hplace := by
    have hchange := h.changes place
    rw [hplace] at hchange
    generalize after.node? place = node at hchange ⊢
    cases hchange with
    | none => rfl
    | written hold _ => exact absurd rfl hold

/-- A file that was not there before is where files are allowed. -/
theorem allowed_of_file (h : Evolves allowed before after) {content : Bytes}
    (hnew : after.node? place = some (.file content))
    (hold : before.node? place ≠ some (.file content)) : allowed after place := by
  have hchange := h.changes place
  rw [hnew] at hchange
  generalize before.node? place = old at hchange hold
  cases hchange with
  | none => exact absurd rfl hold
  | written _ hallowed => exact hallowed

/-- Two runs make one, if what the first was allowed stays allowed. -/
theorem trans (hlasting : Lasting allowed) (h : Evolves allowed before middle)
    (hnext : Evolves allowed middle after) : Evolves allowed before after where
  formed := hnext.formed
  working := hnext.working.trans h.working
  changes place := by
    have hfirst := h.changes place
    have hsecond := hnext.changes place
    generalize before.node? place = first at *
    generalize middle.node? place = second at *
    generalize after.node? place = third at *
    cases hsecond with
    | none =>
        cases hfirst with
        | none => exact .none
        | made => exact .made
        | written hold hallowed => exact .written hold (hlasting _ _ _ hnext.keeps hallowed)
    | made =>
        cases hfirst with
        | none => exact .made
    | written hold hallowed =>
        cases hfirst with
        | none => exact .written hold hallowed
        | made => exact absurd rfl hold
        | written hfirst _ => exact .written hfirst hallowed

/-- Other places may be allowed if they hold the files. -/
theorem mono {permitted : Tree → Place → Prop} (h : Evolves allowed before after)
    (himp : ∀ {place}, allowed after place → after.node? place ≠ some .directory →
      permitted after place) : Evolves permitted before after where
  formed := h.formed
  working := h.working
  changes place := by
    have hchange := h.changes place
    have hplace := @himp place
    generalize before.node? place = first at *
    generalize after.node? place = second at *
    cases hchange with
    | none => exact .none
    | made => exact .made
    | written hold hallowed => exact .written hold (hplace hallowed nofun)

/-- A node is put where a path leads. -/
theorem put (h : tree.WellFormed) (hresolve : tree.resolve path = .ok place)
    (hplace : tree.node? place ≠ some .directory)
    (hchange : Change (allowed (tree.put place node) place) (tree.node? place) (some node)) :
    Evolves allowed tree (tree.put place node) where
  formed := h.put (h.parent_of_resolve hresolve) hplace
  working := rfl
  changes other := by
    by_cases hother : other = place
    · subst hother
      rw [node?_put_self (ne_nil_of_not_directory hplace)]
      exact hchange
    · rw [node?_put_of_ne hother]
      exact .none

end Evolves

/-- How a step takes a tree to another, if the tree is well-formed. -/
def Steps (allowed : Tree → Place → Prop) (before after : Tree) : Prop :=
  before.WellFormed → Evolves allowed before after

theorem Steps.trans (hlasting : Lasting allowed) (before middle after : Tree)
    (h : Steps allowed before middle) (hnext : Steps allowed middle after) :
    Steps allowed before after := fun hformed =>
  (h hformed).trans hlasting (hnext (h hformed).formed)

/-- The places that a path leads to. -/
def Leads (path : Path) (tree : Tree) (place : Place) : Prop := tree.resolve path = .ok place

end Tree

namespace Action

variable {α : Type} {allowed : Tree → Place → Prop} {path : Path}

/-! ### What actions do -/

/-- An action that looks at the tree from the place that a path leads to. -/
theorem resolve_bind_eq (next : Place → Tree → Action α) (tree : Tree) :
    (do let place ← resolve path; next place (← get) : Action α) tree =
      match tree.resolve path with
      | .error cause => .error ⟨cause, path⟩ tree
      | .ok place => next place tree tree := by
  show EStateM.bind (resolve path) _ tree = _
  unfold EStateM.bind resolve
  cases tree.resolve path <;> rfl

theorem read_eq (path : Path) (tree : Tree) :
    read path tree = match tree.resolve path with
      | .error cause => .error ⟨cause, path⟩ tree
      | .ok place => match tree.node? place with
          | some (.file content) => .ok content tree
          | some .directory => .error ⟨.isDirectory, path⟩ tree
          | none => .error ⟨.notFound, path⟩ tree := by
  refine (resolve_bind_eq _ tree).trans ?_
  cases tree.resolve path with
  | error cause => rfl
  | ok place =>
      dsimp only
      rcases tree.node? place with _ | _ | _ <;> rfl

theorem write_eq (path : Path) (content : Bytes) (tree : Tree) :
    write path content tree = match tree.resolve path with
      | .error cause => .error ⟨cause, path⟩ tree
      | .ok place => match tree.node? place with
          | some .directory => .error ⟨.isDirectory, path⟩ tree
          | _ => .ok () (tree.put place (.file content)) := by
  refine (resolve_bind_eq _ tree).trans ?_
  cases tree.resolve path with
  | error cause => rfl
  | ok place =>
      dsimp only
      rcases tree.node? place with _ | _ | _ <;> rfl

theorem makeDirectory_eq (path : Path) (tree : Tree) :
    makeDirectory path tree = match tree.resolve path with
      | .error cause => .error ⟨cause, path⟩ tree
      | .ok place => match tree.node? place with
          | some _ => .error ⟨.exists, path⟩ tree
          | none => .ok () (tree.put place .directory) := by
  refine (resolve_bind_eq _ tree).trans ?_
  cases tree.resolve path with
  | error cause => rfl
  | ok place =>
      dsimp only
      rcases tree.node? place with _ | _ <;> rfl

/-- Reading a file changes nothing. -/
theorem endState_read (path : Path) (tree : Tree) : endState (read path tree) = tree := by
  rw [read_eq]
  cases tree.resolve path with
  | error cause => rfl
  | ok place =>
      dsimp only
      rcases tree.node? place with _ | _ | _ <;> rfl

/-- A file is written where the path leads, and nowhere else. -/
theorem moves_write (path : Path) (content : Bytes) :
    Moves (Tree.Steps (Tree.Leads path)) (write path content) := by
  intro tree h
  rw [write_eq]
  cases hresolve : tree.resolve path with
  | error cause => exact .refl h
  | ok place =>
      dsimp only
      split
      · exact .refl h
      · rename_i hplace
        exact .put h hresolve hplace (.written hplace ((Tree.keeps_put hplace).resolve hresolve))

theorem moves_makeDirectory (path : Path) :
    Moves (Tree.Steps allowed) (makeDirectory path) := by
  intro tree h
  rw [makeDirectory_eq]
  cases hresolve : tree.resolve path with
  | error cause => exact .refl h
  | ok place =>
      dsimp only
      cases hplace : tree.node? place with
      | some node => exact .refl h
      | none =>
          refine .put h hresolve (by rw [hplace]; exact nofun) ?_
          rw [hplace]
          exact .made

theorem moves_ensureDirectory (path : Path) :
    Moves (Tree.Steps allowed) (ensureDirectory path) := by
  intro tree
  have hmade := @moves_makeDirectory allowed path tree
  unfold ensureDirectory
  split
  · rename_i hrun
    rw [hrun] at hmade
    exact hmade
  · rename_i hrun
    rw [hrun] at hmade
    split <;> exact hmade

/-- By induction on the directories above, since one that is missing is made after them. -/
theorem moves_ensureDirectories (hlasting : Tree.Lasting allowed) (anchor : Anchor)
    (components : List String) :
    Moves (Tree.Steps allowed) (ensureDirectories anchor components) := by
  induction components with
  | nil => exact moves_ensureDirectory _
  | cons last above ih =>
      intro tree
      have hensured := @moves_ensureDirectory allowed ⟨anchor, (last :: above).reverse⟩ tree
      unfold ensureDirectories
      dsimp only
      split
      · rename_i hrun
        rw [hrun] at hensured
        exact hensured
      · rename_i kept hrun
        rw [hrun] at hensured
        split
        · have hrest := ih.bind (Tree.Steps.trans hlasting)
            (fun _ => moves_ensureDirectory ⟨anchor, (last :: above).reverse⟩) kept
          exact Tree.Steps.trans hlasting _ _ _ hensured hrest
        · exact hensured

theorem moves_makeParents (hlasting : Tree.Lasting allowed) (path : Path) :
    Moves (Tree.Steps allowed) (makeParents path) :=
  moves_ensureDirectories hlasting path.anchor _

end Action

end Files

end SceneSet
