import SceneSet.Proofs.Number.Symmetry
import SceneSet.Proofs.Report.Outline
import SceneSet.Proofs.Scene.Growth
import SceneSet.Proofs.Scene.Strictness
import Mathlib.Data.List.Forall2

/-!
# Mirrored normals

The second coordinate of normals may be asked for with the opposite sign. Then a polygon has a unit
normal just if it has one otherwise, and that is the mirrored one (`Polygon.unitNormal_mirrors`).
`Lockstep` compares two actions run from the same state: they stop in the same state, with the same
fault or with related values. The two readings of a set run in lockstep, and `Scene.read_mirrored`
says what they differ in, down to the lines of their reports.
-/

namespace SceneSet

open Number (Binary Single Double)

/-! ### Polygons -/

/-- Two points that are the same but for their second coordinates, which are opposite numbers. -/
structure Point3.Mirrors (p q : Point3) : Prop where
  x : p.x = q.x
  y : Binary.Opposite p.y q.y
  z : p.z = q.z
  number : q.y ≠ .nan

namespace Polygon

namespace Vector

/-- Two vectors that are the same but for their second coordinates, which are opposite. -/
structure Mirrors (v w : Vector) : Prop where
  x : v.x = w.x
  y : Binary.Opposite v.y w.y
  z : v.z = w.z

/-- The two forms of the second coordinate are differences of the same products. -/
theorem Mirrors.cross (a b : Vector) :
    Mirrors (Vector.cross true a b) (Vector.cross false a b) where
  x := rfl
  y := by
    show Binary.Opposite (a.x * b.z - b.x * a.z) (a.z * b.x - a.x * b.z)
    rw [Binary.mul_comm a.z b.x]
    exact .sub _ _
  z := rfl

variable {v w : Vector}

theorem Mirrors.norm_eq (h : v.Mirrors w) : v.norm = w.norm := by
  unfold norm
  rw [h.x, h.y.mul_self, h.z]

/-- A vector with a finite length has a second coordinate that is a number, and so has the unit
vector. -/
theorem scaleDown_ne_nan (hzero : ¬ w.norm.isZero) (hfinite : w.norm.isFinite) :
    (w.scaleDown w.norm).y ≠ .nan := by
  have hy : w.y ≠ .nan := by
    intro hy
    unfold norm at hfinite
    have hsquare : (.nan : Single) * .nan = .nan := rfl
    rw [hy, hsquare, Binary.add_nan, Binary.nan_add] at hfinite
    cases hfinite
  exact Binary.convert_ne_nan (Binary.div_ne_nan hy hzero hfinite)

theorem Mirrors.scaleDown (h : v.Mirrors w) (hzero : ¬ w.norm.isZero) (hfinite : w.norm.isFinite) :
    (v.scaleDown w.norm).Mirrors (w.scaleDown w.norm) where
  x := by simp only [Vector.scaleDown, h.x]
  y := (h.y.div w.norm).convert
  z := by simp only [Vector.scaleDown, h.z]
  number := scaleDown_ne_nan hzero hfinite

end Vector

/-- A polygon has both unit normals or none. -/
theorem unitNormal_mirrors (vertices : List Point3) :
    unitNormal? true vertices = none ∧ unitNormal? false vertices = none ∨
      ∃ n m, unitNormal? true vertices = some n ∧ unitNormal? false vertices = some m ∧
        n.Mirrors m := by
  unfold unitNormal?
  split
  · rename_i first second rest
    have hproduct : (crossProduct true first second (rest.getLastD second)).Mirrors
        (crossProduct false first second (rest.getLastD second)) := .cross _ _
    dsimp only
    rw [hproduct.norm_eq]
    split
    · exact .inl ⟨rfl, rfl⟩
    · rename_i hlength
      rw [Bool.or_eq_true, not_or, Bool.not_eq_true', Bool.not_eq_false] at hlength
      exact .inr ⟨_, _, rfl, rfl, hproduct.scaleDown hlength.1 hlength.2⟩
  · exact .inl ⟨rfl, rfl⟩

theorem normal_mirrors (vertices : List Point3) :
    (normal true vertices).Mirrors (normal false vertices) := by
  unfold normal
  rcases unitNormal_mirrors vertices with ⟨hleft, hright⟩ | ⟨n, m, hleft, hright, h⟩
  · rw [hleft, hright]
    exact ⟨rfl, .inr ⟨rfl, rfl⟩, rfl, by simp [Point3.zero, Binary.zero]⟩
  · rw [hleft, hright]
    exact h

theorem isDegenerate_mirrors (vertices : List Point3) :
    isDegenerate true vertices = isDegenerate false vertices := by
  unfold isDegenerate
  rcases unitNormal_mirrors vertices with ⟨hleft, hright⟩ | ⟨n, m, hleft, hright, -⟩
  · rw [hleft, hright]
  · rw [hleft, hright]
    rfl

end Polygon

/-! ### Actions in lockstep -/

section Lockstep

variable {ε σ α β γ δ : Type}

/-- What two actions gave: the same fault or related values, in the same state. -/
inductive Paired (related : α → β → Prop) :
    EStateM.Result ε σ α → EStateM.Result ε σ β → Prop where
  | ok {value : α} {other : β} (state : σ) : related value other →
      Paired related (.ok value state) (.ok other state)
  | error (fault : ε) (state : σ) : Paired related (.error fault state) (.error fault state)

/-- Two actions that, run from the same state, stop in the same state with the same fault or with
related values. -/
def Lockstep (related : α → β → Prop) (first : EStateM ε σ α) (second : EStateM ε σ β) : Prop :=
  ∀ state, Paired related (first state) (second state)

namespace Lockstep

theorem refl (action : EStateM ε σ α) : Lockstep Eq action action := by
  intro state
  cases action state with
  | ok value after => exact .ok after rfl
  | error fault after => exact .error fault after

theorem pure {related : α → β → Prop} {value : α} {other : β} (h : related value other) :
    Lockstep related (Pure.pure value : EStateM ε σ α) (Pure.pure other) :=
  fun state => .ok state h

theorem throw {related : α → β → Prop} (fault : ε) :
    Lockstep related (MonadExcept.throw fault : EStateM ε σ α) (MonadExcept.throw fault) :=
  fun state => .error fault state

theorem bind {related : α → β → Prop} {final : γ → δ → Prop} {first : EStateM ε σ α}
    {second : EStateM ε σ β} {next : α → EStateM ε σ γ} {other : β → EStateM ε σ δ}
    (h : Lockstep related first second)
    (hnext : ∀ value paired, related value paired → Lockstep final (next value) (other paired)) :
    Lockstep final (first >>= next) (second >>= other) := by
  intro state
  have hfirst := h state
  show Paired final (EStateM.bind first next state) (EStateM.bind second other state)
  unfold EStateM.bind
  generalize first state = left at hfirst ⊢
  generalize second state = right at hfirst ⊢
  cases hfirst with
  | ok after hrelated => exact hnext _ _ hrelated after
  | error fault after => exact .error fault after

/-- A first step that both actions share. -/
theorem bind_same {final : γ → δ → Prop} (action : EStateM ε σ α) {next : α → EStateM ε σ γ}
    {other : α → EStateM ε σ δ} (h : ∀ value, Lockstep final (next value) (other value)) :
    Lockstep final (action >>= next) (action >>= other) := by
  refine (refl action).bind fun value paired heq => ?_
  cases heq
  exact h value

theorem repeated {related : α → β → Prop} {first : EStateM ε σ α} {second : EStateM ε σ β}
    (h : Lockstep related first second) (n : Nat) :
    Lockstep (List.Forall₂ related) (SceneSet.repeated first n) (SceneSet.repeated second n) := by
  induction n with
  | zero => exact pure .nil
  | succ n ih =>
      refine h.bind fun head paired hhead => ih.bind fun tail others htail => ?_
      exact pure (.cons hhead htail)

theorem ofReader {related : α → β → Prop} {first : Reader α} {second : Reader β}
    (h : Lockstep related first second) :
    Lockstep related (Observer.ofReader first) (Observer.ofReader second) := by
  intro progress
  have hread := h progress.cursor
  unfold Observer.ofReader
  generalize first progress.cursor = left at hread
  generalize second progress.cursor = right at hread
  cases hread with
  | ok after hrelated => exact .ok _ hrelated
  | error fault after => exact .error fault _

end Lockstep

end Lockstep

/-! ### Sectors and scenes -/

/-- Two sectors that are the same but for the second coordinate of their normals. -/
structure Sector.Mirrors (s t : Sector) : Prop where
  same : { s with normal := t.normal } = t
  normal : s.normal.Mirrors t.normal
  degenerate : Polygon.isDegenerate true s.vertices = Polygon.isDegenerate false t.vertices

/-- Two scenes that are the same but for the second coordinates of the normals of their sectors. -/
structure Scene.Mirrors (s t : Scene) : Prop where
  same : { s with sectors := t.sectors } = t
  sectors : List.Forall₂ Sector.Mirrors s.sectors t.sectors

namespace Sector

/-- A sector is noted for the same reasons whichever normal it has. -/
theorem Mirrors.notes_eq {s t : Sector} (h : s.Mirrors t) (strict : Bool) :
    s.notes ⟨strict, true⟩ = t.notes ⟨strict, false⟩ := by
  have hdegenerate := h.degenerate
  rw [← h.same] at hdegenerate ⊢
  unfold notes
  rw [hdegenerate]
  rfl

theorem read_lockstep (strict : Bool) :
    Lockstep Mirrors (Sector.read ⟨strict, true⟩) (Sector.read ⟨strict, false⟩) := by
  unfold Sector.read
  refine .bind_same _ fun offset => ?_
  refine .bind_same _ fun vertexCount => ?_
  refine .bind_same _ fun vertices => ?_
  refine .bind_same _ fun nameLength => ?_
  refine .bind_same _ fun name => ?_
  refine .bind_same _ fun id => ?_
  refine .bind_same _ fun visible => ?_
  refine .bind_same _ fun tag => ?_
  refine .bind_same _ fun trailerWords => ?_
  refine .bind_same _ fun _ => ?_
  refine .bind_same _ fun height => ?_
  dsimp only
  split
  · exact .throw _
  · exact .pure ⟨rfl, Polygon.normal_mirrors vertices, Polygon.isDegenerate_mirrors vertices⟩

end Sector

namespace Observer

theorem sector_lockstep (strict : Bool) :
    Lockstep Sector.Mirrors (sector ⟨strict, true⟩) (sector ⟨strict, false⟩) := by
  refine (Lockstep.ofReader (Sector.read_lockstep strict)).bind fun s t h => ?_
  rw [h.notes_eq strict]
  exact .bind_same _ fun _ => .pure h

theorem sections_lockstep (strict : Bool) :
    Lockstep Scene.Mirrors (sections ⟨strict, true⟩) (sections ⟨strict, false⟩) := by
  refine .bind_same _ fun setupCount => ?_
  refine .bind_same _ fun setups => ?_
  refine .bind_same _ fun lightCount => ?_
  refine .bind_same _ fun lights => ?_
  refine .bind_same _ fun sectorCount => ?_
  refine ((sector_lockstep strict).repeated sectorCount).bind fun sectors others h => ?_
  exact .bind_same _ fun stop => .pure ⟨rfl, h⟩

end Observer

/-! ### Reports -/

namespace Report

/-- The line of the normal of a sector. -/
def normalLine (normal : Point3) : Line := fieldLine "normal\t\t" (PointText.ofPoint normal).text

/-- Two lines that are the same, or those of two mirrored normals, which differ in the field of the
second coordinate alone. -/
def LineMirrors (l m : Line) : Prop :=
  l = m ∨ ∃ p q : Point3, p.Mirrors q ∧ l = normalLine p ∧ m = normalLine q

theorem LineMirrors.refl_all (lines : List Line) : List.Forall₂ LineMirrors lines lines :=
  List.forall₂_same.mpr fun _ _ => .inl rfl

/-- Two texts that are the same line by line, but for normals that are mirrored. -/
def TextMirrors (s t : String) : Prop :=
  ∃ lines others, s.toList = unlines lines ∧ t.toList = unlines others ∧
    List.Forall₂ LineMirrors lines others

theorem sectorLines_mirrors {s t : Sector} (h : s.Mirrors t) :
    List.Forall₂ LineMirrors
      ((SectorOutline.ofSector s).lines ++ (SectorOutline.ofSector s).blanks)
      ((SectorOutline.ofSector t).lines ++ (SectorOutline.ofSector t).blanks) := by
  have hnormal := h.normal
  rw [← h.same]
  -- the normal is the seventh line
  refine List.rel_append ?_ (LineMirrors.refl_all _)
  refine List.rel_append ?_ (LineMirrors.refl_all _)
  refine .cons (.inl rfl) (.cons (.inl rfl) (.cons (.inl rfl) (.cons (.inl rfl)
    (.cons (.inl rfl) (.cons (.inl rfl) (.cons ?_ .nil))))))
  exact .inr ⟨s.normal, t.normal, hnormal, rfl, rfl⟩

/-- Scenes with mirrored normals have reports that differ in the lines of these normals. -/
theorem scene_mirrors {s t : Scene} (h : s.Mirrors t) (trueCounts : Bool) :
    TextMirrors (scene trueCounts s) (scene trueCounts t) := by
  obtain ⟨hsame, hsectors⟩ := h
  refine ⟨_, _, toList_scene trueCounts s, toList_scene trueCounts t, ?_⟩
  have hlines : List.Forall₂ LineMirrors (Outline.ofScene s).sectorLines
      (Outline.ofScene t).sectorLines := by
    unfold Outline.sectorLines Outline.ofScene
    simp only [List.flatMap_map]
    exact List.rel_flatMap hsectors fun _ _ => sectorLines_mirrors
  rw [← hsame] at hlines ⊢
  refine List.rel_append (LineMirrors.refl_all _) ?_
  exact .cons (.inl rfl) hlines

end Report

namespace Scene

/-- Asking for normals with the opposite sign changes nothing but the second coordinates of the
normals. A set is stopped by the same fault as otherwise, or gives a scene with mirrored normals;
the log is the same, and so are the reports but for the second fields of the normals. -/
theorem read_mirrored (strict : Bool) (log : Option Log) (data : Bytes) :
    (read ⟨strict, true⟩ log data).2 = (read ⟨strict, false⟩ log data).2 ∧
      ((∃ fault, (read ⟨strict, true⟩ log data).1 = .error fault ∧
          (read ⟨strict, false⟩ log data).1 = .error fault) ∨
        ∃ mirrored usual, (read ⟨strict, true⟩ log data).1 = .ok mirrored ∧
          (read ⟨strict, false⟩ log data).1 = .ok usual ∧ mirrored.Mirrors usual ∧
          ∀ trueCounts, Report.TextMirrors (Report.scene trueCounts mirrored)
            (Report.scene trueCounts usual)) := by
  have hsections := Observer.sections_lockstep strict ⟨Cursor.ofBytes data, log⟩
  rw [read_eq, read_eq]
  generalize Observer.sections ⟨strict, true⟩ _ = left at hsections
  generalize Observer.sections ⟨strict, false⟩ _ = right at hsections
  cases hsections with
  | error fault after => exact ⟨rfl, .inl ⟨fault, rfl, rfl⟩⟩
  | @ok mirrored usual after h =>
      exact ⟨rfl, .inr ⟨mirrored, usual, rfl, rfl, h, Report.scene_mirrors h⟩⟩

end Scene

end SceneSet
