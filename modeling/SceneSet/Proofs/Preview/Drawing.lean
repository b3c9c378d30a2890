import SceneSet.Command.Preview
import SceneSet.Proofs.Files.Growth
import SceneSet.Proofs.Number.Overflow
import Mathlib.Data.List.Forall2

/-!
# What drawings show

A drawing shows each sector that has vertices once, in their order, and nothing else (`Draws`). When
the tool draws, it begins a picture, makes the calls of the drawing and saves the picture. It ends
before the first call if there is nothing to draw, or if the size is too large for a number of 64
bits (`drawSectors_draws`). Sectors without vertices change nothing of that. All this is said on the
condition that the drawing calls return, as `Tool.draw` takes them to.
-/

namespace SceneSet

open Files (Path Action)

namespace Preview

open Number (Binary Double)

/-! ### Calls and what they show -/

namespace Call

/-- Whether a call draws a line or a dot. -/
def isOutline : Call → Bool
  | line .. | ellipse .. => true
  | _ => false

end Call

/-- The vertices of a sector in the picture. -/
def placed (style : Style) (scale : Scale Double) (sector : Sector) : List (Point2 Double) :=
  sector.vertices.map fun vertex => scale.place (style.plane.project vertex)

/-- A call that shows a sector: a line along the vertices and back to the first one, or a dot if
there is one vertex only. -/
inductive Shows (style : Style) (scale : Scale Double) (sector : Sector) : Call → Prop
  | outline {first : Point2 Double} {rest : List (Point2 Double)} :
      placed style scale sector = first :: rest → rest ≠ [] →
      Shows style scale sector
        (.line (placed style scale sector ++ [first]) (Color.ofType sector.type?) style.stroke)
  | dot {only : Point2 Double} : placed style scale sector = [only] →
      Shows style scale sector
        (.ellipse (only.map (· - Binary.ofInt style.stroke))
          (only.map (· + Binary.ofInt style.stroke)) (Color.ofType sector.type?))

/-- The calls for a sector: one that shows it and, if labels are wanted, its name amid it. -/
inductive Covers (style : Style) (scale : Scale Double) (sector : Sector) : List Call → Prop
  | plain {call : Call} : style.labels = false → Shows style scale sector call →
      Covers style scale sector [call]
  | labelled {call : Call} : style.labels = true → Shows style scale sector call →
      Covers style scale sector
        [call, .text ⟨Shape.mean ((placed style scale sector).map (·.x)),
          Shape.mean ((placed style scale sector).map (·.y))⟩ sector.name
          (Color.ofType sector.type?)]

/-- A new picture and then the calls for some sectors, one after the other, which are fitted into
the picture together. The count is that of lines and dots. -/
structure Draws (style : Style) (sectors : List Sector) (drawing : Drawing) : Prop where
  calls : ∃ first rest blocks,
    (sectors.flatMap fun sector => sector.vertices.map style.plane.project) = first :: rest ∧
    List.Forall₂
      (Covers style (Scale.fit (Binary.ofInt style.size) style.padding first rest)) sectors blocks ∧
    drawing.calls = .newImage style.size .background :: blocks.flatten
  count : drawing.drawn = drawing.calls.countP Call.isOutline

variable {style : Style} {scale : Scale Double} {sector : Sector}

theorem Covers.countP {block : List Call} (h : Covers style scale sector block) :
    block.countP Call.isOutline = 1 := by
  cases h with
  | plain _ hshows => cases hshows <;> rfl
  | labelled _ hshows => cases hshows <;> rfl

/-- There are as many lines and dots as sectors. -/
theorem countP_flatten {sectors : List Sector} {blocks : List (List Call)}
    (h : List.Forall₂ (Covers style scale) sectors blocks) :
    blocks.flatten.countP Call.isOutline = sectors.length := by
  induction h with
  | nil => rfl
  | cons hcovers _ ih =>
      rw [List.flatten_cons, List.countP_append, hcovers.countP, ih, List.length_cons, Nat.add_comm]

/-! ### Shapes of sectors -/

/-- Whether a sector has vertices. -/
def hasVertices (sector : Sector) : Bool := !sector.vertices.isEmpty

theorem ofSector?_of_not (plane : Plane) (h : ¬ hasVertices sector) :
    Shape.ofSector? plane sector = none := by
  have hnil : sector.vertices = [] := by simpa [hasVertices] using h
  rw [Shape.ofSector?, hnil]
  rfl

/-- The calls for a shape whose points are those of a sector. -/
theorem covers_calls {first : Point2 Double} {rest : List (Point2 Double)} :
    let shape : Shape := ⟨sector.name, Color.ofType sector.type?, first, rest⟩
    placed style scale sector = shape.points.map scale.place →
      Covers style scale sector (shape.calls style scale) := by
  intro shape hplaced
  unfold Shape.calls
  dsimp only
  rw [← hplaced]
  have hshows : Shows style scale sector (if rest.isEmpty = true then
      .ellipse ((scale.place first).map (· - Binary.ofInt style.stroke))
        ((scale.place first).map (· + Binary.ofInt style.stroke)) (Color.ofType sector.type?)
      else .line (placed style scale sector ++ [scale.place first]) (Color.ofType sector.type?)
        style.stroke) := by
    cases rest with
    | nil => exact .dot hplaced
    | cons second rest => exact .outline hplaced (List.cons_ne_nil _ _)
  cases hlabels : style.labels with
  | false => exact .plain hlabels hshows
  | true => exact .labelled hlabels hshows

/-- The shape of a sector with vertices has its points, and its calls show it. -/
theorem exists_ofSector? (style : Style) (h : hasVertices sector) :
    ∃ shape, Shape.ofSector? style.plane sector = some shape ∧
      shape.points = sector.vertices.map style.plane.project ∧
      ∀ scale, Covers style scale sector (shape.calls style scale) := by
  cases hpoints : sector.vertices.map style.plane.project with
  | nil => simp [hasVertices, List.map_eq_nil_iff.mp hpoints] at h
  | cons first rest =>
      refine ⟨⟨sector.name, Color.ofType sector.type?, first, rest⟩, ?_, rfl, fun scale => ?_⟩
      · rw [Shape.ofSector?, hpoints]
      · refine covers_calls ?_
        rw [placed, Shape.points, ← hpoints, List.map_map]
        rfl

theorem shapesOf_filter (plane : Plane) (sectors : List Sector) :
    shapesOf plane (sectors.filter hasVertices) = shapesOf plane sectors := by
  rw [shapesOf, List.filterMap_filter]
  refine List.filterMap_congr fun sector _ => ?_
  by_cases h : hasVertices sector
  · rw [if_pos h]
  · rw [if_neg h, ofSector?_of_not plane h]

/-- The drawing of sectors that all have vertices. -/
theorem shapesOf_draws (style : Style) {sectors : List Sector}
    (h : ∀ sector ∈ sectors, hasVertices sector) :
    (shapesOf style.plane sectors).flatMap (·.points) =
        sectors.flatMap (fun sector => sector.vertices.map style.plane.project) ∧
      ∀ scale, List.Forall₂ (Covers style scale) sectors
        ((shapesOf style.plane sectors).map (Shape.calls style scale)) := by
  induction sectors with
  | nil => exact ⟨rfl, fun _ => .nil⟩
  | cons sector rest ih =>
      obtain ⟨hpoints, hcovers⟩ := ih fun other hmem => h other (List.mem_cons_of_mem _ hmem)
      obtain ⟨shape, hshape, hshapePoints, hshapeCalls⟩ :=
        exists_ofSector? style (h sector List.mem_cons_self)
      have hshapes : shapesOf style.plane (sector :: rest) = shape :: shapesOf style.plane rest :=
        List.filterMap_cons_some hshape
      rw [hshapes]
      refine ⟨?_, fun scale => .cons (hshapeCalls scale) (hcovers scale)⟩
      rw [List.flatMap_cons, List.flatMap_cons, hshapePoints, hpoints]

/-- There is a drawing of sectors just if one of them has vertices, and it shows those that have. -/
theorem ofSectors?_draws (style : Style) (sectors : List Sector)
    (h : sectors.filter hasVertices ≠ []) :
    ∃ drawing, Drawing.ofSectors? style sectors = some drawing ∧
      Draws style (sectors.filter hasVertices) drawing := by
  obtain ⟨hpoints, hcovers⟩ := shapesOf_draws style fun sector hmem => (List.mem_filter.mp hmem).2
  rw [shapesOf_filter] at hpoints hcovers
  unfold Drawing.ofSectors? scaleOf?
  dsimp only
  cases hall : (shapesOf style.plane sectors).flatMap (·.points) with
  | nil =>
      obtain ⟨sector, hmem⟩ := List.exists_mem_of_ne_nil _ h
      have hnone := List.flatMap_eq_nil_iff.mp (hpoints.symm.trans hall) sector hmem
      have hvertices := (List.mem_filter.mp hmem).2
      simp [hasVertices, List.map_eq_nil_iff.mp hnone] at hvertices
  | cons first rest =>
      have hblocks := hcovers (Scale.fit (Binary.ofInt style.size) style.padding first rest)
      refine ⟨_, rfl, ⟨first, rest, _, hpoints.symm.trans hall, hblocks, rfl⟩, ?_⟩
      have hcount := countP_flatten hblocks
      rw [hblocks.length_eq, List.length_map] at hcount
      exact hcount.symm

theorem ofSectors?_eq_none (style : Style) (sectors : List Sector)
    (h : sectors.filter hasVertices = []) : Drawing.ofSectors? style sectors = none := by
  rw [Drawing.ofSectors?, ← shapesOf_filter, h]
  rfl

/-- Sectors without vertices leave no trace. -/
theorem ofSectors?_congr (style : Style) {sectors others : List Sector}
    (h : sectors.filter hasVertices = others.filter hasVertices) :
    Drawing.ofSectors? style sectors = Drawing.ofSectors? style others := by
  unfold Drawing.ofSectors?
  rw [← shapesOf_filter style.plane sectors, h, shapesOf_filter]

end Preview

/-! ### Runs that draw -/

namespace Command.Preview

open SceneSet.Preview (Style Drawing Draws hasVertices)

variable {style : Style} {sectors : List Sector} {path : Path} {session : Session}

/-- The sizes that pictures can have. -/
theorem isDrawable_iff (style : Style) :
    style.isDrawable ↔ style.size.natAbs + 2 ^ 970 < 2 ^ 1024 :=
  Number.Binary.isFinite_ofInt_iff style.size

theorem drawSectors_of_none (h : sectors.filter hasVertices = []) :
    drawSectors style sectors path session = .error .nothingToDraw session := by
  rw [drawSectors, SceneSet.Preview.ofSectors?_eq_none style sectors h]
  rfl

theorem drawSectors_of_large (h : sectors.filter hasVertices ≠ [])
    (hsize : 2 ^ 1024 ≤ style.size.natAbs + 2 ^ 970) :
    drawSectors style sectors path session = .error .sizeOutOfRange session := by
  obtain ⟨drawing, hdrawing, -⟩ := SceneSet.Preview.ofSectors?_draws style sectors h
  have hlarge : ¬ style.isDrawable := fun hdrawable =>
    Nat.not_lt.mpr hsize ((isDrawable_iff style).mp hdrawable)
  rw [drawSectors, hdrawing]
  dsimp only
  rw [if_neg hlarge]
  rfl

/-- What is done for a drawing: it ends after the calls if the directory of the picture cannot be
made, and with the saving if it can. -/
theorem drawSectors_of_drawing {drawing : Drawing}
    (h : Drawing.ofSectors? style sectors = some drawing)
    (hsize : style.size.natAbs + 2 ^ 970 < 2 ^ 1024) :
    drawSectors style sectors path session =
      match Action.makeParents path session.tree with
      | .ok () tree => .ok drawing.drawn { session with
          tree := tree
          calls := session.calls ++ drawing.calls ++ [.save path] }
      | .error failure tree => .error (.files failure) { session with
          tree := tree
          calls := session.calls ++ drawing.calls } := by
  rw [drawSectors, h]
  dsimp only
  rw [if_pos ((isDrawable_iff style).mpr hsize)]
  show EStateM.bind (Tool.ofAction (Action.makeParents path)) _
    { session with calls := session.calls ++ drawing.calls } = _
  unfold EStateM.bind Tool.ofAction Tool.ofLoader Source.ofAction
  dsimp only
  cases Action.makeParents path session.tree <;> rfl

/-- What a run draws, on the condition that every drawing call returns: a painter who refuses a size
or cannot save a file ends the run at that call. It ends at once if no sector has vertices or if the
size is too large for a number of 64 bits. Otherwise it makes the calls of a drawing that shows all
sectors with vertices, and saves the picture if its directory is there or can be made. The sectors
without vertices can be left out, and others can be put in. -/
theorem drawSectors_draws (style : Style) (sectors : List Sector) (path : Path)
    (session : Session) :
    let seen := sectors.filter hasVertices
    let drawn := drawSectors style sectors path session
    (seen = [] → drawn = .error .nothingToDraw session) ∧
      (seen ≠ [] → 2 ^ 1024 ≤ style.size.natAbs + 2 ^ 970 →
        drawn = .error .sizeOutOfRange session) ∧
      (seen ≠ [] → style.size.natAbs + 2 ^ 970 < 2 ^ 1024 → ∃ drawing, Draws style seen drawing ∧
        (∀ tree, Action.makeParents path session.tree = .ok () tree →
          drawn = .ok drawing.drawn { session with
            tree := tree
            calls := session.calls ++ drawing.calls ++ [.save path] }) ∧
        ∀ failure tree, Action.makeParents path session.tree = .error failure tree →
          drawn = .error (.files failure) { session with
            tree := tree
            calls := session.calls ++ drawing.calls }) ∧
      ∀ others, others.filter hasVertices = seen →
        drawSectors style others path session = drawn := by
  intro seen drawn
  refine ⟨drawSectors_of_none, drawSectors_of_large, fun hseen hsize => ?_,
    fun others hothers => ?_⟩
  · obtain ⟨drawing, hdrawing, hdraws⟩ :=
      SceneSet.Preview.ofSectors?_draws style sectors hseen
    refine ⟨drawing, hdraws, fun tree htree => ?_, fun failure tree htree => ?_⟩
    · rw [show drawn = _ from drawSectors_of_drawing hdrawing hsize, htree]
    · rw [show drawn = _ from drawSectors_of_drawing hdrawing hsize, htree]
  · show drawSectors style others path session = drawSectors style sectors path session
    unfold drawSectors
    rw [SceneSet.Preview.ofSectors?_congr style hothers]

/-- A sector on the floor with these corners. -/
def floorSector (name : String) (corners : List (Int × Int)) : Sector where
  offset := 0
  name := name
  id := 0
  tag := 0x1000
  visible := true
  height := Number.Binary.zero false
  vertices := corners.map fun (x, z) =>
    ⟨Number.Binary.ofInt x, Number.Binary.zero false, Number.Binary.ofInt z⟩
  normal := ⟨Number.Binary.zero false, Number.Binary.ofInt 1, Number.Binary.zero false⟩

/-- An empty working directory. -/
def easel : Session where
  tree := ⟨["home"], [(["home"], .directory)]⟩
  output := []
  messages := ""
  calls := []

/-- A triangle and a dot, and between them a sector without vertices. -/
theorem drawSectors_draws_floor :
    let style : Style := ⟨512, .xz, true, Style.usualPadding⟩
    let triangle := floorSector "a" [(0, 0), (1, 0), (1, 1)]
    let dot := floorSector "c" [(2, 1)]
    let path := Path.ofText "out/p.png"
    ∃ drawing tree, Draws style [triangle, dot] drawing ∧
      Action.makeParents path easel.tree = .ok () tree ∧
      drawSectors style [triangle, floorSector "b" [], dot] path easel =
        .ok 2 { easel with tree := tree, calls := drawing.calls ++ [.save path] } := by
  intro style triangle dot path
  have hsize : style.size.natAbs + 2 ^ 970 < 2 ^ 1024 :=
    (isDrawable_iff style).mp (by decide +kernel)
  have hparents := eq_ok_of_value? (show value? (Action.makeParents path easel.tree) = some () by
    decide +kernel)
  have hvalue : value? (drawSectors style [triangle, floorSector "b" [], dot] path easel) =
      some 2 := by
    decide +kernel
  obtain ⟨-, -, hdraws, -⟩ :=
    drawSectors_draws style [triangle, floorSector "b" [], dot] path easel
  obtain ⟨drawing, hshown, hsaved, -⟩ := hdraws (List.cons_ne_nil _ _) hsize
  have hrun := hsaved _ hparents
  rw [hrun] at hvalue
  rw [show drawing.drawn = 2 from Option.some.inj hvalue] at hrun
  exact ⟨drawing, _, hshown, hparents, hrun⟩

/-- A size beyond the numbers of 64 bits, for which nothing is drawn although there is a vertex. -/
theorem drawSectors_too_large :
    let style : Style := ⟨2 ^ 1024, .xz, false, Style.usualPadding⟩
    let sectors := [floorSector "" [(0, 0)]]
    0 < style.size ∧ sectors.filter hasVertices = sectors ∧
      drawSectors style sectors (Path.ofText "out.png") easel = .error .sizeOutOfRange easel := by
  intro style sectors
  have hlarge : ¬ style.isDrawable := by decide +kernel
  have hsize : 2 ^ 1024 ≤ style.size.natAbs + 2 ^ 970 :=
    Nat.not_lt.mp ((isDrawable_iff style).not.mp hlarge)
  exact ⟨Int.pow_pos (by decide), rfl, drawSectors_of_large (List.cons_ne_nil _ _) hsize⟩

end Command.Preview

end SceneSet
