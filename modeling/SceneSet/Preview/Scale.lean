import SceneSet.Number.Binary

/-!
# Fitting points into a square

A flat picture of some points: they are scaled by one factor for both axes so that they fit into a
square with a margin, centred, and turned so that the second axis points upwards. The arithmetic
is a parameter, so that the same formulas can be evaluated in 64-bit numbers, each operation
rounded on its own, and in exact rational numbers.
-/

namespace SceneSet.Preview

open Number (Binary Double)

/-- Arithmetic in which points are scaled. -/
class Arithmetic (α : Type) extends Add α, Sub α, Mul α, Div α where
  /-- The number for an exact value. -/
  ofRat : Rat → α
  /-- Whether a number is less than another. -/
  below : α → α → Bool
  /-- The lesser of two numbers. -/
  least : α → α → α
  /-- The greater of two numbers. -/
  greatest : α → α → α

instance : Arithmetic Double where
  ofRat := Binary.round false
  below := Binary.below
  least := Binary.least
  greatest := Binary.greatest

instance : Arithmetic Rat where
  ofRat := id
  below x y := decide (x < y)
  least x y := if y < x then y else x
  greatest x y := if x < y then y else x

/-- A point of the plane. -/
structure Point2 (α : Type) where
  x : α
  y : α
  deriving DecidableEq

variable {α : Type} [Arithmetic α]

namespace Point2

/-- An operation on both coordinates. -/
def map {α β : Type} (f : α → β) (p : Point2 α) : Point2 β := ⟨f p.x, f p.y⟩

/-- An operation on the coordinates of two points. -/
def zipWith {α β γ : Type} (f : α → β → γ) (p : Point2 α) (q : Point2 β) : Point2 γ :=
  ⟨f p.x q.x, f p.y q.y⟩

end Point2

/-- How points are placed: the corner of the world that is shown, the factor, what is added on
either axis, and the size of the picture. -/
structure Scale (α : Type) where
  corner : Point2 α
  factor : α
  offset : Point2 α
  size : α

namespace Scale

open Arithmetic (ofRat below least greatest)

/-- The least extent that is given to an axis. -/
def leastSpan : Rat := 1 / 1000000000

/-- The extents of some points, none less than `leastSpan`. -/
def span (first : Point2 α) (rest : List (Point2 α)) : Point2 α :=
  let low := rest.foldl (Point2.zipWith least) first
  let high := rest.foldl (Point2.zipWith greatest) first
  (Point2.zipWith (· - ·) high low).map (greatest · (ofRat leastSpan))

/-- The margin: a share of the larger extent. -/
def margin (share : α) (extent : Point2 α) : α := greatest extent.x extent.y * share

/-- The scale that fits some points into a square. The factor is the one for the axis with the
larger extent, margins included. -/
def fit (size share : α) (first : Point2 α) (rest : List (Point2 α)) : Scale α :=
  let low := rest.foldl (Point2.zipWith least) first
  let extent := span first rest
  let pad := margin share extent
  let shown := extent.map (· + ofRat 2 * pad)
  let factors := shown.map (size / ·)
  let factor := if below factors.y factors.x then factors.y else factors.x
  { corner := low.map (· - pad)
    factor := factor
    offset := shown.map fun length => (size - length * factor) / ofRat 2
    size := size }

/-- Where a point is drawn. Rows of pictures are counted downwards. -/
def place (scale : Scale α) (p : Point2 α) : Point2 α :=
  let moved := Point2.zipWith (fun t o => t * scale.factor + o)
    (Point2.zipWith (· - ·) p scale.corner) scale.offset
  ⟨moved.x, scale.size - moved.y⟩

end Scale

end SceneSet.Preview
