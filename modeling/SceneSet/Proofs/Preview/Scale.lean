import Mathlib.Algebra.Order.Field.Basic
import Mathlib.Algebra.Order.Field.Rat
import Mathlib.Tactic.Linarith
import Mathlib.Tactic.NormNum
import Mathlib.Tactic.Ring
import SceneSet.Preview.Scale

/-!
# Points in the square

In exact arithmetic a scale puts every one of the points that it was fitted to into the square, at
least the margin away from the border, and keeps their shape: `Scale.fit_fits`. An axis with the
larger extent is filled, and the other is centred. The extents never vanish, because none is taken
to be less than `Scale.leastSpan`, and so nothing is divided by zero, even if all points are one.
That is said with `Checked` numbers, for which such a division has no result.
-/

namespace SceneSet.Preview

/-! ### Checked numbers -/

/-- An exact number, or none after a division by zero. -/
structure Checked where
  value? : Option ℚ

namespace Checked

/-- An operation on two numbers, if there are two. -/
def combine (operation : ℚ → ℚ → Option ℚ) (x y : Checked) : Checked :=
  ⟨x.value?.bind fun a => y.value?.bind fun b => operation a b⟩

instance : Arithmetic Checked where
  add := combine fun a b => some (a + b)
  sub := combine fun a b => some (a - b)
  mul := combine fun a b => some (a * b)
  div := combine fun a b => if b = 0 then none else some (a / b)
  ofRat value := ⟨some value⟩
  below x y := ((combine fun a b => if a < b then some a else none) x y).value?.isSome
  least := combine fun a b => some (Arithmetic.least a b)
  greatest := combine fun a b => some (Arithmetic.greatest a b)

/-- An exact number. -/
def exact (value : ℚ) : Checked := ⟨some value⟩

theorem exact_div {a b : ℚ} (h : b ≠ 0) : exact a / exact b = exact (a / b) := by
  show (⟨if b = 0 then none else some (a / b)⟩ : Checked) = _
  rw [if_neg h]
  rfl

theorem below_exact (a b : ℚ) :
    Arithmetic.below (exact a) (exact b) = Arithmetic.below a b := by
  show (if a < b then some a else none : Option ℚ).isSome = decide (a < b)
  by_cases h : a < b <;> simp [h]

end Checked

/-! ### Extents -/

theorem least_eq_min (a b : ℚ) : Arithmetic.least a b = min a b := by
  show (if b < a then b else a) = min a b
  split
  · rename_i h
    exact (min_eq_right h.le).symm
  · rename_i h
    exact (min_eq_left (not_lt.mp h)).symm

theorem greatest_eq_max (a b : ℚ) : Arithmetic.greatest a b = max a b := by
  show (if a < b then b else a) = max a b
  split
  · rename_i h
    exact (max_eq_right h.le).symm
  · rename_i h
    exact (max_eq_left (not_lt.mp h)).symm

namespace Scale

section Parts

variable {α : Type} [Arithmetic α]

/-- The least coordinates of some points. -/
def low (first : Point2 α) (rest : List (Point2 α)) : Point2 α :=
  rest.foldl (Point2.zipWith Arithmetic.least) first

/-- The margin around some points. -/
def pad (share : α) (first : Point2 α) (rest : List (Point2 α)) : α :=
  margin share (span first rest)

/-- The extents of what is shown, margins included. -/
def shown (share : α) (first : Point2 α) (rest : List (Point2 α)) : Point2 α :=
  (span first rest).map (· + Arithmetic.ofRat 2 * pad share first rest)

end Parts

/-- Coordinates are compared axis by axis. -/
theorem foldl_zipWith {α : Type} (op : α → α → α) (first : Point2 α) (rest : List (Point2 α)) :
    rest.foldl (Point2.zipWith op) first =
      ⟨(rest.map (·.x)).foldl op first.x, (rest.map (·.y)).foldl op first.y⟩ := by
  induction rest generalizing first with
  | nil => rfl
  | cons next rest ih =>
      rw [List.foldl_cons, ih]
      rfl

/-- A choice between two numbers that is in order with both, made again and again, leads to one of
the numbers that is in order with all of them. -/
theorem foldl_extreme {op : ℚ → ℚ → ℚ} {before : ℚ → ℚ → Prop} (hrefl : ∀ a, before a a)
    (htrans : ∀ {a b c}, before a b → before b c → before a c)
    (hop : ∀ a b, (op a b = a ∨ op a b = b) ∧ before (op a b) a ∧ before (op a b) b)
    (first : ℚ) (rest : List ℚ) :
    rest.foldl op first ∈ first :: rest ∧ ∀ t ∈ first :: rest, before (rest.foldl op first) t := by
  induction rest generalizing first with
  | nil => exact ⟨List.mem_cons_self, List.forall_mem_singleton.mpr (hrefl first)⟩
  | cons next rest ih =>
      obtain ⟨hmem, hbefore⟩ := ih (op first next)
      obtain ⟨hchoice, hfirst, hnext⟩ := hop first next
      rw [List.forall_mem_cons] at hbefore
      rw [List.foldl_cons]
      refine ⟨?_, List.forall_mem_cons.mpr ⟨htrans hbefore.1 hfirst,
        List.forall_mem_cons.mpr ⟨htrans hbefore.1 hnext, hbefore.2⟩⟩⟩
      rcases List.mem_cons.mp hmem with heq | hrest
      · rw [heq]
        rcases hchoice with h | h
        · rw [h]
          exact List.mem_cons_self
        · rw [h]
          exact List.mem_cons_of_mem _ List.mem_cons_self
      · exact List.mem_cons_of_mem _ (List.mem_cons_of_mem _ hrest)

/-- The least of some numbers. -/
theorem foldl_least (first : ℚ) (rest : List ℚ) :
    rest.foldl Arithmetic.least first ∈ first :: rest ∧
      ∀ t ∈ first :: rest, rest.foldl Arithmetic.least first ≤ t := by
  refine foldl_extreme le_refl le_trans (fun a b => ?_) first rest
  rw [least_eq_min]
  exact ⟨min_choice a b, min_le_left a b, min_le_right a b⟩

/-- The greatest of some numbers. -/
theorem foldl_greatest (first : ℚ) (rest : List ℚ) :
    rest.foldl Arithmetic.greatest first ∈ first :: rest ∧
      ∀ t ∈ first :: rest, t ≤ rest.foldl Arithmetic.greatest first := by
  refine @foldl_extreme Arithmetic.greatest (fun a b => b ≤ a) le_refl (fun h g => le_trans g h)
    (fun a b => ?_) first rest
  rw [greatest_eq_max]
  exact ⟨max_choice a b, le_max_left a b, le_max_right a b⟩

/-- Some numbers lie between the first and the last of them, and these are so far apart, unless
they are nearer than the least extent. -/
structure Spans (values : List ℚ) (start extent : ℚ) : Prop where
  starts : start ∈ values
  ends : ∃ stop ∈ values, extent = max (stop - start) leastSpan ∧ ∀ t ∈ values, t ≤ stop
  above : ∀ t ∈ values, start ≤ t

theorem Spans.leastSpan_le {values : List ℚ} {start extent : ℚ} (h : Spans values start extent) :
    leastSpan ≤ extent := by
  obtain ⟨stop, -, rfl, -⟩ := h.ends
  exact le_max_right _ _

theorem Spans.le_add {values : List ℚ} {start extent t : ℚ} (h : Spans values start extent)
    (ht : t ∈ values) : t ≤ start + extent := by
  obtain ⟨stop, -, rfl, hstop⟩ := h.ends
  have hmax := le_max_left (stop - start) leastSpan
  have hle := hstop t ht
  linarith

variable {size share : ℚ} {first : Point2 ℚ} {rest : List (Point2 ℚ)}

/-- Both axes are measured from the least coordinate to the greatest. -/
theorem spans_axes (first : Point2 ℚ) (rest : List (Point2 ℚ)) :
    Spans ((first :: rest).map (·.x)) (low first rest).x (span first rest).x ∧
      Spans ((first :: rest).map (·.y)) (low first rest).y (span first rest).y := by
  have haxis : ∀ (start : ℚ) (values : List ℚ), Spans (start :: values)
      (values.foldl Arithmetic.least start)
      (Arithmetic.greatest
        (values.foldl Arithmetic.greatest start - values.foldl Arithmetic.least start)
        (Arithmetic.ofRat leastSpan)) := by
    intro start values
    obtain ⟨hleast, habove⟩ := foldl_least start values
    obtain ⟨hgreatest, hbelow⟩ := foldl_greatest start values
    exact ⟨hleast, ⟨_, hgreatest, greatest_eq_max _ _, hbelow⟩, habove⟩
  unfold low span
  rw [foldl_zipWith, foldl_zipWith]
  exact ⟨haxis first.x (rest.map Point2.x), haxis first.y (rest.map Point2.y)⟩

/-! ### Placing points -/

/-- What a scale does with the points that it is fitted to. -/
structure Fits (size share : ℚ) (first : Point2 ℚ) (rest : List (Point2 ℚ)) (scale : Scale ℚ) :
    Prop where
  /-- The extents are those of the points, but not less than `leastSpan`. -/
  spans : Spans ((first :: rest).map (·.x)) (low first rest).x (span first rest).x ∧
    Spans ((first :: rest).map (·.y)) (low first rest).y (span first rest).y
  factor_pos : 0 < scale.factor
  pad_eq : pad share first rest = share * max (span first rest).x (span first rest).y
  /-- The points are in the square, and at least the margin away from its border. -/
  inside : ∀ p ∈ first :: rest,
    let distance := pad share first rest * scale.factor
    0 ≤ distance ∧ distance ≤ (scale.place p).x ∧ (scale.place p).x ≤ size - distance ∧
      distance ≤ (scale.place p).y ∧ (scale.place p).y ≤ size - distance
  /-- Both axes have the same factor. -/
  across : ∀ p q : Point2 ℚ,
    (scale.place p).x - (scale.place q).x = scale.factor * (p.x - q.x)
  /-- What is higher in the world is nearer to the first row. -/
  upwards : ∀ p q : Point2 ℚ,
    (scale.place p).y - (scale.place q).y = -(scale.factor * (p.y - q.y))
  /-- What is shown goes from a margin before the least coordinates to a margin after the greatest.
  It is as far from one border as from the opposite one. -/
  centred :
    let corner := (low first rest).map (· - pad share first rest)
    let opposite := Point2.zipWith (· + ·) corner (shown share first rest)
    (scale.place corner).x = size - (scale.place opposite).x ∧ 0 ≤ (scale.place corner).x ∧
      (scale.place opposite).y = size - (scale.place corner).y ∧ 0 ≤ (scale.place opposite).y
  /-- One axis is filled. -/
  filled : (shown share first rest).x * scale.factor = size ∨
    (shown share first rest).y * scale.factor = size

/-- On one axis: a coordinate with the margin before and behind it. -/
theorem placed_bounds {start extent margin factor size t : ℚ} (hbefore : start ≤ t)
    (hbehind : t ≤ start + extent) (hfactor : 0 < factor)
    (hfits : (extent + 2 * margin) * factor ≤ size) :
    margin * factor ≤ (t - (start - margin)) * factor + (size - (extent + 2 * margin) * factor) / 2 ∧
      (t - (start - margin)) * factor + (size - (extent + 2 * margin) * factor) / 2 ≤
        size - margin * factor := by
  have hlow : 0 ≤ (t - start) * factor := mul_nonneg (by linarith) hfactor.le
  have hhigh : 0 ≤ (start + extent - t) * factor := mul_nonneg (by linarith) hfactor.le
  constructor
  · linarith
  · linarith

/-- The lesser of two quotients fits both denominators and fills one of them. -/
theorem factor_bounds {size first second : ℚ} (hsize : 0 < size) (hfirst : 0 < first)
    (hsecond : 0 < second) :
    let factor := if size / second < size / first then size / second else size / first
    0 < factor ∧ first * factor ≤ size ∧ second * factor ≤ size ∧
      (first * factor = size ∨ second * factor = size) := by
  have hfirstExact : first * (size / first) = size := mul_div_cancel₀ size hfirst.ne'
  have hsecondExact : second * (size / second) = size := mul_div_cancel₀ size hsecond.ne'
  dsimp only
  split
  · rename_i hlt
    refine ⟨div_pos hsize hsecond, ?_, hsecondExact.le, .inr hsecondExact⟩
    exact (mul_le_mul_of_nonneg_left hlt.le hfirst.le).trans hfirstExact.le
  · rename_i hle
    refine ⟨div_pos hsize hfirst, hfirstExact.le, ?_, .inl hfirstExact⟩
    exact (mul_le_mul_of_nonneg_left (not_lt.mp hle) hsecond.le).trans hsecondExact.le

theorem leastSpan_pos : 0 < leastSpan := by norm_num [leastSpan]

/-- Nothing that is shown has no extent. -/
theorem shown_pos (hshare : 0 ≤ share) (first : Point2 ℚ) (rest : List (Point2 ℚ)) :
    pad share first rest = share * max (span first rest).x (span first rest).y ∧
      0 ≤ pad share first rest ∧ 0 < (shown share first rest).x ∧
      0 < (shown share first rest).y := by
  obtain ⟨hx, hy⟩ := spans_axes first rest
  have hxPos := leastSpan_pos.trans_le hx.leastSpan_le
  have hyPos := leastSpan_pos.trans_le hy.leastSpan_le
  have hpad : pad share first rest = share * max (span first rest).x (span first rest).y := by
    unfold pad margin
    rw [greatest_eq_max]
    exact mul_comm _ _
  have hpadNonneg : 0 ≤ pad share first rest := by
    rw [hpad]
    exact mul_nonneg hshare (le_max_of_le_left hxPos.le)
  refine ⟨hpad, hpadNonneg, ?_, ?_⟩
  · show 0 < (span first rest).x + 2 * pad share first rest
    linarith
  · show 0 < (span first rest).y + 2 * pad share first rest
    linarith

/-- The factor is that of the axis with the larger extent. -/
theorem factor_fit (size share : ℚ) (first : Point2 ℚ) (rest : List (Point2 ℚ)) :
    (fit size share first rest).factor =
      if size / (shown share first rest).y < size / (shown share first rest).x then
        size / (shown share first rest).y
      else size / (shown share first rest).x := by
  show (if decide (_ < _) = true then _ else _) = _
  simp only [decide_eq_true_eq]
  rfl

/-- Where a point is placed, axis by axis. -/
theorem place_fit (size share : ℚ) (first : Point2 ℚ) (rest : List (Point2 ℚ)) (p : Point2 ℚ) :
    let scale := fit size share first rest
    scale.place p =
      ⟨(p.x - ((low first rest).x - pad share first rest)) * scale.factor +
          (size - (shown share first rest).x * scale.factor) / 2,
        size - ((p.y - ((low first rest).y - pad share first rest)) * scale.factor +
          (size - (shown share first rest).y * scale.factor) / 2)⟩ := rfl

/-- The scale of some points fits them into the square. -/
theorem fits_fit (hsize : 0 < size) (hshare : 0 ≤ share) (first : Point2 ℚ)
    (rest : List (Point2 ℚ)) : Fits size share first rest (fit size share first rest) := by
  obtain ⟨hpad, hpadNonneg, hxShown, hyShown⟩ := shown_pos hshare first rest
  obtain ⟨hxSpans, hySpans⟩ := spans_axes first rest
  obtain ⟨hfactor, hxFits, hyFits, hfilled⟩ := factor_bounds hsize hxShown hyShown
  rw [← factor_fit] at hfactor hxFits hyFits hfilled
  have hplace := place_fit size share first rest
  dsimp only at hplace
  have hxWhole : (shown share first rest).x = (span first rest).x + 2 * pad share first rest := rfl
  have hyWhole : (shown share first rest).y = (span first rest).y + 2 * pad share first rest := rfl
  refine ⟨⟨hxSpans, hySpans⟩, hfactor, hpad, fun p hp => ?_, fun p q => ?_, fun p q => ?_, ?_,
    hfilled⟩
  · have hxMem : p.x ∈ (first :: rest).map (·.x) := List.mem_map_of_mem hp
    have hyMem : p.y ∈ (first :: rest).map (·.y) := List.mem_map_of_mem hp
    obtain ⟨hleft, hright⟩ :=
      placed_bounds (hxSpans.above _ hxMem) (hxSpans.le_add hxMem) hfactor (hxWhole ▸ hxFits)
    obtain ⟨hbottom, htop⟩ :=
      placed_bounds (hySpans.above _ hyMem) (hySpans.le_add hyMem) hfactor (hyWhole ▸ hyFits)
    rw [hplace, hxWhole, hyWhole]
    refine ⟨mul_nonneg hpadNonneg hfactor.le, hleft, hright, ?_, ?_⟩
    · linarith
    · linarith
  · rw [hplace, hplace]
    ring
  · rw [hplace, hplace]
    ring
  · dsimp only [Point2.zipWith, Point2.map]
    rw [hplace, hplace]
    refine ⟨?_, ?_, ?_, ?_⟩
    · ring
    · linarith
    · ring
    · linarith

/-! ### No division by zero -/

/-- A scale with other numbers. -/
def map {α β : Type} (f : α → β) (scale : Scale α) : Scale β where
  corner := scale.corner.map f
  factor := f scale.factor
  offset := scale.offset.map f
  size := f scale.size

/-- A choice between coordinates is the same with checked numbers. -/
theorem foldl_exact {op : ℚ → ℚ → ℚ} {checked : Checked → Checked → Checked}
    (h : ∀ a b, checked (.exact a) (.exact b) = .exact (op a b)) (first : Point2 ℚ)
    (rest : List (Point2 ℚ)) :
    (rest.map (·.map Checked.exact)).foldl (Point2.zipWith checked) (first.map .exact) =
      (rest.foldl (Point2.zipWith op) first).map .exact := by
  rw [List.foldl_map]
  refine List.foldl_hom (Point2.map Checked.exact) fun p q => ?_
  unfold Point2.zipWith Point2.map
  rw [h, h]

theorem span_exact (first : Point2 ℚ) (rest : List (Point2 ℚ)) :
    span (first.map Checked.exact) (rest.map (·.map .exact)) = (span first rest).map .exact := by
  unfold span
  rw [@foldl_exact Arithmetic.least Arithmetic.least (fun _ _ => rfl),
    @foldl_exact Arithmetic.greatest Arithmetic.greatest (fun _ _ => rfl)]
  rfl

theorem pad_exact (share : ℚ) (first : Point2 ℚ) (rest : List (Point2 ℚ)) :
    pad (.exact share) (first.map Checked.exact) (rest.map (·.map .exact)) =
      .exact (pad share first rest) := by
  unfold pad
  rw [span_exact]
  rfl

theorem shown_exact (share : ℚ) (first : Point2 ℚ) (rest : List (Point2 ℚ)) :
    shown (.exact share) (first.map Checked.exact) (rest.map (·.map .exact)) =
      (shown share first rest).map .exact := by
  unfold shown
  rw [span_exact, pad_exact]
  rfl

/-- A scale in terms of what is shown. -/
theorem fit_eq {α : Type} [Arithmetic α] (size share : α) (first : Point2 α)
    (rest : List (Point2 α)) :
    let extent := shown share first rest
    let factor := if Arithmetic.below (size / extent.y) (size / extent.x) then size / extent.y
      else size / extent.x
    fit size share first rest =
      { corner := (low first rest).map (· - pad share first rest)
        factor := factor
        offset := extent.map fun length => (size - length * factor) / Arithmetic.ofRat 2
        size := size } := rfl

/-- With checked numbers the same scale is found: no divisor is zero. -/
theorem fit_exact (hshare : 0 ≤ share) (size : ℚ) (first : Point2 ℚ) (rest : List (Point2 ℚ)) :
    fit (.exact size) (.exact share) (first.map Checked.exact) (rest.map (·.map .exact)) =
      (fit size share first rest).map .exact := by
  obtain ⟨-, -, hxShown, hyShown⟩ := shown_pos hshare first rest
  have hlow : low (first.map Checked.exact) (rest.map (·.map .exact)) =
      (low first rest).map .exact := foldl_exact (fun _ _ => rfl) first rest
  rw [fit_eq, fit_eq size share first rest, hlow, pad_exact, shown_exact]
  unfold Point2.map map
  dsimp only
  rw [Checked.exact_div hxShown.ne', Checked.exact_div hyShown.ne', Checked.below_exact, ← apply_ite]
  -- the other divisor is two
  rfl

/-- In exact arithmetic nothing is divided by zero, and the points are fitted into the square. -/
theorem fit_fits (hsize : 0 < size) (hshare : 0 ≤ share) (first : Point2 ℚ)
    (rest : List (Point2 ℚ)) :
    Fits size share first rest (fit size share first rest) ∧
      ∀ p : Point2 ℚ,
        (fit (.exact size) (.exact share) (first.map Checked.exact) (rest.map (·.map .exact))).place
          (p.map .exact) = ((fit size share first rest).place p).map .exact := by
  refine ⟨fits_fit hsize hshare first rest, fun p => ?_⟩
  rw [fit_exact hshare]
  rfl

/-- Three points on a line, two of which are one. Their least extents are taken for the height, so
that the line lies in the middle of the rows, with a margin that is as wide as the line is long. -/
theorem fit_fits_line :
    let first : Point2 ℚ := ⟨0, 5⟩
    let rest : List (Point2 ℚ) := [⟨2, 5⟩, ⟨0, 5⟩]
    let scale := fit (90 : ℚ) 1 first rest
    (0 : ℚ) < 90 ∧ (0 : ℚ) ≤ 1 ∧ pad 1 first rest = 2 ∧ scale.factor = 15 ∧
      (∀ p ∈ first :: rest, 30 ≤ (scale.place p).x ∧ (scale.place p).x ≤ 60 ∧
        30 ≤ (scale.place p).y ∧ (scale.place p).y ≤ 60) ∧
      (fit (.exact 90) (.exact 1) (first.map Checked.exact) (rest.map (·.map .exact))).place
        ⟨.exact 2, .exact 5⟩ = ⟨.exact 60, .exact (45 + 3 / 400000000)⟩ := by
  intro first rest scale
  have hsize : (0 : ℚ) < 90 := by norm_num
  have hshare : (0 : ℚ) ≤ 1 := by norm_num
  have hpad : pad 1 first rest = 2 := by decide +kernel
  have hfactor : scale.factor = 15 := by decide +kernel
  have hplaced : scale.place ⟨2, 5⟩ = ⟨60, 45 + 3 / 400000000⟩ := by decide +kernel
  obtain ⟨hfits, hchecked⟩ := fit_fits hsize hshare first rest
  refine ⟨hsize, hshare, hpad, hfactor, fun p hp => ?_, ?_⟩
  · have hinside := hfits.inside p hp
    dsimp only at hinside
    rw [hpad, hfactor] at hinside
    norm_num at hinside
    exact hinside
  · exact (hchecked ⟨2, 5⟩).trans (congrArg (Point2.map Checked.exact) hplaced)

end Scale

end SceneSet.Preview
