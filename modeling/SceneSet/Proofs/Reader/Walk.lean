import SceneSet.Proofs.Reader.Places
import SceneSet.Proofs.Reader.Relocation

/-!
# Walks through a buffer

What all readers have in common is shown once, for the primitive ones and for chains of readers. A
`Walk` puts two buffers side by side that have some bytes in common. `Walk.Follows` says what a
reader does wherever it starts in the first one: it goes forward and stays in the buffer, gives what
is stored there, meets only certain faults, and does the same in the other buffer, as long as what
it looks at is there too. The offsets that it tells are moved by the distance of the two places.

How far a reader looks is known from where it stops, but for a name in a field: the name may run
over the end of the field, so that its NUL has to be among the bytes in common (`Walk.Named`).
-/

namespace SceneSet

open Bytes (slice signedAt numberAt pointAt FirstNul TextAt)

/-- Two buffers with some bytes in common: what `data` has from `origin` up to `kept` is in the
other buffer too, between `front` and `back`. The faults that readers of `data` may end with are
those that are `met`: any property of faults will do that they have where the buffer ends too early,
and where a negative number is stored. -/
structure Walk (data : Bytes) where
  origin : Nat
  kept : Nat
  front : Bytes
  back : Bytes
  met : Fault → Prop
  truncated : ∀ {offset : Nat} {size : Int} {what : String}, offset ≤ data.length →
    data.length < offset + size → met (.truncated offset size data.length what)
  negativeCount : ∀ {offset : Nat} {what : String}, offset + 4 ≤ data.length →
    signedAt data offset < 0 → met (.negativeCount what (signedAt data offset) offset)

namespace Walk

variable {data : Bytes}

/-- The bytes of `data` between others, with nothing said about faults. -/
def between (data : Bytes) (origin kept : Nat) (front back : Bytes) : Walk data where
  origin := origin
  kept := kept
  front := front
  back := back
  met _ := True
  truncated _ _ := trivial
  negativeCount _ _ := trivial

/-- A buffer beside itself. -/
def alone (data : Bytes) : Walk data := between data 0 data.length [] []

section Places

variable (walk : Walk data)

/-- The other buffer. -/
def buffer : Bytes := walk.front ++ slice data walk.origin (walk.kept - walk.origin) ++ walk.back

/-- Where a place is in the other buffer. -/
def place (start : Nat) : Nat := start - walk.origin + walk.front.length

/-- How far the places of both buffers lie apart. -/
def distance : Int := walk.front.length - walk.origin

/-- The cursor in the other buffer. -/
def cursor (start : Nat) : Cursor := .within walk.buffer (walk.place start)

/-- A name that is looked for at a place has its NUL among the bytes in common. -/
def Named (start : Nat) : Prop := ∀ nul, FirstNul data start nul → nul < walk.kept

/-- Blocks of some size may be asked for: the size is not negative, or it does not matter which
faults are met. -/
def Allows (size : Int) : Prop := 0 ≤ size ∨ ∀ fault, walk.met fault

end Places

variable {walk : Walk data} {start : Nat}

/-! ### The bytes in common -/

/-- A NUL is among the bytes in common if they go up to the end of the buffer. -/
theorem named_of_whole (h : data.length ≤ walk.kept) (start : Nat) : walk.Named start :=
  fun _ hnul => Nat.lt_of_lt_of_le hnul.lt_length h

theorem named_alone (data : Bytes) (start : Nat) : (alone data).Named start :=
  named_of_whole (Nat.le_refl data.length) start

theorem named_of_firstNul (h : ∃ nul, FirstNul data start nul ∧ nul < walk.kept) :
    walk.Named start := by
  obtain ⟨nul, hnul, hkept⟩ := h
  rintro other hother
  rwa [hother.unique hnul]

section Common

variable (horigin : walk.origin ≤ start)

include horigin

theorem place_eq : (walk.place start : Int) = start + walk.distance := by
  unfold place distance
  omega

theorem place_add (size : Nat) : walk.place start + size = walk.place (start + size) := by
  unfold place
  omega

/-- What follows a place in the other buffer: the rest of the bytes in common, and then others. -/
theorem drop_buffer (hkept : start ≤ walk.kept) (hstart : start ≤ data.length) :
    walk.buffer.drop (walk.place start) = slice data start (walk.kept - start) ++ walk.back := by
  have hcommon : (slice data walk.origin (walk.kept - walk.origin)).drop (start - walk.origin) =
      slice data start (walk.kept - start) := by
    unfold slice
    rw [List.drop_take, List.drop_drop, Nat.add_sub_cancel' horigin, Nat.sub_sub,
      Nat.add_sub_cancel' horigin]
  unfold buffer place
  rw [List.append_assoc, Nat.add_comm, List.drop_length_add_append,
    List.drop_append_of_le_length, hcommon]
  rw [slice, List.length_take, List.length_drop]
  omega

/-- If the bytes in common go up to the ends of both buffers, the ends lie apart as places do. -/
theorem length_buffer (hwhole : data.length ≤ walk.kept) (hback : walk.back = [])
    (hstart : start ≤ data.length) :
    (walk.buffer.length : Int) = data.length + walk.distance := by
  simp only [buffer, distance, hback, slice, List.append_nil, List.length_append, List.length_take,
    List.length_drop]
  omega

/-- The cursor in the other buffer is a moved one if both buffers end with the bytes in common. -/
theorem moved_cursor (hwhole : data.length ≤ walk.kept) (hback : walk.back = [])
    (hstart : start ≤ data.length) :
    (Cursor.within data start).Moved walk.distance (walk.cursor start) where
  offset := place_eq horigin
  rest := by
    show walk.buffer.drop (walk.place start) = data.drop start
    rw [drop_buffer horigin (Nat.le_trans hstart hwhole) hstart, hback, List.append_nil, slice,
      List.take_of_length_le]
    rw [List.length_drop]
    omega

/-- A block of the bytes in common is in the other buffer too. -/
theorem claim_cursor {size : Nat} (hkept : start + size ≤ walk.kept)
    (hinside : start + size ≤ data.length) (what : String) :
    Reader.claim size what (walk.cursor start) =
      .ok (slice data start size) (walk.cursor (start + size)) := by
  have hdrop := drop_buffer horigin (Nat.le_of_add_right_le hkept) (Nat.le_of_add_right_le hinside)
  have hblock : slice data start size = (slice data start (walk.kept - start)).take size := by
    unfold slice
    rw [List.take_take, Nat.min_eq_left (by omega)]
  have hlength : (slice data start size).length = size := by
    rw [slice, List.length_take, List.length_drop]
    omega
  have hsplit : walk.buffer.drop (walk.place start) =
      slice data start size ++ ((slice data start (walk.kept - start)).drop size ++ walk.back) := by
    rw [hdrop, hblock, ← List.append_assoc, List.take_append_drop]
  have hclaim := Reader.claim_append (slice data start size)
    ((slice data start (walk.kept - start)).drop size ++ walk.back) (walk.place start) what
  rw [← hsplit, hlength] at hclaim
  refine hclaim.trans ?_
  unfold cursor Cursor.within
  rw [← place_add horigin, ← List.drop_drop, hsplit, List.drop_left' hlength]

end Common

/-! ### What readers do -/

section Follows

variable {α β γ δ : Type}

/-- What a reader did in the first buffer, and what another one did in the second. It has gone
forward and stayed in the buffer. A value is what is `stored`, and it is given in the second buffer
too, as `move` tells, if the reader has stopped in front of `kept`. A fault is one that may be
`met`, and it is met in the second buffer too if the bytes in common go up to the end of the first
one; if it is that the buffer is too short, they have to go up to the end of both. -/
inductive Gives (walk : Walk data) (start : Nat) (move : α → β) (stored : α → Nat → Prop) :
    EStateM.Result Fault Cursor α → EStateM.Result Fault Cursor β → Prop where
  | ok {value : α} {stop : Nat} {result : EStateM.Result Fault Cursor β} :
      start ≤ stop → stop ≤ data.length → stored value stop →
      (stop ≤ walk.kept → result = .ok (move value) (walk.cursor stop)) →
      Gives walk start move stored (.ok value (.within data stop)) result
  | error {fault : Fault} {stop : Nat} {result : EStateM.Result Fault Cursor β} :
      start ≤ stop → stop ≤ data.length → walk.met fault →
      (data.length ≤ walk.kept → (fault.kind = .truncated → walk.back = []) →
        ∃ other, fault.Moved walk.distance other ∧ result = .error other (walk.cursor stop)) →
      Gives walk start move stored (.error fault (.within data stop)) result

/-- Two readers do what `Gives` says if they start at a place of the bytes in common. -/
def Follows (walk : Walk data) (start : Nat) (move : α → β) (stored : α → Nat → Prop)
    (first : Reader α) (second : Reader β) : Prop :=
  walk.origin ≤ start → start ≤ data.length →
    walk.Gives start move stored (first (.within data start)) (second (walk.cursor start))

namespace Follows

variable {move : α → β} {stored : α → Nat → Prop} {first : Reader α} {second : Reader β}
  {further : γ → δ} {final : γ → Nat → Prop}

/-- What is known of a value that was read. -/
theorem of_ok (h : walk.Follows start move stored first second) (horigin : walk.origin ≤ start)
    (hstart : start ≤ data.length) {value : α} {after : Cursor}
    (hrun : first (.within data start) = .ok value after) :
    ∃ stop, after = .within data stop ∧ start ≤ stop ∧ stop ≤ data.length ∧ stored value stop ∧
      (stop ≤ walk.kept → second (walk.cursor start) = .ok (move value) (walk.cursor stop)) := by
  have hgives := h horigin hstart
  rw [hrun] at hgives
  cases hgives with
  | ok hforward hinside hstored hother =>
      exact ⟨_, rfl, hforward, hinside, hstored, hother⟩

/-- What is known of a fault that was met. -/
theorem of_error (h : walk.Follows start move stored first second) (horigin : walk.origin ≤ start)
    (hstart : start ≤ data.length) {fault : Fault} {after : Cursor}
    (hrun : first (.within data start) = .error fault after) :
    ∃ stop, after = .within data stop ∧ start ≤ stop ∧ stop ≤ data.length ∧ walk.met fault ∧
      (data.length ≤ walk.kept → (fault.kind = .truncated → walk.back = []) →
        ∃ other, fault.Moved walk.distance other ∧
          second (walk.cursor start) = .error other (walk.cursor stop)) := by
  have hgives := h horigin hstart
  rw [hrun] at hgives
  cases hgives with
  | error hforward hinside hmet hother => exact ⟨_, rfl, hforward, hinside, hmet, hother⟩

/-! ### Chains -/

theorem pure {value : α} {other : β} (hother : other = move value) (h : stored value start) :
    walk.Follows start move stored (Pure.pure value) (Pure.pure other) := by
  intro _ hstart
  exact .ok (Nat.le_refl _) hstart h fun _ => by rw [hother]; rfl

theorem mono {weaker : α → Nat → Prop} (h : walk.Follows start move stored first second)
    (hweaker : ∀ value stop, stored value stop → weaker value stop) :
    walk.Follows start move weaker first second := by
  intro horigin hstart
  have hgives := h horigin hstart
  generalize first (.within data start) = result at hgives ⊢
  cases hgives with
  | ok hforward hinside hstored hother =>
      exact .ok hforward hinside (hweaker _ _ hstored) hother
  | error hforward hinside hmet hother => exact .error hforward hinside hmet hother

theorem throw {fault other : Fault} (hmet : start ≤ data.length → walk.met fault)
    (hmoved : fault.Moved walk.distance other) :
    walk.Follows start move stored (MonadExcept.throw fault) (MonadExcept.throw other) := by
  intro _ hstart
  exact .error (Nat.le_refl _) hstart (hmet hstart) fun _ _ => ⟨other, hmoved, rfl⟩

/-- The second step of a chain starts where the first one has stopped, and may count on what that
has found. -/
theorem bind {next : α → Reader γ} {other : β → Reader δ}
    (h : walk.Follows start move stored first second)
    (hnext : ∀ value middle, stored value middle →
      walk.Follows middle further final (next value) (other (move value))) :
    walk.Follows start further final (first >>= next) (second >>= other) := by
  intro horigin hstart
  have hfirst := h horigin hstart
  show Gives _ _ _ _ (EStateM.bind first next _) (EStateM.bind second other _)
  unfold EStateM.bind
  generalize first (.within data start) = left at hfirst ⊢
  generalize second (walk.cursor start) = right at hfirst ⊢
  cases hfirst with
  | error hforward hinside hmet hother =>
      refine .error hforward hinside hmet fun hwhole hback => ?_
      obtain ⟨moved, hmoved, rfl⟩ := hother hwhole hback
      exact ⟨moved, hmoved, rfl⟩
  | @ok value middle _ hforward hinside hstored hother =>
      have hrest := hnext value middle hstored (Nat.le_trans horigin hforward) hinside
      dsimp only
      generalize next value (.within data middle) = result at hrest ⊢
      cases hrest with
      | ok hfurther hend hfinal hagain =>
          refine .ok (Nat.le_trans hforward hfurther) hend hfinal fun hkept => ?_
          rw [hother (Nat.le_trans hfurther hkept)]
          exact hagain hkept
      | error hfurther hend hmet hagain =>
          refine .error (Nat.le_trans hforward hfurther) hend hmet fun hwhole hback => ?_
          rw [hother (Nat.le_trans hinside hwhole)]
          exact hagain hwhole hback

/-- A first step that gives the same in both buffers. -/
theorem bind_same {first second : Reader α} {next : α → Reader γ} {other : α → Reader δ}
    (h : walk.Follows start id stored first second)
    (hnext : ∀ value middle, stored value middle →
      walk.Follows middle further final (next value) (other value)) :
    walk.Follows start further final (first >>= next) (second >>= other) :=
  h.bind hnext

/-- The offset is what the buffers differ in. -/
theorem offset_bind {next : Nat → Reader γ} {other : Nat → Reader δ}
    (h : (walk.place start : Int) = start + walk.distance →
      walk.Follows start further final (next start) (other (walk.place start))) :
    walk.Follows start further final (Reader.offset >>= next) (Reader.offset >>= other) :=
  fun horigin hstart => h (place_eq horigin) horigin hstart

theorem ite {condition : Prop} [Decidable condition] {yes no : Reader α}
    {otherYes otherNo : Reader β}
    (hyes : condition → walk.Follows start move stored yes otherYes)
    (hno : ¬ condition → walk.Follows start move stored no otherNo) :
    walk.Follows start move stored (if condition then yes else no)
      (if condition then otherYes else otherNo) := by
  split
  · exact hyes ‹_›
  · exact hno ‹_›

/-- Values that are read one after the other are stored one right behind the other. -/
theorem repeated {stored : Nat → α → Nat → Prop}
    (h : ∀ place, walk.Follows place move (stored place) first second) (n : Nat) :
    walk.Follows start (List.map move) (fun values stop => values.length = n ∧
      Tiled stored start values stop) (SceneSet.repeated first n) (SceneSet.repeated second n) := by
  induction n generalizing start with
  | zero => exact pure rfl ⟨rfl, .nil start⟩
  | succ n ih =>
      refine (h start).bind fun value middle hvalue => ih.bind fun values stop hvalues => ?_
      exact pure rfl ⟨congrArg (· + 1) hvalues.1, .cons hvalue hvalues.2⟩

/-- A reader that does not move what it gives does the same in both buffers. -/
theorem same {move : α → α} {second : Reader α} (h : walk.Follows start move stored first second)
    (hmove : ∀ value, move value = value) : walk.Follows start id stored first second := by
  have hid : move = id := funext hmove
  rwa [hid] at h

/-- A NUL that a reader has to find behind a place, before it can stop, is enough for the name that
it looks for there. -/
theorem of_named (named : Nat)
    (h : ∀ kept, Named { walk with kept := kept } named →
      Follows { walk with kept := kept } start move stored first second)
    (hnul : ∀ value stop, stored value stop →
      ∃ nul, named ≤ nul ∧ data[nul]? = some 0 ∧ nul < stop) :
    walk.Follows start move stored first second := by
  intro horigin hstart
  by_cases hnamed : walk.Named named
  · exact h walk.kept hnamed horigin hstart
  · -- the first NUL is behind the bytes in common, and so is the place where the reader stops
    simp only [Named, not_forall, Nat.not_lt] at hnamed
    obtain ⟨found, hfound, hkept⟩ := hnamed
    have hlt := hfound.lt_length
    have hwhole := h data.length (named_of_whole (Nat.le_refl _) named) horigin hstart
    generalize first (.within data start) = result at hwhole ⊢
    cases hwhole with
    | ok hforward hinside hstored =>
        obtain ⟨nul, hle, hzero, hbefore⟩ := hnul _ _ hstored
        have hfirst := hfound.le_of_nul hle hzero
        exact .ok hforward hinside hstored fun hstop => by omega
    | error hforward hinside hmet =>
        exact .error hforward hinside hmet fun hend _ => by omega

/-! ### Fields -/

theorem claim {size : Int} (hsize : walk.Allows size) (what : String) :
    walk.Follows start id
      (fun block stop => 0 ≤ size ∧ stop = start + size.toNat ∧ block = slice data start size.toNat)
      (Reader.claim size what) (Reader.claim size what) := by
  intro horigin hstart
  by_cases hsign : size < 0
  · rw [Reader.claim_of_neg hsign, Reader.claim_of_neg hsign]
    have hmet := hsize.resolve_left (Int.not_le.mpr hsign)
    exact .error (Nat.le_refl _) hstart (hmet _) fun _ _ =>
      ⟨_, .negativeSize what size (place_eq horigin), rfl⟩
  · obtain ⟨size, rfl⟩ := Int.eq_ofNat_of_zero_le (Int.not_lt.mp hsign)
    rw [Reader.claim_within hstart]
    split
    · rename_i hfits
      refine .ok (Nat.le_add_right _ _) hfits ⟨Int.natCast_nonneg size, rfl, rfl⟩ fun hkept => ?_
      exact claim_cursor horigin hkept hfits what
    · refine .error (Nat.le_refl _) hstart (walk.truncated hstart (by omega)) fun hwhole hback => ?_
      have hlength := length_buffer horigin hwhole (hback rfl) hstart
      have hplace : (walk.place start : Int) = start + walk.distance := place_eq horigin
      refine ⟨_, .truncated size what hplace hlength, ?_⟩
      unfold cursor
      rw [Reader.claim_within (by omega), if_neg (by omega)]

theorem int32 : walk.Follows start id
    (fun value stop => stop = start + 4 ∧ value = signedAt data start)
    Reader.int32 Reader.int32 := by
  refine (claim (.inl (by decide)) _).bind_same ?_
  rintro _ _ ⟨-, rfl, rfl⟩
  exact pure rfl ⟨rfl, rfl⟩

theorem float32 : walk.Follows start id
    (fun value stop => stop = start + 4 ∧ value = numberAt data start)
    Reader.float32 Reader.float32 := by
  refine (claim (.inl (by decide)) _).bind_same ?_
  rintro _ _ ⟨-, rfl, rfl⟩
  exact pure rfl ⟨rfl, rfl⟩

theorem bool8 : walk.Follows start id
    (fun value stop => stop = start + 1 ∧
      ∃ byte, data[start]? = some byte ∧ value = (byte != 0))
    Reader.bool8 Reader.bool8 := by
  refine (claim (.inl (by decide)) _).bind_same ?_
  rintro _ _ ⟨-, rfl, rfl⟩
  intro horigin hend
  have hlt : start < data.length := hend
  have hblock : slice data start (1 : Int).toNat = [data[start]] := by
    show (data.drop start).take 1 = _
    rw [List.drop_eq_getElem_cons hlt]
    rfl
  refine pure rfl ⟨rfl, data[start], List.getElem?_eq_getElem hlt, ?_⟩ horigin hend
  rw [hblock, Bytes.littleEndian_singleton_bne]

theorem bytes {size : Int} (hsize : walk.Allows size) : walk.Follows start id
    (fun block stop => stop = start + size.toNat ∧ block = slice data start size.toNat)
    (Reader.bytes size) (Reader.bytes size) :=
  (claim hsize _).mono fun _ _ h => h.2

theorem skip {size : Int} (hsize : walk.Allows size) : walk.Follows start id
    (fun _ stop => stop = start + size.toNat) (Reader.skip size) (Reader.skip size) := by
  refine (claim hsize _).bind_same ?_
  rintro _ _ ⟨-, rfl, -⟩
  exact pure rfl rfl

/-- The word that is refused is the one at the start. -/
theorem count (what : String) : walk.Follows start id
    (fun (n : Nat) stop => stop = start + 4 ∧ signedAt data start = n)
    (Reader.count what) (Reader.count what) := by
  refine offset_bind fun hplace => ?_
  refine int32.bind_same ?_
  rintro _ _ ⟨rfl, rfl⟩
  refine ite (fun hnegative => ?_) fun hsign => ?_
  · exact throw (fun hend => walk.negativeCount hend hnegative) (.negativeCount what _ hplace)
  · exact pure rfl ⟨rfl, (Int.toNat_of_nonneg (Int.not_lt.mp hsign)).symm⟩

/-- The cursor stays. If no NUL follows, then the one that is missing would be behind the end. -/
theorem untilNul (hname : walk.Named start) : walk.Follows start id
    (fun name stop => stop = start ∧ FirstNul data start (start + name.length) ∧
      name = slice data start name.length)
    Reader.untilNul Reader.untilNul := by
  intro horigin hstart
  rcases Reader.untilNul_within hstart with ⟨name, hread⟩ | ⟨hnone, hread⟩
  · obtain ⟨-, hfirst, hslice⟩ := Reader.firstNul_of_untilNul hread
    rw [hread]
    refine .ok (Nat.le_refl _) hstart ⟨rfl, hfirst, hslice⟩ fun hkept => ?_
    have hnul := hname _ hfirst
    obtain ⟨-, hplain, rest, hrest⟩ := Reader.untilNul_eq_ok.mp hread
    have hdrop : data.drop start = name ++ 0 :: rest := hrest
    refine Reader.untilNul_eq_ok.mpr ⟨rfl, hplain,
      rest.take (walk.kept - start - name.length - 1) ++ walk.back, ?_⟩
    show walk.buffer.drop (walk.place start) = _
    rw [drop_buffer horigin hkept hstart, slice, hdrop, List.take_append,
      List.take_of_length_le (by omega), List.take_cons (by omega), List.append_assoc]
    rfl
  · rw [hread]
    refine .error (Nat.le_refl _) hstart (walk.truncated hstart (by omega)) fun hwhole hback => ?_
    have hplace : (walk.place start : Int) = start + walk.distance := place_eq horigin
    have hlength := length_buffer horigin hwhole (hback rfl) hstart
    have hend : walk.place start ≤ walk.buffer.length := by omega
    rcases Reader.untilNul_within hend with ⟨name, hother⟩ | ⟨-, hother⟩
    · -- the same bytes follow in both buffers, so the NUL would be there in the first one too
      obtain ⟨-, hplain, rest, hrest⟩ := Reader.untilNul_eq_ok.mp hother
      have hsame := (moved_cursor horigin hwhole (hback rfl) hstart).rest
      have hfound := Reader.untilNul_eq_ok.mpr ⟨rfl, hplain, rest, hsame.symm.trans hrest⟩
      rw [hread] at hfound
      cases hfound
    · refine ⟨_, ?_, hother⟩
      rw [show (walk.buffer.length : Int) - walk.place start = data.length - start by omega]
      exact .truncated _ _ hplace hlength

/-- A text ends at the first NUL, and the reader behind the field. -/
theorem fixedString {size : Int} (hsize : walk.Allows size) (hname : walk.Named start) :
    walk.Follows start id (fun text stop => stop = start + size.toNat ∧ TextAt data start text)
      (Reader.fixedString size) (Reader.fixedString size) := by
  refine offset_bind fun hplace => ite (fun hnegative => ?_) fun _ => (untilNul hname).bind_same ?_
  · have hmet := hsize.resolve_left (Int.not_le.mpr hnegative)
    exact throw (fun _ => hmet _) (.negativeLength size hplace)
  · rintro name _ ⟨rfl, hfirst, hslice⟩
    refine (claim hsize _).bind_same ?_
    rintro _ _ ⟨-, rfl, -⟩
    exact pure rfl ⟨rfl, _, hfirst, by rw [Nat.add_sub_cancel_left, ← hslice]⟩

/-- A text without padding takes as many bytes as it has characters, and the NUL. -/
theorem cString : walk.Follows start id
    (fun text stop => stop = start + (text.length + 1) ∧ TextAt data start text)
    Reader.cString Reader.cString := by
  refine of_named start (fun kept hname => (untilNul hname).bind_same ?_) ?_
  · rintro name _ ⟨rfl, hfirst, hslice⟩
    refine (claim (.inl (by omega)) _).bind_same ?_
    rintro _ _ ⟨-, rfl, -⟩
    refine pure rfl ⟨?_, _, hfirst, by rw [Nat.add_sub_cancel_left, ← hslice]⟩
    rw [Latin.length_decode]
    rfl
  · rintro text _ ⟨rfl, htext⟩
    exact ⟨_, htext.firstNul.le, htext.firstNul.nul, by omega⟩

/-! ### Records -/

theorem point : walk.Follows start id
    (fun value stop => stop = start + 12 ∧ value = pointAt data start)
    Point3.read Point3.read := by
  refine float32.bind_same ?_
  rintro _ _ ⟨rfl, rfl⟩
  refine float32.bind_same ?_
  rintro _ _ ⟨rfl, rfl⟩
  refine float32.bind_same ?_
  rintro _ _ ⟨rfl, rfl⟩
  exact pure rfl ⟨rfl, rfl⟩

end Follows

end Follows

end Walk

end SceneSet
