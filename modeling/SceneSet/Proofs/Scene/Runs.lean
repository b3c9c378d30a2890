import SceneSet.Proofs.Scene.Faults

/-!
# Runs of a cursor

A cursor is sent on by steps of any kind in any order, and goes on after steps that fail. What all
readers have in common holds of all steps (`Step.follows`). `Atomic` says that a reader succeeds
just if what it takes is there, and that it leaves the cursor otherwise; the readers of single
fields and of lights are atomic. `Step.travel_safe` is the result for every run from every place of
a buffer.
-/

namespace SceneSet

open Number (Double)
open Bytes (slice signedAt numberAt TextAt FirstNul)

/-! ### Texts -/

namespace Bytes

variable {data : Bytes} {start : Nat} {text : String}

/-- A text that goes up to the first NUL is found. -/
theorem TextAt.untilNul (h : TextAt data start text) :
    ∃ name, Reader.untilNul (Cursor.within data start) = .ok name (Cursor.within data start) ∧
      text = Latin.decode name := by
  obtain ⟨stop, hnul, rfl⟩ := h
  have hstart := Nat.le_of_lt (Nat.lt_of_le_of_lt hnul.le hnul.lt_length)
  rcases Reader.untilNul_within hstart with ⟨name, hname⟩ | ⟨hnone, -⟩
  · obtain ⟨-, hfirst, hslice⟩ := Reader.firstNul_of_untilNul hname
    refine ⟨name, hname, ?_⟩
    rw [hnul.unique hfirst, Nat.add_sub_cancel_left, ← hslice]
  · exact absurd hnul.nul (hnone stop hnul.le)

/-- There is a text just if there is a NUL. -/
theorem exists_textAt :
    (∃ text, TextAt data start text) ↔ ∃ nul, start ≤ nul ∧ data[nul]? = some 0 := by
  constructor
  · rintro ⟨_, stop, hnul, -⟩
    exact ⟨stop, hnul.le, hnul.nul⟩
  · rintro ⟨nul, hle, hnul⟩
    obtain ⟨hlt, -⟩ := List.getElem?_eq_some_iff.mp hnul
    rcases Reader.untilNul_within (Nat.le_trans hle (Nat.le_of_lt hlt)) with
      ⟨name, hname⟩ | ⟨hnone, -⟩
    · obtain ⟨-, hfirst, -⟩ := Reader.firstNul_of_untilNul hname
      exact ⟨_, _, hfirst, rfl⟩
    · exact absurd hnul (hnone nul hle)

/-- The NUL behind a text is in the buffer. -/
theorem TextAt.length_lt (h : TextAt data start text) :
    start + (text.length + 1) ≤ data.length := by
  obtain ⟨stop, hnul, rfl⟩ := h
  obtain ⟨hlt, -⟩ := List.getElem?_eq_some_iff.mp hnul.nul
  have hle := hnul.le
  rw [Latin.length_decode, slice, List.length_take, List.length_drop]
  omega

end Bytes

/-! ### Readers that take all or nothing -/

/-- A reader takes what is at a place, if the buffer has all of it, and otherwise fails and leaves
the cursor there. `takes value size` says that the reader looks for `value` there, in `size`
bytes. -/
structure Atomic {α : Type} (data : Bytes) (start : Nat) (reader : Reader α)
    (takes : α → Nat → Prop) : Prop where
  ok : ∀ {value size}, takes value size → start + size ≤ data.length →
    reader (Cursor.within data start) = .ok value (Cursor.within data (start + size))
  error : (∀ value size, takes value size → data.length < start + size) →
    ∃ fault, reader (Cursor.within data start) = .error fault (Cursor.within data start)

namespace Atomic

variable {α β : Type} {data : Bytes} {start : Nat}

/-- What a reader takes may be given another form. -/
theorem map {reader : Reader α} {takes : α → Nat → Prop} {f : α → β} {gives : β → Nat → Prop}
    (h : Atomic data start reader takes)
    (hgives : ∀ {value size}, start + size ≤ data.length →
      (gives value size ↔ ∃ raw, takes raw size ∧ value = f raw)) :
    Atomic data start (reader >>= fun raw => pure (f raw)) gives where
  ok {value size} hvalue hfits := by
    obtain ⟨raw, htakes, rfl⟩ := (hgives hfits).mp hvalue
    exact bind_eq_ok.mpr ⟨raw, _, h.ok htakes hfits, rfl⟩
  error hnone := by
    obtain ⟨fault, hfault⟩ := h.error fun raw size htakes => by
      by_contra hfits
      have hgiven := (hgives (Nat.not_lt.mp hfits)).mpr ⟨raw, htakes, rfl⟩
      exact hfits (hnone (f raw) size hgiven)
    exact ⟨fault, bind_eq_error.mpr (.inl hfault)⟩

variable (hstart : start ≤ data.length)

include hstart

theorem claim (size : Int) (what : String) : Atomic data start (Reader.claim size what)
    fun block taken => size = taken ∧ block = slice data start taken where
  ok := by
    rintro _ taken ⟨rfl, rfl⟩ hfits
    rw [Reader.claim_within hstart, if_pos hfits]
  error hnone := by
    by_cases hsign : size < 0
    · exact ⟨_, Reader.claim_of_neg hsign what _⟩
    · obtain ⟨size, rfl⟩ := Int.eq_ofNat_of_zero_le (Int.not_lt.mp hsign)
      have hlong : data.length < start + size := hnone _ size ⟨rfl, rfl⟩
      rw [Reader.claim_within hstart, if_neg (Nat.not_le.mpr hlong)]
      exact ⟨_, rfl⟩

/-- A block is made into a value. -/
theorem field (size : Nat) (what : String) (value : Bytes → α) :
    Atomic data start (Reader.claim size what >>= fun block => pure (value block))
      fun given taken => taken = size ∧ given = value (slice data start size) := by
  refine (claim hstart size what).map fun {given taken} _ => ?_
  constructor
  · rintro ⟨rfl, rfl⟩
    exact ⟨_, ⟨rfl, rfl⟩, rfl⟩
  · rintro ⟨_, ⟨hsize, rfl⟩, rfl⟩
    obtain rfl : size = taken := Int.ofNat_inj.mp hsize
    exact ⟨rfl, rfl⟩

theorem int32 : Atomic data start Reader.int32
    fun given taken => taken = 4 ∧ given = signedAt data start :=
  field hstart 4 "int32" Reader.signed

theorem float32 : Atomic data start Reader.float32
    fun given taken => taken = 4 ∧ given = numberAt data start :=
  field hstart 4 "float32" fun word =>
    Number.Binary.convert (Number.Binary.ofBits (Reader.littleEndian word) : Number.Single)

/-- A byte is there just if it fits. -/
theorem bool8 : Atomic data start Reader.bool8
    fun given taken => taken = 1 ∧ ∃ byte, data[start]? = some byte ∧ given = (byte != 0) := by
  refine (claim hstart 1 "bool8").map fun {given taken} hfits => ?_
  constructor
  · rintro ⟨rfl, byte, hbyte, rfl⟩
    refine ⟨[byte], ⟨rfl, ?_⟩, (Bytes.littleEndian_singleton_bne byte).symm⟩
    rw [slice, List.take_one, List.head?_drop, hbyte]
    rfl
  · rintro ⟨_, ⟨hsize, rfl⟩, rfl⟩
    obtain rfl : taken = 1 := (Int.ofNat_inj.mp hsize).symm
    have hbyte := List.getElem?_eq_getElem (l := data) (i := start) hfits
    refine ⟨rfl, data[start], hbyte, ?_⟩
    rw [slice, List.take_one, List.head?_drop, hbyte]
    exact Bytes.littleEndian_singleton_bne _

/-- A text is found and then its field is taken. -/
theorem text (size : Nat → Int) (what : String) :
    Atomic data start
      (Reader.untilNul >>= fun name => Reader.claim (size name.length) what >>= fun _ =>
        pure (Latin.decode name))
      fun given taken => size given.length = taken ∧ TextAt data start given where
  ok {given taken} := by
    rintro ⟨hsize, htext⟩ hfits
    obtain ⟨name, hname, rfl⟩ := htext.untilNul
    rw [Latin.length_decode] at hsize
    have hclaim := (claim hstart (size name.length) what).ok ⟨hsize, rfl⟩ hfits
    exact bind_eq_ok.mpr ⟨name, _, hname, bind_eq_ok.mpr ⟨_, _, hclaim, rfl⟩⟩
  error hnone := by
    rcases Reader.untilNul_within hstart with ⟨name, hname⟩ | ⟨-, hfault⟩
    · obtain ⟨-, hfirst, hslice⟩ := Reader.firstNul_of_untilNul hname
      have htext : TextAt data start (Latin.decode name) :=
        ⟨_, hfirst, by rw [Nat.add_sub_cancel_left, ← hslice]⟩
      obtain ⟨fault, hfault⟩ := (claim hstart (size name.length) what).error fun _ taken h =>
        hnone _ taken ⟨by rw [Latin.length_decode]; exact h.1, htext⟩
      exact ⟨fault, bind_eq_error.mpr (.inr ⟨name, _, hname, bind_eq_error.mpr (.inl hfault)⟩)⟩
    · exact ⟨_, bind_eq_error.mpr (.inl hfault)⟩

theorem fixedString (size : Int) : Atomic data start (Reader.fixedString size)
    fun given taken => size = taken ∧ TextAt data start given := by
  have hoffset : Reader.fixedString size (Cursor.within data start) =
      (if size < 0 then throw (.negativeLength size start)
        else Reader.untilNul >>= fun name => Reader.claim size "fixed string" >>= fun _ =>
          pure (Latin.decode name)) (Cursor.within data start) := rfl
  have htext := text hstart (fun _ => size) "fixed string"
  by_cases hsign : size < 0
  · rw [if_pos hsign] at hoffset
    refine ⟨fun {given taken} htakes => ?_, fun _ => ⟨_, hoffset⟩⟩
    have hsize := htakes.1
    omega
  · rw [if_neg hsign] at hoffset
    refine ⟨fun htakes hfits => ?_, fun hnone => ?_⟩
    · rw [hoffset]
      exact htext.ok htakes hfits
    · rw [hoffset]
      exact htext.error hnone

theorem cString : Atomic data start Reader.cString
    fun given taken => (given.length + 1 : Int) = taken ∧ TextAt data start given :=
  text hstart (fun length => length + 1) "string"

theorem light : Atomic data start Light.read
    fun given taken => taken = 100 ∧ given = ⟨start, slice data start 100⟩ := by
  -- the offset that a light keeps is that of the cursor
  have hblock := field hstart Light.storedSize "byte block" (Light.mk start)
  exact ⟨hblock.ok, hblock.error⟩

end Atomic

/-! ### Steps -/

/-- Where a reader stops, with a value or with a fault. -/
def Reader.final {α : Type} : EStateM.Result Fault Cursor α → Cursor
  | .ok _ cursor => cursor
  | .error _ cursor => cursor

/-- Something that a cursor can be asked for. -/
inductive Step where
  | int32
  | float32
  | bool8
  | bytes (size : Int)
  | skip (size : Int)
  | fixedString (size : Int)
  | cString
  | count (what : String)
  | setup
  | light
  | sector (options : ReadOptions)

namespace Step

/-- What a step gives. -/
inductive Value where
  | integer (value : Int)
  | number (value : Double)
  | flag (value : Bool)
  | block (value : Bytes)
  | skipped
  | text (value : String)
  | setup (value : Setup)
  | light (value : Light)
  | sector (value : Sector)

/-- What a step reads. -/
def reader : Step → Reader Value
  | int32 => do pure (.integer (← Reader.int32))
  | float32 => do pure (.number (← Reader.float32))
  | bool8 => do pure (.flag (← Reader.bool8))
  | bytes size => do pure (.block (← Reader.bytes size))
  | skip size => do
      let _ ← Reader.skip size
      pure .skipped
  | fixedString size => do pure (.text (← Reader.fixedString size))
  | cString => do pure (.text (← Reader.cString))
  | count what => do pure (.integer (← Reader.count what))
  | setup => do pure (.setup (← Setup.read))
  | light => do pure (.light (← Light.read))
  | sector options => do pure (.sector (← Sector.read options))

/-- What a step does. What there is to note about a sector goes into the log, if there is one. -/
def action : Step → Observer Value
  | sector options => do pure (.sector (← Observer.sector options))
  | step => Observer.ofReader step.reader

/-- Single fields and lights are read wholly or not at all. -/
def isAtomic : Step → Bool
  | count _ | setup | sector _ => false
  | _ => true

/-- `step.Takes data start value size` says that an atomic step takes `value` from a place, if as
many bytes as `size` follow there. -/
def Takes (data : Bytes) (start : Nat) : Step → Value → Nat → Prop
  | int32, value, size => size = 4 ∧ value = .integer (signedAt data start)
  | float32, value, size => size = 4 ∧ value = .number (numberAt data start)
  | bool8, value, size =>
      size = 1 ∧ ∃ byte, data[start]? = some byte ∧ value = .flag (byte != 0)
  | bytes asked, value, size => asked = size ∧ value = .block (slice data start size)
  | skip asked, value, size => asked = size ∧ value = .skipped
  | fixedString asked, value, size =>
      asked = size ∧ ∃ text, TextAt data start text ∧ value = .text text
  | cString, value, size =>
      ∃ text, size = text.length + 1 ∧ TextAt data start text ∧ value = .text text
  | light, value, size => size = 100 ∧ value = .light ⟨start, slice data start 100⟩
  | _, _, _ => False

/-- A step reads what it reads, whatever is noted. -/
theorem observes (step : Step) : Observer.Observes step.action step.reader := by
  cases step with
  | sector options => exact (Observer.Observes.sector options).bind fun sector => .pure _
  | _ => exact .ofReader _

/-- What a step gives at another place. Records tell where they are stored. -/
def Value.moved (distance : Int) : Value → Value
  | .setup value => .setup (value.moved distance)
  | .light value => .light (value.moved distance)
  | .sector value => .sector (value.moved distance)
  | value => value

/-- If a step looks for a name, it finds a NUL in front of `stop`. The name of a setup is left out,
as there is always one. -/
def NamedWithin (data : Bytes) (start stop : Nat) : Step → Prop
  | fixedString _ => ∃ nul, FirstNul data start nul ∧ nul < stop
  | sector _ => ∃ nul, FirstNul data (Sector.nameStart data start) nul ∧ nul < stop
  | _ => True

/-- A step goes forward in the buffer, and does the same between other bytes, if no name that it
looks for runs over the end of the bytes in common. -/
theorem follows (step : Step) {data front back : Bytes} {start origin kept : Nat}
    (hname : data.length ≤ kept ∨ step.NamedWithin data start kept) :
    (Walk.between data origin kept front back).Follows start
      (Value.moved (Walk.between data origin kept front back).distance) (fun _ _ => True)
      step.reader step.reader := by
  have hnamed : ∀ {place}, (data.length ≤ kept ∨ ∃ nul, FirstNul data place nul ∧ nul < kept) →
      (Walk.between data origin kept front back).Named place := by
    rintro place (hwhole | hnul)
    · exact Walk.named_of_whole hwhole place
    · exact Walk.named_of_firstNul hnul
  cases step with
  | int32 => exact Walk.Follows.int32.bind fun _ _ _ => .pure rfl trivial
  | float32 => exact Walk.Follows.float32.bind fun _ _ _ => .pure rfl trivial
  | bool8 => exact Walk.Follows.bool8.bind fun _ _ _ => .pure rfl trivial
  | bytes size =>
      exact (Walk.Follows.bytes (.inr fun _ => trivial)).bind fun _ _ _ => .pure rfl trivial
  | skip size =>
      exact (Walk.Follows.skip (.inr fun _ => trivial)).bind fun _ _ _ => .pure rfl trivial
  | fixedString size =>
      exact (Walk.Follows.fixedString (.inr fun _ => trivial) (hnamed hname)).bind fun _ _ _ =>
        .pure rfl trivial
  | cString => exact Walk.Follows.cString.bind fun _ _ _ => .pure rfl trivial
  | count what => exact (Walk.Follows.count what).bind fun _ _ _ => .pure rfl trivial
  | setup => exact Walk.Follows.setup.bind fun _ _ _ => .pure rfl trivial
  | light => exact Walk.Follows.light.bind fun _ _ _ => .pure rfl trivial
  | sector options =>
      exact (Walk.Follows.sector Walk.refuses_between (hnamed hname)).bind fun _ _ _ =>
        .pure rfl trivial

/-- A step that starts in a buffer stops in it, and not in front of where it started. -/
theorem stops (step : Step) {data : Bytes} {start : Nat} (hstart : start ≤ data.length) :
    ∃ stop, Reader.final (step.reader (Cursor.within data start)) = Cursor.within data stop ∧
      start ≤ stop ∧ stop ≤ data.length := by
  have hfollows : (Walk.alone data).Follows start _ _ step.reader step.reader :=
    step.follows (.inl (Nat.le_refl _))
  cases hrun : step.reader (Cursor.within data start) with
  | ok value after =>
      obtain ⟨stop, rfl, hforward, hinside, -⟩ := hfollows.of_ok (Nat.zero_le _) hstart hrun
      exact ⟨stop, rfl, hforward, hinside⟩
  | error fault after =>
      obtain ⟨stop, rfl, hforward, hinside, -⟩ := hfollows.of_error (Nat.zero_le _) hstart hrun
      exact ⟨stop, rfl, hforward, hinside⟩

/-- An atomic step takes what is there or leaves the cursor. -/
theorem atomic {step : Step} (h : step.isAtomic = true) {data : Bytes} {start : Nat}
    (hstart : start ≤ data.length) : Atomic data start step.reader (step.Takes data start) := by
  cases step with
  | int32 => exact (Atomic.int32 hstart).map fun _ => by simp [Takes]
  | float32 => exact (Atomic.float32 hstart).map fun _ => by simp [Takes]
  | bool8 =>
      refine (Atomic.bool8 hstart).map fun {value size} _ => ?_
      constructor
      · rintro ⟨rfl, byte, hbyte, rfl⟩
        exact ⟨_, ⟨rfl, byte, hbyte, rfl⟩, rfl⟩
      · rintro ⟨_, ⟨rfl, byte, hbyte, rfl⟩, rfl⟩
        exact ⟨rfl, byte, hbyte, rfl⟩
  | bytes size => exact (Atomic.claim hstart size _).map fun _ => by simp [Takes]
  | skip size =>
      exact ((Atomic.claim hstart size _).map fun _ => Iff.rfl).map fun _ => by simp [Takes]
  | fixedString size =>
      refine (Atomic.fixedString hstart size).map fun {value taken} _ => ?_
      constructor
      · rintro ⟨hsize, text, htext, rfl⟩
        exact ⟨text, ⟨hsize, htext⟩, rfl⟩
      · rintro ⟨text, ⟨hsize, htext⟩, rfl⟩
        exact ⟨hsize, text, htext, rfl⟩
  | cString =>
      refine (Atomic.cString hstart).map fun {value taken} _ => ?_
      constructor
      · rintro ⟨text, rfl, htext, rfl⟩
        exact ⟨text, ⟨rfl, htext⟩, rfl⟩
      · rintro ⟨text, ⟨hsize, htext⟩, rfl⟩
        exact ⟨text, (Int.ofNat_inj.mp hsize).symm, htext, rfl⟩
  | light => exact (Atomic.light hstart).map fun _ => by simp [Takes]
  | count what => cases h
  | setup => cases h
  | sector options => cases h

end Step

/-! ### Runs -/

/-- What a cursor tells of its place in a buffer. -/
structure Cursor.Tracks (data : Bytes) (cursor : Cursor) : Prop where
  inside : cursor.offset ≤ data.length
  length : cursor.length = data.length
  remaining : cursor.remaining = data.length - cursor.offset
  atEnd : cursor.atEnd = true ↔ cursor.remaining = 0

theorem Cursor.tracks_within {data : Bytes} {place : Nat} (h : place ≤ data.length) :
    (within data place).Tracks data where
  inside := h
  length := length_within h
  remaining := List.length_drop ..
  atEnd := by
    show (data.drop place).isEmpty = true ↔ (data.drop place).length = 0
    rw [List.isEmpty_iff, List.length_eq_zero_iff]

/-- A cursor can be put at every place of a buffer. -/
theorem Cursor.at?_natCast {data : Bytes} {place : Nat} (h : place ≤ data.length) :
    at? data place = some (within data place) := by
  unfold at?
  rw [if_pos ⟨Int.natCast_nonneg place, Int.ofNat_le.mpr h⟩]
  rfl

namespace Step

open Observer (final)

/-- Where some steps lead, each from where the one before it has stopped, with a value or with a
fault. -/
def travel (steps : List Step) (progress : Progress) : Progress :=
  steps.foldl (fun reached step => final (step.action reached)) progress

/-- What a step does to a cursor. -/
structure Safe (data : Bytes) (before : Progress) (step : Step) : Prop where
  tracks : (final (step.action before)).cursor.Tracks data
  forward : before.cursor.offset ≤ (final (step.action before)).cursor.offset
  atomic : step.isAtomic = true →
    (∃ value size, step.Takes data before.cursor.offset value size ∧
      before.cursor.offset + size ≤ data.length ∧
      step.action before =
        .ok value ⟨Cursor.within data (before.cursor.offset + size), before.log⟩) ∨
    (∀ value size, step.Takes data before.cursor.offset value size →
      data.length < before.cursor.offset + size) ∧
      ∃ fault, step.action before = .error fault before
  fixedString : ∀ size, step = fixedString size →
    ((∃ value after, step.action before = .ok value after) ↔
      0 ≤ size ∧ (∃ nul, before.cursor.offset ≤ nul ∧ data[nul]? = some 0) ∧
        before.cursor.offset + size ≤ data.length)
  cString : step = cString →
    ((∃ value after, step.action before = .ok value after) ↔
      ∃ nul, before.cursor.offset ≤ nul ∧ data[nul]? = some 0)

variable {data : Bytes} {place : Nat}

/-- Where a step leaves the cursor does not depend on the log. -/
theorem cursor_final (step : Step) (progress : Progress) :
    (final (step.action progress)).cursor = Reader.final (step.reader progress.cursor) := by
  rw [← step.observes progress]
  cases step.action progress <;> rfl

/-- An atomic step is a reader, and notes nothing. -/
theorem action_eq {step : Step} (h : step.isAtomic = true) :
    step.action = Observer.ofReader step.reader := by
  cases step with
  | sector options => cases h
  | _ => rfl

/-- An atomic step succeeds or fails as what it takes is there or not. -/
theorem action_of_atomic {step : Step} (h : step.isAtomic = true) (hplace : place ≤ data.length)
    (log : Option Log) :
    (∃ value size, step.Takes data place value size ∧ place + size ≤ data.length ∧
      step.action ⟨Cursor.within data place, log⟩ =
        .ok value ⟨Cursor.within data (place + size), log⟩) ∨
    (∀ value size, step.Takes data place value size → data.length < place + size) ∧
      ∃ fault, step.action ⟨Cursor.within data place, log⟩ =
        .error fault ⟨Cursor.within data place, log⟩ := by
  have hatomic := atomic h hplace
  rw [action_eq h]
  unfold Observer.ofReader
  dsimp only
  by_cases hthere : ∃ value size, step.Takes data place value size ∧ place + size ≤ data.length
  · obtain ⟨value, size, htakes, hfits⟩ := hthere
    refine .inl ⟨value, size, htakes, hfits, ?_⟩
    rw [hatomic.ok htakes hfits]
  · have hnone : ∀ value size, step.Takes data place value size → data.length < place + size := by
      intro value size htakes
      by_contra hfits
      exact hthere ⟨value, size, htakes, Nat.not_lt.mp hfits⟩
    obtain ⟨fault, hfault⟩ := hatomic.error hnone
    refine .inr ⟨hnone, fault, ?_⟩
    rw [hfault]

/-- An atomic step succeeds just if what it takes is there. -/
theorem exists_action_iff {step : Step} (h : step.isAtomic = true) (hplace : place ≤ data.length)
    (log : Option Log) :
    (∃ value after, step.action ⟨Cursor.within data place, log⟩ = .ok value after) ↔
      ∃ value size, step.Takes data place value size ∧ place + size ≤ data.length := by
  constructor
  · rintro ⟨value, after, hok⟩
    rcases action_of_atomic h hplace log with ⟨value, size, htakes, hfits, -⟩ | ⟨-, _, hfault⟩
    · exact ⟨value, size, htakes, hfits⟩
    · rw [hfault] at hok
      cases hok
  · rintro ⟨value, size, htakes, hfits⟩
    rcases action_of_atomic h hplace log with ⟨value, _, -, -, hok⟩ | ⟨hnone, -⟩
    · exact ⟨value, _, hok⟩
    · exact absurd hfits (Nat.not_le.mpr (hnone value size htakes))

/-- Every step is safe, from every place of a buffer. -/
theorem safe (step : Step) (hplace : place ≤ data.length) (log : Option Log) :
    step.Safe data ⟨Cursor.within data place, log⟩ := by
  obtain ⟨stop, hstop, hforward, hinside⟩ := step.stops hplace
  have hfinal := step.cursor_final ⟨Cursor.within data place, log⟩
  rw [hstop] at hfinal
  refine ⟨?_, ?_, fun h => action_of_atomic h hplace log, ?_, ?_⟩
  · rw [hfinal]
    exact Cursor.tracks_within hinside
  · rw [hfinal]
    exact hforward
  · rintro size rfl
    rw [exists_action_iff rfl hplace log, ← Bytes.exists_textAt]
    constructor
    · rintro ⟨value, taken, ⟨rfl, text, htext, -⟩, hfits⟩
      exact ⟨Int.natCast_nonneg taken, ⟨text, htext⟩, by exact_mod_cast hfits⟩
    · rintro ⟨hsign, ⟨text, htext⟩, hfits⟩
      obtain ⟨size, rfl⟩ := Int.eq_ofNat_of_zero_le hsign
      exact ⟨_, size, ⟨rfl, text, htext, rfl⟩, by exact_mod_cast hfits⟩
  · rintro rfl
    rw [exists_action_iff rfl hplace log, ← Bytes.exists_textAt]
    constructor
    · rintro ⟨value, taken, ⟨text, -, htext, -⟩, -⟩
      exact ⟨text, htext⟩
    · rintro ⟨text, htext⟩
      exact ⟨_, _, ⟨text, rfl, htext, rfl⟩, htext.length_lt⟩

/-- Steps lead from a place of a buffer to a place that is not in front of it. -/
theorem travel_within (steps : List Step) (hplace : place ≤ data.length) (log : Option Log) :
    ∃ stop, (travel steps ⟨Cursor.within data place, log⟩).cursor = Cursor.within data stop ∧
      place ≤ stop ∧ stop ≤ data.length := by
  induction steps generalizing place log with
  | nil => exact ⟨place, rfl, Nat.le_refl _, hplace⟩
  | cons step steps ih =>
      obtain ⟨middle, hmiddle, hforward, hinside⟩ := step.stops hplace
      have hfinal := step.cursor_final ⟨Cursor.within data place, log⟩
      rw [hmiddle] at hfinal
      obtain ⟨stop, hstop, hafter, hend⟩ :=
        ih hinside (final (step.action ⟨Cursor.within data place, log⟩)).log
      rw [← hfinal] at hstop
      exact ⟨stop, hstop, Nat.le_trans hforward hafter, hend⟩

/-- Wherever in a buffer a cursor is put, and whatever steps it is sent on, with faults on the way
or not, it stays in the buffer and behind where it was put, and the next step is safe. -/
theorem travel_safe {data : Bytes} {start : Int} (log : Option Log) (hlow : 0 ≤ start)
    (hhigh : start ≤ data.length) :
    ∃ first, Cursor.at? data start = some first ∧ ∀ steps,
      (travel steps ⟨first, log⟩).cursor.Tracks data ∧
        start ≤ (travel steps ⟨first, log⟩).cursor.offset ∧
        ∀ step : Step, step.Safe data (travel steps ⟨first, log⟩) := by
  obtain ⟨place, rfl⟩ := Int.eq_ofNat_of_zero_le hlow
  have hplace : place ≤ data.length := Int.ofNat_le.mp hhigh
  refine ⟨_, Cursor.at?_natCast hplace, fun steps => ?_⟩
  obtain ⟨stop, hstop, hforward, hinside⟩ := travel_within steps hplace log
  generalize travel steps ⟨Cursor.within data place, log⟩ = reached at hstop ⊢
  obtain ⟨cursor, noted⟩ := reached
  obtain rfl : cursor = Cursor.within data stop := hstop
  exact ⟨Cursor.tracks_within hinside, Int.ofNat_le.mpr hforward, fun step =>
    step.safe hinside noted⟩

/-- Some steps in three bytes, from the second of them on: a negative block and a count that runs
over the end fail where they are, and an empty text is read. Behind it no text follows, so that a
field is not read even if it fits. -/
theorem travel_safe_short :
    ∃ first, Cursor.at? [0x61, 0, 5] 1 = some first ∧
      travel [bytes (-1), count "count", cString] ⟨first, none⟩ =
        ⟨Cursor.within [0x61, 0, 5] 2, none⟩ ∧
      (Cursor.within [0x61, 0, 5] 2).Tracks [0x61, 0, 5] ∧
      ¬ ∃ value after, (fixedString 1).action ⟨Cursor.within [0x61, 0, 5] 2, none⟩ =
        .ok value after := by
  have hlow : (0 : Int) ≤ 1 := by decide
  have hhigh : (1 : Int) ≤ ([0x61, 0, 5] : Bytes).length := by decide
  obtain ⟨first, hfirst, hsafe⟩ := travel_safe none hlow hhigh
  have hplace : Cursor.at? [0x61, 0, 5] 1 = some (Cursor.within [0x61, 0, 5] 1) := rfl
  obtain rfl : Cursor.within [0x61, 0, 5] 1 = first := Option.some.inj (hplace.symm.trans hfirst)
  have hreached : travel [bytes (-1), count "count", cString]
      ⟨Cursor.within [0x61, 0, 5] 1, none⟩ = ⟨Cursor.within [0x61, 0, 5] 2, none⟩ := rfl
  obtain ⟨htracks, -, hnext⟩ := hsafe [bytes (-1), count "count", cString]
  rw [hreached] at htracks hnext
  refine ⟨_, rfl, hreached, htracks, fun hok => ?_⟩
  obtain ⟨-, ⟨nul, hle, hnul⟩, -⟩ := ((hnext (fixedString 1)).fixedString 1 rfl).mp hok
  obtain ⟨hlt, -⟩ := List.getElem?_eq_some_iff.mp hnul
  obtain rfl : nul = 2 := Nat.le_antisymm (Nat.le_of_lt_succ hlt) hle
  exact absurd hnul (by decide)

end Step

end SceneSet
