import SceneSet.Proofs.Scene.Growth

/-!
# Strict reading

A strict reading of a set stops at the first sector with an unknown tag, where a lenient one makes a
note. `Agree` compares an observer with its strict form, run from the same place and with the same
log: they do the same until the lenient one makes such a note, and there the strict one stops.
`Scene.read_strict` says so of whole sets.
-/

namespace SceneSet

/-- The first note of an unknown tag. -/
def Log.firstUnknownTag? (log : Log) : Option Diagnostic :=
  log.entries.find? (·.kind == "unknown-tag")

/-- What is noted in front of the first unknown tag. -/
def Log.beforeUnknownTag (log : Log) : Log := ⟨log.entries.takeWhile (·.kind != "unknown-tag")⟩

theorem Log.recordAll_nil (log : Log) : log.recordAll [] = log := by
  rw [Log.recordAll, List.append_nil]

/-- Notes that are added in two steps. -/
theorem Log.recordAll_recordAll (log : Log) (notes further : List Diagnostic) :
    (log.recordAll notes).recordAll further = log.recordAll (notes ++ further) := by
  simp only [Log.recordAll, List.append_assoc]

/-- None of these notes is about an unknown tag. -/
def AllKnown (notes : List Diagnostic) : Prop := ∀ note ∈ notes, note.kind ≠ "unknown-tag"

theorem AllKnown.nil : AllKnown [] := fun _ h => absurd h List.not_mem_nil

theorem AllKnown.append {notes further : List Diagnostic} (h : AllKnown notes)
    (hfurther : AllKnown further) : AllKnown (notes ++ further) := by
  intro note hnote
  rcases List.mem_append.mp hnote with hnote | hnote
  · exact h note hnote
  · exact hfurther note hnote

/-- What is done with a sector that was read strictly. -/
def Sector.checkTag (sector : Sector) : Reader Sector :=
  if sector.type?.isNone then throw (.unknownTag sector.tag sector.offset "SectorType")
  else pure sector

/-- A strict reading of a sector is a lenient one, after which the tag is looked at. -/
theorem Sector.read_eq_checkTag (legacy : Bool) :
    Sector.read ⟨true, legacy⟩ = Sector.read ⟨false, legacy⟩ >>= Sector.checkTag := by
  unfold Sector.read Sector.checkTag
  simp only [bind_assoc, Bool.true_and, Bool.false_and, Bool.false_eq_true, if_false, pure_bind]
  rfl

namespace Observer

variable {α β : Type} {legacy : Bool} {data : Bytes}

/-- What is done about a sector: it is read, and if it is read, there may be something to note. -/
theorem sector_eq (options : ReadOptions) (progress : Progress) :
    Observer.sector options progress =
      match Sector.read options progress.cursor with
      | .ok sector stop => .ok sector ⟨stop, progress.log.map (·.recordAll (sector.notes options))⟩
      | .error fault stop => .error fault ⟨stop, progress.log⟩ := by
  show EStateM.bind (Observer.ofReader (Sector.read options)) _ progress = _
  unfold EStateM.bind Observer.ofReader
  cases Sector.read options progress.cursor <;> rfl

/-- Read strictly, it is given only if its tag is known. -/
theorem sector_strict_eq (legacy : Bool) (progress : Progress) :
    Observer.sector ⟨true, legacy⟩ progress =
      match Sector.read ⟨false, legacy⟩ progress.cursor with
      | .ok sector stop =>
          if sector.type?.isNone then
            .error (.unknownTag sector.tag sector.offset "SectorType") ⟨stop, progress.log⟩
          else .ok sector ⟨stop, progress.log.map (·.recordAll (sector.notes ⟨true, legacy⟩))⟩
      | .error fault stop => .error fault ⟨stop, progress.log⟩ := by
  rw [sector_eq, Sector.read_eq_checkTag]
  show (match EStateM.bind _ Sector.checkTag progress.cursor with
    | .ok sector stop => _
    | .error fault stop => _) = _
  unfold EStateM.bind
  cases Sector.read ⟨false, legacy⟩ progress.cursor with
  | error fault stop => rfl
  | ok sector stop =>
      dsimp only
      unfold Sector.checkTag
      cases sector.type? <;> rfl

/-- A sector with an unknown tag that is stored in the buffer. -/
structure Unknown (legacy : Bool) (data : Bytes) (sector : Sector) : Prop where
  stored : ∃ (start : Nat) (stop : Cursor), sector.offset = start ∧
    Sector.read ⟨false, legacy⟩ (Cursor.within data start) = .ok sector stop
  unknown : sector.type? = none

/-- What a strict observer does, compared with what the lenient one does with the same log: the same
if that notes no unknown tag, and else it stops in front of the first such note. -/
inductive Compared (legacy : Bool) (data : Bytes) (log : Log)
    (lenient : EStateM.Result Fault Progress α) : EStateM.Result Fault Progress α → Prop where
  | same {notes : List Diagnostic} : (final lenient).log = some (log.recordAll notes) →
      AllKnown notes → Compared legacy data log lenient lenient
  | stopped {before after : List Diagnostic} {sector : Sector} {stop : Cursor} {kept : Log} :
      (final lenient).log = some (log.recordAll (before ++ sector.unknownTagNote :: after)) →
      kept = log.recordAll before → AllKnown before → Unknown legacy data sector →
      Compared legacy data log lenient
        (.error (.unknownTag sector.tag sector.offset "SectorType") ⟨stop, some kept⟩)

namespace Compared

variable {log : Log} {lenient strict : EStateM.Result Fault Progress α}

/-- The lenient observer only adds to the log. -/
theorem adds (h : Compared legacy data log lenient strict) :
    ∃ notes, (final lenient).log = some (log.recordAll notes) := by
  cases h with
  | same hlog _ => exact ⟨_, hlog⟩
  | stopped hlog _ _ _ => exact ⟨_, hlog⟩

/-- What was noted before, if it is about no unknown tag, can be counted in. -/
theorem prepend {notes : List Diagnostic} (hknown : AllKnown notes)
    (h : Compared legacy data (log.recordAll notes) lenient strict) :
    Compared legacy data log lenient strict := by
  cases h with
  | same hlog hothers =>
      rw [Log.recordAll_recordAll] at hlog
      exact .same hlog (hknown.append hothers)
  | stopped hlog hkept hbefore hsector =>
      rw [Log.recordAll_recordAll, ← List.append_assoc] at hlog
      rw [Log.recordAll_recordAll] at hkept
      exact .stopped hlog hkept (hknown.append hbefore) hsector

end Compared

/-- An observer and its strict form, from wherever in the buffer and with whatever log they start.
The lenient one stays in the buffer. -/
structure Agree (legacy : Bool) (data : Bytes) (lenient strict : Observer α) : Prop where
  lands : ∀ {place log value} {after : Progress}, place ≤ data.length →
    lenient ⟨Cursor.within data place, log⟩ = .ok value after →
    ∃ stop, after.cursor = Cursor.within data stop ∧ stop ≤ data.length
  compared : ∀ {place} (log : Log), place ≤ data.length →
    Compared legacy data log (lenient ⟨Cursor.within data place, some log⟩)
      (strict ⟨Cursor.within data place, some log⟩)

namespace Agree

/-- An observer that stays in the buffer and notes no unknown tag is its own strict form. -/
theorem refl {observer : Observer α} (hlands : ∀ {place log value} {after : Progress},
      place ≤ data.length → observer ⟨Cursor.within data place, log⟩ = .ok value after →
      ∃ stop, after.cursor = Cursor.within data stop ∧ stop ≤ data.length)
    (hnotes : ∀ cursor (log : Log), ∃ notes,
      (final (observer ⟨cursor, some log⟩)).log = some (log.recordAll notes) ∧ AllKnown notes) :
    Agree legacy data observer observer where
  lands := hlands
  compared {place} log _ := by
    obtain ⟨notes, hlog, hknown⟩ := hnotes (Cursor.within data place) log
    exact .same hlog hknown

theorem pure (value : α) : Agree legacy data (Pure.pure value) (Pure.pure value) := by
  refine refl (fun hplace h => ?_) fun _ log => ⟨[], congrArg some log.recordAll_nil.symm, .nil⟩
  cases h
  exact ⟨_, rfl, hplace⟩

/-- A reader notes nothing, and stays in the buffer. -/
theorem ofReader {reader : Reader α} {other : Reader β} {move : α → β}
    {stored : Nat → α → Nat → Prop}
    (h : ∀ start, (Walk.alone data).Follows start move (stored start) reader other) :
    Agree legacy data (Observer.ofReader reader) (Observer.ofReader reader) := by
  refine refl (fun hplace hrun => ?_) fun cursor log => ⟨[], ?_, .nil⟩
  · unfold Observer.ofReader at hrun
    split at hrun
    · rename_i hread
      cases hrun
      obtain ⟨stop, hstop, -, hle, -⟩ := (h _).of_ok (Nat.zero_le _) hplace hread
      exact ⟨stop, hstop, hle⟩
    · cases hrun
  · rw [Log.recordAll_nil]
    unfold Observer.ofReader
    split <;> rfl

/-- After a step in which the strict form stopped, it does nothing more, and the lenient one can
only add to its log. If it did not stop, it is the second steps that are compared. -/
theorem bind {first strictFirst : Observer α} {next strictNext : α → Observer β}
    (hfirst : Agree legacy data first strictFirst)
    (hnext : ∀ value, Agree legacy data (next value) (strictNext value)) :
    Agree legacy data (first >>= next) (strictFirst >>= strictNext) where
  lands hplace h := by
    obtain ⟨value, middle, hvalue, hrest⟩ := bind_eq_ok.mp h
    obtain ⟨stop, hstop, hle⟩ := hfirst.lands hplace hvalue
    rw [show middle = ⟨Cursor.within data stop, middle.log⟩ by rw [← hstop]] at hrest
    exact (hnext value).lands hle hrest
  compared {place} log hplace := by
    have hcompared := hfirst.compared log hplace
    have hlands := @hfirst.lands place (some log)
    show Compared _ _ _ (EStateM.bind first next _) (EStateM.bind strictFirst strictNext _)
    unfold EStateM.bind
    generalize strictFirst ⟨Cursor.within data place, some log⟩ = strictRun at hcompared ⊢
    cases hrun : first ⟨Cursor.within data place, some log⟩ with
    | error fault middle =>
        rw [hrun] at hcompared
        cases hcompared with
        | same hlog hknown => exact .same hlog hknown
        | stopped hlog hkept hbefore hsector => exact .stopped hlog hkept hbefore hsector
    | ok value middle =>
        rw [hrun] at hcompared
        obtain ⟨stop, hstop, hle⟩ := hlands hplace hrun
        have hmiddle : ∀ {log}, middle.log = some log →
            middle = ⟨Cursor.within data stop, some log⟩ := by
          rintro log hlog
          rw [← hstop, ← hlog]
        cases hcompared with
        | @same notes hlog hknown =>
            have hrest := (hnext value).compared (log.recordAll notes) hle
            rw [← hmiddle hlog] at hrest
            exact hrest.prepend hknown
        | @stopped before after sector _ _ hlog hkept hbefore hsector =>
            have hrest := (hnext value).compared
              (log.recordAll (before ++ sector.unknownTagNote :: after)) hle
            rw [← hmiddle hlog] at hrest
            obtain ⟨notes, hnotes⟩ := hrest.adds
            rw [Log.recordAll_recordAll, List.append_assoc, List.cons_append] at hnotes
            exact .stopped hnotes hkept hbefore hsector

theorem repeated {lenient strict : Observer α} (h : Agree legacy data lenient strict) (n : Nat) :
    Agree legacy data (SceneSet.repeated lenient n) (SceneSet.repeated strict n) := by
  induction n with
  | zero => exact pure []
  | succ n ih => exact h.bind fun first => ih.bind fun rest => pure (first :: rest)

/-- Sectors without a normal are noted besides. -/
theorem allKnown_degenerate (degenerate : Bool) (sector : Sector) :
    AllKnown (if degenerate then [sector.degenerateNote] else []) := by
  intro note hnote
  split at hnote
  · rw [List.mem_singleton.mp hnote]
    show "degenerate" ≠ "unknown-tag"
    decide
  · exact absurd hnote List.not_mem_nil

theorem sector : Agree legacy data (Observer.sector ⟨false, legacy⟩)
    (Observer.sector ⟨true, legacy⟩) where
  lands {place log value after} hplace h := by
    have hread := Observes.sector ⟨false, legacy⟩ ⟨Cursor.within data place, log⟩
    rw [h] at hread
    obtain ⟨stop, hstop, hle, -⟩ := Sector.storedAt_of_read hplace hread.symm
    exact ⟨stop, hstop, hle⟩
  compared {place} log hplace := by
    rw [sector_eq, sector_strict_eq]
    dsimp only
    cases hread : Sector.read ⟨false, legacy⟩ (Cursor.within data place) with
    | error fault stop => exact .same (congrArg some log.recordAll_nil.symm) .nil
    | ok sector stop =>
        obtain ⟨-, -, -, _, hstored, -⟩ := Sector.storedAt_of_read hplace hread
        have hdegenerate := allKnown_degenerate (Polygon.isDegenerate legacy sector.vertices) sector
        dsimp only
        cases htype : sector.type? with
        | none =>
            have hnotes : sector.notes ⟨false, legacy⟩ = [] ++ sector.unknownTagNote ::
                (if Polygon.isDegenerate legacy sector.vertices
                  then [sector.degenerateNote] else []) := by
              unfold Sector.notes
              rw [htype]
              rfl
            rw [hnotes]
            exact .stopped rfl log.recordAll_nil.symm .nil
              ⟨⟨place, stop, hstored.offset, hread⟩, htype⟩
        | some type =>
            have hnotes : sector.notes ⟨false, legacy⟩ =
                if Polygon.isDegenerate legacy sector.vertices
                  then [sector.degenerateNote] else [] := by
              unfold Sector.notes
              rw [htype]
              rfl
            have hknown : AllKnown (sector.notes ⟨false, legacy⟩) := hnotes ▸ hdegenerate
            exact .same rfl hknown

theorem sections : Agree legacy data (Observer.sections ⟨false, legacy⟩)
    (Observer.sections ⟨true, legacy⟩) := by
  refine (ofReader fun _ => .count _).bind fun setupCount => ?_
  refine (ofReader fun _ => .repeated (fun _ => .setup) setupCount).bind fun setups => ?_
  refine (ofReader fun _ => .count _).bind fun lightCount => ?_
  refine (ofReader fun _ => .repeated (fun _ => .light) lightCount).bind fun lights => ?_
  refine (ofReader fun _ => .count _).bind fun sectorCount => ?_
  refine (sector.repeated sectorCount).bind fun sectors => ?_
  refine refl (fun hplace h => ?_) fun _ log => ⟨[], congrArg some log.recordAll_nil.symm, .nil⟩
  cases h
  exact ⟨_, rfl, hplace⟩

theorem scene : Agree legacy data (Observer.scene ⟨false, legacy⟩)
    (Observer.scene ⟨true, legacy⟩) := by
  refine sections.bind fun scene => refl (fun hplace h => ?_) fun cursor log => ?_
  · cases h
    exact ⟨_, rfl, hplace⟩
  · refine ⟨trailingNotes cursor, rfl, fun note hnote => ?_⟩
    unfold trailingNotes at hnote
    split at hnote
    · exact absurd hnote List.not_mem_nil
    · rw [List.mem_singleton.mp hnote]
      show "trailing-bytes" ≠ "unknown-tag"
      decide

end Agree

end Observer

/-- Notes that are all about something else have no first unknown tag. -/
theorem Log.firstUnknownTag?_eq_none {notes : List Diagnostic} (h : AllKnown notes) :
    firstUnknownTag? ⟨notes⟩ = none := by
  rw [firstUnknownTag?, List.find?_eq_none]
  intro note hnote hkind
  exact h note hnote (eq_of_beq hkind)

/-- The first unknown tag, and what was noted in front of it. -/
theorem Log.firstUnknownTag?_eq_some {before after : List Diagnostic} {note : Diagnostic}
    (hbefore : AllKnown before) (hnote : note.kind = "unknown-tag") :
    firstUnknownTag? ⟨before ++ note :: after⟩ = some note ∧
      beforeUnknownTag ⟨before ++ note :: after⟩ = ⟨before⟩ := by
  have hknown : ∀ other ∈ before, (other.kind != "unknown-tag") = true := fun other hother =>
    bne_iff_ne.mpr (hbefore other hother)
  constructor
  · have hnone : before.find? (·.kind == "unknown-tag") = none := firstUnknownTag?_eq_none hbefore
    rw [firstUnknownTag?, List.find?_append, hnone, Option.none_or, List.find?_cons_of_pos]
    exact beq_iff_eq.mpr hnote
  · rw [beforeUnknownTag, List.takeWhile_append_of_pos hknown, List.takeWhile_cons_of_neg,
      List.append_nil]
    rw [hnote]
    decide

/-- The log of a reading is the one that its observer ends with. -/
theorem Scene.read_snd (options : ReadOptions) (log : Option Log) (data : Bytes) :
    (Scene.read options log data).2 =
      (Observer.final (Observer.scene options ⟨Cursor.ofBytes data, log⟩)).log := by
  unfold Scene.read
  cases Observer.scene options ⟨Cursor.ofBytes data, log⟩ <;> rfl

/-- A strict reading of a set does what the lenient one does, down to the log and to every fault,
if that notes no unknown tag. Otherwise it stops with the tag of the sector that the first such note
is about, and with the log as it was before this note. -/
theorem Scene.read_strict (legacy : Bool) (data : Bytes) :
    ∃ log : Log, (Scene.read ⟨false, legacy⟩ (some .empty) data).2 = some log ∧
      match log.firstUnknownTag? with
      | none => Scene.read ⟨true, legacy⟩ (some .empty) data =
          Scene.read ⟨false, legacy⟩ (some .empty) data
      | some note => ∃ (start : Nat) (sector : Sector) (stop : Cursor),
          note.offset = start ∧ note = sector.unknownTagNote ∧
          Sector.read ⟨false, legacy⟩ (Cursor.within data start) = .ok sector stop ∧
          SectorType.ofTag? sector.tag = none ∧
          Scene.read ⟨true, legacy⟩ (some .empty) data =
            (.error (.unknownTag sector.tag note.offset "SectorType"),
              some log.beforeUnknownTag) := by
  have hcompared : Observer.Compared legacy data .empty
      (Observer.scene ⟨false, legacy⟩ ⟨Cursor.ofBytes data, some .empty⟩)
      (Observer.scene ⟨true, legacy⟩ ⟨Cursor.ofBytes data, some .empty⟩) :=
    Observer.Agree.scene.compared .empty (Nat.zero_le data.length)
  have hfinal := Scene.read_snd ⟨false, legacy⟩ (some .empty) data
  unfold Scene.read at hfinal ⊢
  generalize Observer.scene ⟨false, legacy⟩ ⟨Cursor.ofBytes data, some .empty⟩ = lenient at *
  generalize Observer.scene ⟨true, legacy⟩ ⟨Cursor.ofBytes data, some .empty⟩ = strict at *
  cases hcompared with
  | @same notes hlog hknown =>
      refine ⟨⟨notes⟩, hfinal.trans hlog, ?_⟩
      rw [Log.firstUnknownTag?_eq_none hknown]
  | @stopped before after sector stop kept hlog hkept hbefore hsector =>
      obtain ⟨⟨start, place, hoffset, hread⟩, htype⟩ := hsector
      obtain ⟨hfirst, hcut⟩ :=
        @Log.firstUnknownTag?_eq_some before after sector.unknownTagNote hbefore rfl
      refine ⟨⟨before ++ sector.unknownTagNote :: after⟩, hfinal.trans hlog, ?_⟩
      rw [hfirst, hcut]
      exact ⟨start, sector, place, hoffset, rfl, hread, htype, by rw [hkept]; rfl⟩

end SceneSet
