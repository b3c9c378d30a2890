import SceneSet.Proofs.Reader.Growth
import SceneSet.Proofs.Stored.Tiling

/-!
# Sets in longer and in shorter buffers

What follows a set in its buffer does not matter to its reading, and what is cut off it is missed.
`Grows` extends the stability of readers to actions that keep a log: when the buffer goes on, the
log goes on where a fault ended it. `Scene.read_append` is the result for whole sets.
-/

namespace SceneSet

/-- The same progress in a buffer that goes on. -/
def Progress.grow (tail : Bytes) (progress : Progress) : Progress :=
  { progress with cursor := progress.cursor.grow tail }

/-- The later log goes on where the earlier one ends. -/
def Progress.Extends (earlier later : Progress) : Prop :=
  ∃ entries, later.log = earlier.log.map (·.recordAll entries)

namespace Progress.Extends

theorem of_log_eq {earlier later : Progress} (h : later.log = earlier.log) :
    earlier.Extends later := by
  refine ⟨[], ?_⟩
  rw [h]
  cases earlier.log with
  | none => rfl
  | some log => simp [Log.recordAll]

theorem trans {first second third : Progress} (hfirst : first.Extends second)
    (hsecond : second.Extends third) : first.Extends third := by
  obtain ⟨entries, hentries⟩ := hfirst
  obtain ⟨further, hfurther⟩ := hsecond
  refine ⟨entries ++ further, ?_⟩
  rw [hfurther, hentries, Option.map_map]
  congr 1
  funext log
  simp [Log.recordAll]

end Progress.Extends

namespace Observer

variable {α β : Type} {tail : Bytes}

/-- Where an observer stops, with a value or with a fault. -/
def final : EStateM.Result Fault Progress α → Progress
  | .ok _ progress => progress
  | .error _ progress => progress

/-- What an observer does in a buffer that goes on: it is stable, it only ever adds to the log, and
after a fault of any kind in the shorter buffer the log goes on from there. -/
structure Grows (tail : Bytes) (observer : Observer α) : Prop where
  stable : Stable (Progress.grow tail) observer
  adds : ∀ progress : Progress, progress.Extends (final (observer progress))
  resumes : ∀ {before fault} {after : Progress}, observer before = .error fault after →
    after.Extends (final (observer (before.grow tail)))

namespace Grows

theorem pure (value : α) : Grows tail (Pure.pure value) where
  stable := .pure value
  adds _ := .of_log_eq rfl
  resumes h := by cases h

theorem ofReader {reader : Reader α} (h : Stable (Cursor.grow tail) reader) :
    Grows tail (Observer.ofReader reader) where
  stable := {
    ok := by
      intro before value after hrun
      unfold Observer.ofReader at hrun ⊢
      split at hrun
      · rename_i hread
        cases hrun
        simp only [Progress.grow, h.ok hread]
      · cases hrun
    error := by
      intro before fault after hrun hkind
      unfold Observer.ofReader at hrun ⊢
      split at hrun
      · cases hrun
      · rename_i hread
        cases hrun
        simp only [Progress.grow, h.error hread hkind] }
  adds progress := by
    unfold Observer.ofReader
    split <;> exact .of_log_eq rfl
  resumes {before fault after} hrun := by
    have hlog : after.log = before.log := by
      unfold Observer.ofReader at hrun
      split at hrun
      · cases hrun
      · cases hrun
        rfl
    unfold Observer.ofReader
    split <;> exact .of_log_eq hlog.symm

theorem note (entries : List Diagnostic) : Grows tail (Observer.note entries) where
  stable := {
    ok := by
      intro before value after h
      cases h
      rfl
    error := by
      intro before fault after h _
      cases h }
  adds progress := ⟨entries, rfl⟩
  resumes h := by cases h

/-- The second step of a chain adds to the log of the first. -/
theorem final_bind {first : Observer α} {next : α → Observer β}
    (hnext : ∀ value, Grows tail (next value)) (progress : Progress) :
    (final (first progress)).Extends (final ((first >>= next) progress)) := by
  show Progress.Extends _ (final (EStateM.bind first next progress))
  unfold EStateM.bind
  cases first progress with
  | ok value middle => exact (hnext value).adds middle
  | error fault middle => exact .of_log_eq rfl

theorem bind {first : Observer α} {next : α → Observer β} (hfirst : Grows tail first)
    (hnext : ∀ value, Grows tail (next value)) : Grows tail (first >>= next) where
  stable := hfirst.stable.bind fun value => (hnext value).stable
  adds progress := (hfirst.adds progress).trans (final_bind hnext progress)
  resumes {before fault after} h := by
    rcases bind_eq_error.mp h with hfault | ⟨value, middle, hvalue, hfault⟩
    · exact (hfirst.resumes hfault).trans (final_bind hnext _)
    · -- the first step is over in both buffers, so the second resumes alone
      rw [bind_of_ok (hfirst.stable.ok hvalue)]
      exact (hnext value).resumes hfault

theorem repeated {observer : Observer α} (h : Grows tail observer) (n : Nat) :
    Grows tail (SceneSet.repeated observer n) := by
  induction n with
  | zero => exact pure []
  | succ n ih => exact h.bind fun first => ih.bind fun rest => pure (first :: rest)

theorem sector (options : ReadOptions) : Grows tail (Observer.sector options) := by
  have hsector : Stable (Cursor.grow tail) (Sector.read options) :=
    .of_follows fun data _ => (Walk.Follows.sector Walk.refuses_between
      (Walk.named_of_whole (Nat.le_refl data.length) _)).same Sector.moved_zero
  exact (ofReader hsector).bind fun _ => (note _).bind fun _ => pure _

/-- The offset at which an observer stops does not depend on what follows. -/
theorem stopAt (value : Nat → α) :
    Grows tail (Observer.cursor >>= fun stop => Pure.pure (value stop.offset)) where
  stable := {
    ok := by
      intro before result after h
      cases h
      rfl
    error := by
      intro before fault after h _
      cases h }
  adds _ := .of_log_eq rfl
  resumes h := by cases h

theorem sections (options : ReadOptions) : Grows tail (Observer.sections options) := by
  have hcount (what : String) : Stable (Cursor.grow tail) (Reader.count what) :=
    .of_follows fun _ _ => .count what
  have hsetup : Stable (Cursor.grow tail) Setup.read :=
    .of_follows fun _ _ => Walk.Follows.setup.same Setup.moved_zero
  have hlight : Stable (Cursor.grow tail) Light.read :=
    .of_follows fun _ _ => Walk.Follows.light.same Light.moved_zero
  refine (ofReader (hcount _)).bind fun setupCount => ?_
  refine (ofReader (hsetup.repeated setupCount)).bind fun setups => ?_
  refine (ofReader (hcount _)).bind fun lightCount => ?_
  refine (ofReader (hlight.repeated lightCount)).bind fun lights => ?_
  refine (ofReader (hcount _)).bind fun sectorCount => ?_
  refine ((sector options).repeated sectorCount).bind fun sectors => ?_
  exact stopAt fun stop : Nat =>
    (⟨setups, lights, sectors, setupCount, lightCount, sectorCount, stop, "", []⟩ : Scene)

end Grows

/-- The three sections stop at the length of the scene. -/
theorem sections_stop {options : ReadOptions} {log : Option Log} {data : Bytes} {scene : Scene}
    {after : Progress} (h : sections options ⟨Cursor.ofBytes data, log⟩ = .ok scene after) :
    ∃ stop : Nat, scene.length = stop ∧ stop ≤ data.length ∧
      after.cursor = Cursor.within data stop := by
  have hreader := Observes.sections options ⟨Cursor.ofBytes data, log⟩
  rw [h] at hreader
  obtain ⟨stop, hstop, hle, hstored⟩ := Scene.storedAt_of_reader hreader.symm
  exact ⟨stop, hstored.length, hle, hstop⟩

end Observer

namespace Scene

/-- A set is read by reading its sections and noting what follows them. -/
theorem read_eq (options : ReadOptions) (log : Option Log) (data : Bytes) :
    read options log data =
      match Observer.sections options ⟨Cursor.ofBytes data, log⟩ with
      | .ok scene after =>
          (.ok scene, after.log.map (·.recordAll (Observer.trailingNotes after.cursor)))
      | .error fault after => (.error fault, after.log) := by
  have hscene : Observer.scene options ⟨Cursor.ofBytes data, log⟩ =
      match Observer.sections options ⟨Cursor.ofBytes data, log⟩ with
      | .ok scene after => .ok scene
          { after with log := after.log.map (·.recordAll (Observer.trailingNotes after.cursor)) }
      | .error fault after => .error fault after := by
    show EStateM.bind (Observer.sections options) _ _ = _
    unfold EStateM.bind
    cases Observer.sections options ⟨Cursor.ofBytes data, log⟩ <;> rfl
  unfold read
  rw [hscene]
  cases Observer.sections options ⟨Cursor.ofBytes data, log⟩ <;> rfl

/-- After the sections only the bytes that follow them are noted. -/
theorem sections_extends (options : ReadOptions) (log : Option Log) (data : Bytes) :
    (Observer.final (Observer.sections options ⟨Cursor.ofBytes data, log⟩)).Extends
      ⟨Cursor.ofBytes data, (read options log data).2⟩ := by
  rw [read_eq]
  cases Observer.sections options ⟨Cursor.ofBytes data, log⟩ with
  | ok scene progress => exact ⟨Observer.trailingNotes progress.cursor, rfl⟩
  | error fault progress => exact .of_log_eq rfl

variable {options : ReadOptions} {log : Option Log} {data : Bytes}

/-- A set that was read is read again if the buffer goes on, and but for what follows it the same is
noted. -/
theorem read_append_ok {scene : Scene} {after : Option Log}
    (h : read options log data = (.ok scene, after)) :
    scene.length.toNat ≤ data.length ∧ ∃ noted : Option Log, ∀ tail,
      read options log (data ++ tail) = (.ok scene, noted.map (·.recordAll
        (Observer.trailingNotes (Cursor.within (data ++ tail) scene.length.toNat)))) := by
  rw [read_eq] at h
  split at h
  · rename_i result progress hsections
    cases h
    obtain ⟨stop, hlength, hle, hcursor⟩ := Observer.sections_stop hsections
    have hstop : scene.length.toNat = stop := by omega
    refine ⟨by omega, progress.log, fun tail => ?_⟩
    have hlonger : Observer.sections options ⟨Cursor.ofBytes (data ++ tail), log⟩ =
        .ok scene (progress.grow tail) :=
      (Observer.Grows.sections options).stable.ok hsections
    have hgrown : (progress.grow tail).cursor = Cursor.within (data ++ tail) stop := by
      show progress.cursor.grow tail = _
      rw [hcursor, Cursor.grow_within tail hle]
    rw [read_eq, hlonger]
    dsimp only
    rw [hgrown, hstop]
    rfl
  · cases h

/-- A fault that is no truncation is met again if the buffer goes on, with the same log. -/
theorem read_append_fault {fault : Fault} {after : Option Log}
    (h : read options log data = (.error fault, after)) (hkind : fault.kind ≠ .truncated)
    (tail : Bytes) : read options log (data ++ tail) = (.error fault, after) := by
  rw [read_eq] at h
  split at h
  · cases h
  · rename_i progress hsections
    cases h
    have hlonger : Observer.sections options ⟨Cursor.ofBytes (data ++ tail), log⟩ =
        .error fault (progress.grow tail) :=
      (Observer.Grows.sections options).stable.error hsections hkind
    rw [read_eq, hlonger]
    rfl

/-- The log of a set that was stopped by a fault is the start of the log of every longer buffer. -/
theorem read_append_log {fault : Fault} {after : Option Log}
    (h : read options log data = (.error fault, after)) (tail : Bytes) :
    ∃ entries, (read options log (data ++ tail)).2 = after.map (·.recordAll entries) := by
  rw [read_eq] at h
  split at h
  · cases h
  · rename_i progress hsections
    cases h
    have hgrows : Observer.Grows tail (Observer.sections options) := .sections options
    have hresumes := hgrows.resumes hsections
    exact hresumes.trans (sections_extends options log (data ++ tail))

/-- The start of a buffer with a set gives this set, if it is not truncated. -/
theorem read_take {scene : Scene} {after : Option Log}
    (h : read options log data = (.ok scene, after)) (kept : Nat) :
    (read options log (data.take kept)).1 = .ok scene ∧ scene.length ≤ kept ∨
      ∃ fault, (read options log (data.take kept)).1 = .error fault ∧ fault.kind = .truncated := by
  cases hcut : read options log (data.take kept) with
  | mk result noted =>
      cases result with
      | ok other =>
          -- what was read of the start is read of the whole buffer again
          obtain ⟨hle, _, hagain⟩ := read_append_ok hcut
          have hother := hagain (data.drop kept)
          rw [List.take_append_drop, h] at hother
          cases hother
          refine .inl ⟨rfl, ?_⟩
          rw [List.length_take] at hle
          omega
      | error fault =>
          refine .inr ⟨fault, rfl, ?_⟩
          by_contra hkind
          have hagain := read_append_fault hcut hkind (data.drop kept)
          rw [List.take_append_drop, h] at hagain
          cases hagain

/-- What a buffer is read as is decided by the set at its start. A set is read again, with the same
notes but for the bytes that follow it, whatever follows; it is missed by every cut that takes some
of it, and found or missed by the others. A fault that is no truncation is met again with the same
notes, and after a truncation the notes go on. -/
theorem read_append (options : ReadOptions) (log : Option Log) (data : Bytes) :
    (∀ scene after, read options log data = (.ok scene, after) →
      (∃ noted : Option Log,
        after = noted.map (·.recordAll
          (Observer.trailingNotes (Cursor.within data scene.length.toNat))) ∧
        ∀ tail, read options log (data ++ tail) = (.ok scene, noted.map (·.recordAll
          (Observer.trailingNotes (Cursor.within (data ++ tail) scene.length.toNat))))) ∧
      (∀ kept : Nat, kept < scene.length →
        ∃ fault, (read options log (data.take kept)).1 = .error fault ∧
          fault.kind = .truncated) ∧
      (∀ kept : Nat, scene.length ≤ kept →
        (read options log (data.take kept)).1 = .ok scene ∨
        ∃ fault, (read options log (data.take kept)).1 = .error fault ∧
          fault.kind = .truncated)) ∧
    (∀ fault after, read options log data = (.error fault, after) → ∀ tail,
      (fault.kind ≠ .truncated → read options log (data ++ tail) = (.error fault, after)) ∧
      ∃ entries, (read options log (data ++ tail)).2 = after.map (·.recordAll entries)) := by
  constructor
  · intro scene after h
    obtain ⟨_, noted, hagain⟩ := read_append_ok h
    have hitself := hagain []
    rw [List.append_nil, h] at hitself
    refine ⟨⟨noted, congrArg Prod.snd hitself, hagain⟩, fun kept hkept => ?_, fun kept hkept => ?_⟩
    · rcases read_take h kept with ⟨_, hlength⟩ | htruncated
      · omega
      · exact htruncated
    · rcases read_take h kept with ⟨hscene, _⟩ | htruncated
      · exact .inl hscene
      · exact .inr htruncated
  · intro fault after h tail
    exact ⟨fun hkind => read_append_fault h hkind tail, read_append_log h tail⟩

/-- The set with an overrunning name in longer and shorter buffers. -/
theorem read_append_overrun :
    read ⟨true, false⟩ none overrunBytes = (.ok overrun, none) ∧
      (∃ noted : Option Log, read ⟨true, false⟩ none (overrunBytes ++ [1, 2]) =
        (.ok overrun, noted.map (·.recordAll (Observer.trailingNotes ⟨37, [1, 2]⟩)))) ∧
      ∃ fault, (read ⟨true, false⟩ none (overrunBytes.take 36)).1 = .error fault ∧
        fault.kind = .truncated := by
  have hread : read ⟨true, false⟩ none overrunBytes = (.ok overrun, none) := by decide +kernel
  obtain ⟨⟨noted, _, hagain⟩, hcut, _⟩ :=
    (read_append ⟨true, false⟩ none overrunBytes).1 overrun none hread
  exact ⟨hread, ⟨noted, hagain [1, 2]⟩, hcut 36 (by decide)⟩

end Scene

end SceneSet
