import SceneSet.Scene

/-!
# Reading a set without a log

`Scene.reader` reads a whole set and notes nothing. Leaving the log out of what `Scene.read` does
gives just what this reader does (`Scene.read_fst`), so a log never changes what is read.
-/

namespace SceneSet

/-- What a set has in front of its sectors, with all three counts. -/
structure Scene.Front where
  setups : List Setup
  lights : List Light
  setupCount : Nat
  lightCount : Nat
  sectorCount : Nat

/-- Reads what a set has in front of its sectors. -/
def Scene.front : Reader Scene.Front := do
  let setupCount ← Reader.count "setup count"
  let setups ← repeated Setup.read setupCount
  let lightCount ← Reader.count "light count"
  let lights ← repeated Light.read lightCount
  let sectorCount ← Reader.count "sector count"
  pure ⟨setups, lights, setupCount, lightCount, sectorCount⟩

/-- A whole set, read without a log. -/
def Scene.reader (options : ReadOptions) : Reader Scene := do
  let setupCount ← Reader.count "setup count"
  let setups ← repeated Setup.read setupCount
  let lightCount ← Reader.count "light count"
  let lights ← repeated Light.read lightCount
  let sectorCount ← Reader.count "sector count"
  let sectors ← repeated (Sector.read options) sectorCount
  let stop ← Reader.offset
  pure ⟨setups, lights, sectors, setupCount, lightCount, sectorCount, stop, "", []⟩

/-- The sectors follow what is in front of them. -/
theorem Scene.reader_eq (options : ReadOptions) : Scene.reader options = (do
    let front ← Scene.front
    let sectors ← repeated (Sector.read options) front.sectorCount
    let stop ← Reader.offset
    pure ⟨front.setups, front.lights, sectors, front.setupCount, front.lightCount,
      front.sectorCount, stop, "", []⟩) := by
  simp only [Scene.reader, Scene.front, bind_assoc, pure_bind]

namespace Observer

variable {α β : Type}

/-- What an observer did, without its log. -/
def erase : EStateM.Result Fault Progress α → EStateM.Result Fault Cursor α
  | .ok value progress => .ok value progress.cursor
  | .error fault progress => .error fault progress.cursor

/-- An observer does what a reader does, and keeps a log besides. -/
def Observes (observer : Observer α) (reader : Reader α) : Prop :=
  ∀ progress, erase (observer progress) = reader progress.cursor

namespace Observes

theorem pure (value : α) : Observes (Pure.pure value) (Pure.pure value) := fun _ => rfl

theorem ofReader (reader : Reader α) : Observes (Observer.ofReader reader) reader := by
  intro progress
  unfold Observer.ofReader
  cases reader progress.cursor <;> rfl

theorem bind {first : Observer α} {next : α → Observer β} {reader : Reader α}
    {readNext : α → Reader β} (hfirst : Observes first reader)
    (hnext : ∀ value, Observes (next value) (readNext value)) :
    Observes (first >>= next) (reader >>= readNext) := by
  intro progress
  have herase := hfirst progress
  show erase (EStateM.bind first next progress) = EStateM.bind reader readNext progress.cursor
  unfold EStateM.bind
  rw [← herase]
  cases first progress with
  | ok value after => exact hnext value after
  | error fault after => rfl

/-- Noting something changes the log alone. -/
theorem note_bind {next : Unit → Observer β} {reader : Reader β} (entries : List Diagnostic)
    (hnext : Observes (next ()) reader) : Observes (note entries >>= next) reader :=
  fun progress => hnext { progress with log := progress.log.map (·.recordAll entries) }

theorem repeated {observer : Observer α} {reader : Reader α} (h : Observes observer reader)
    (n : Nat) : Observes (SceneSet.repeated observer n) (SceneSet.repeated reader n) := by
  induction n with
  | zero => exact pure []
  | succ n ih => exact h.bind fun first => ih.bind fun rest => pure (first :: rest)

theorem sector (options : ReadOptions) :
    Observes (Observer.sector options) (Sector.read options) := by
  have h : Observes (Observer.sector options)
      (Sector.read options >>= fun sector => Pure.pure sector) :=
    (ofReader _).bind fun sector => note_bind _ (pure sector)
  rwa [bind_pure] at h

theorem sections (options : ReadOptions) :
    Observes (Observer.sections options) (Scene.reader options) := by
  refine (ofReader _).bind fun setupCount => ?_
  refine (ofReader _).bind fun setups => ?_
  refine (ofReader _).bind fun lightCount => ?_
  refine (ofReader _).bind fun lights => ?_
  refine (ofReader _).bind fun sectorCount => ?_
  refine ((sector options).repeated sectorCount).bind fun sectors => ?_
  exact fun progress => rfl

theorem scene (options : ReadOptions) :
    Observes (Observer.scene options) (Scene.reader options) := by
  have h : Observes (Observer.scene options)
      (Scene.reader options >>= fun scene => Pure.pure scene) :=
    (sections options).bind fun scene progress => rfl
  rwa [bind_pure] at h

end Observes

end Observer

/-- What is read does not depend on the log. -/
theorem Scene.read_fst (options : ReadOptions) (log : Option Log) (data : Bytes) :
    (Scene.read options log data).1 =
      match Scene.reader options (Cursor.ofBytes data) with
      | .ok scene _ => .ok scene
      | .error fault _ => .error fault := by
  rw [← Observer.Observes.scene options ⟨Cursor.ofBytes data, log⟩]
  unfold Scene.read
  cases Observer.scene options ⟨Cursor.ofBytes data, log⟩ <;> rfl

/-- A scene is read just if the reader without a log gives it. -/
theorem Scene.read_fst_eq_ok {options : ReadOptions} {log : Option Log} {data : Bytes}
    {scene : Scene} :
    (Scene.read options log data).1 = .ok scene ↔
      ∃ stop, Scene.reader options (Cursor.ofBytes data) = .ok scene stop := by
  rw [Scene.read_fst]
  cases Scene.reader options (Cursor.ofBytes data) with
  | ok other stop =>
      constructor
      · intro h
        cases h
        exact ⟨stop, rfl⟩
      · rintro ⟨_, h⟩
        cases h
        rfl
  | error fault stop =>
      constructor
      · intro h
        cases h
      · rintro ⟨_, h⟩
        cases h

end SceneSet
