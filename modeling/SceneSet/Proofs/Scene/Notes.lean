import SceneSet.Proofs.Scene.Faults

/-!
# What is noted while a set is read

The notes of a reading are those of its sectors, in their order, and then one of the bytes that
follow the last sector, if there are any. A reading that stops has the notes of the sectors that it
has read before (`Scene.Stops`), and no note of what follows. `Scene.read_notes` says so of every
buffer, and that keeping a log changes nothing else.
-/

namespace SceneSet

/-! ### Notes of sectors and of scenes -/

/-- The tags of sectors that are known. -/
def SectorType.tags : List Int := [0x0000, 0x1000, 0x1100, 0x2000, 0x4000, 0x8000]

/-- What there is to remark about a sector: first that its tag is unknown, and then that its
vertices have no normal. -/
def Sector.remarks (legacy : Bool) (sector : Sector) : List Diagnostic :=
  (if sector.tag ∈ SectorType.tags then [] else [sector.unknownTagNote])
    ++ (if Polygon.isDegenerate legacy sector.vertices then [sector.degenerateNote] else [])

/-- What there is to remark about a scene in a buffer of `size` bytes. -/
def Scene.remarks (legacy : Bool) (size : Nat) (scene : Scene) : List Diagnostic :=
  scene.sectors.flatMap (Sector.remarks legacy)
    ++ (if scene.length < size then
        [⟨"trailing-bytes", scene.length,
          Numeral.text (size - scene.length) ++ " byte(s) left after the last sector"⟩]
      else [])

/-- The offsets of some notes never decrease. -/
def InOrder (notes : List Diagnostic) : Prop :=
  notes.Pairwise fun first second => first.offset ≤ second.offset

theorem SectorType.isNone_ofTag? (tag : Int) :
    (ofTag? tag).isNone = true ↔ tag ∉ tags := by
  rw [Option.isNone_iff_eq_none, ofTag?, List.find?_eq_none]
  simp [all, tags, SectorType.tag, eq_comm]

theorem Sector.notes_eq (options : ReadOptions) (sector : Sector) :
    sector.notes options = sector.remarks options.legacyNormal := by
  unfold notes remarks
  congr 1
  by_cases htag : sector.tag ∈ SectorType.tags
  · rw [if_pos htag, if_neg]
    exact fun hnone => (SectorType.isNone_ofTag? _).mp hnone htag
  · rw [if_neg htag, if_pos]
    exact (SectorType.isNone_ofTag? _).mpr htag

/-- A sector is remarked about at its own offset. -/
theorem Sector.offset_of_mem_remarks {legacy : Bool} {sector : Sector} {note : Diagnostic}
    (h : note ∈ sector.remarks legacy) : note.offset = sector.offset := by
  rcases List.mem_append.mp h with htag | hnormal
  · split at htag
    · cases htag
    · rw [List.mem_singleton.mp htag]
      rfl
  · split at hnormal
    · rw [List.mem_singleton.mp hnormal]
      rfl
    · cases hnormal

/-- The remarks about sectors that are stored one right behind the other are in order, and inside of
what the sectors take. -/
theorem Tiled.inOrder_remarks {legacy : Bool} {data : Bytes} {start stop : Nat}
    {sectors : List Sector} (h : Tiled (Sector.StoredAt legacy data) start sectors stop) :
    start ≤ stop ∧ InOrder (sectors.flatMap (Sector.remarks legacy)) ∧
      ∀ note ∈ sectors.flatMap (Sector.remarks legacy),
        (start : Int) ≤ note.offset ∧ note.offset ≤ stop := by
  induction h with
  | nil start => exact ⟨Nat.le_refl start, .nil, by simp⟩
  | @cons start middle stop sector sectors hsector _ ih =>
      obtain ⟨sizes, hwith, hmiddle⟩ := hsector
      obtain ⟨hle, horder, hbounds⟩ := ih
      -- remarks about a sector all have its offset, and those about later ones have later offsets
      have hself : ∀ note ∈ sector.remarks legacy, note.offset = start := fun note hnote =>
        (Sector.offset_of_mem_remarks hnote).trans hwith.offset
      rw [List.flatMap_cons]
      refine ⟨by omega, List.pairwise_append.mpr ⟨?_, horder, ?_⟩, ?_⟩
      · rw [List.pairwise_iff_getElem]
        intro i j hi hj _
        rw [hself _ (List.getElem_mem hi), hself _ (List.getElem_mem hj)]
      · intro first hfirst second hsecond
        have hsecond := (hbounds second hsecond).1
        rw [hself first hfirst]
        omega
      · intro note hnote
        rcases List.mem_append.mp hnote with hfirst | hrest
        · rw [hself note hfirst]
          omega
        · have hrest := hbounds note hrest
          omega

/-! ### How far a reading gets -/

/-- A reading of a set stops because of a fault when it has read these sectors: either in front of
all sectors, or at the sector that follows them. -/
inductive Scene.Stops (options : ReadOptions) (data : Bytes) (fault : Fault) :
    List Sector → Prop where
  | front {stop : Cursor} : Scene.front (Cursor.ofBytes data) = .error fault stop →
      Stops options data fault []
  | sector {front : Scene.Front} {start place stop : Cursor} {completed : List Sector} :
      Scene.front (Cursor.ofBytes data) = .ok front start →
      completed.length < front.sectorCount →
      repeated (Sector.read options) completed.length start = .ok completed place →
      Sector.read options place = .error fault stop →
      Stops options data fault completed

/-- In front of where a repeated action stands after some runs, it has succeeded each time. -/
theorem repeated_take {ε σ α : Type} {action : EStateM ε σ α} {n : Nat} {before after : σ}
    {values : List α} (h : repeated action n before = .ok values after) {k : Nat} (hk : k < n) :
    ∃ middle, repeated action k before = .ok (values.take k) middle ∧
      ∃ value next, action middle = .ok value next := by
  induction n generalizing before values k with
  | zero => omega
  | succ n ih =>
      obtain ⟨first, middle, hfirst, hrest⟩ := bind_eq_ok.mp h
      obtain ⟨rest, _, hrepeated, hvalues⟩ := bind_eq_ok.mp hrest
      cases hvalues
      cases k with
      | zero => exact ⟨before, rfl, first, middle, hfirst⟩
      | succ k =>
          obtain ⟨place, hplace, hnext⟩ := ih hrepeated (Nat.lt_of_succ_lt_succ hk)
          exact ⟨place, bind_eq_ok.mpr ⟨first, middle, hfirst,
            bind_eq_ok.mpr ⟨_, place, hplace, rfl⟩⟩, hnext⟩

namespace Scene.Stops

variable {options : ReadOptions} {data : Bytes} {fault : Fault} {completed others : List Sector}

/-- A reading that has read more sectors does not stop at one of these. -/
theorem length_le (h : Stops options data fault completed) (hother : Stops options data fault others) :
    completed.length ≤ others.length := by
  cases hother with
  | front hfront =>
      cases h with
      | front => exact Nat.le_refl _
      | sector hother =>
          rw [hfront] at hother
          cases hother
  | sector hfront _ hothers hfault =>
      cases h with
      | front => exact Nat.zero_le _
      | sector hsame _ hcompleted _ =>
          rw [hfront] at hsame
          cases hsame
          by_contra hlt
          -- the sector that cannot be read would be among those that were
          obtain ⟨place, hplace, value, next, hnext⟩ :=
            repeated_take hcompleted (Nat.lt_of_not_le hlt)
          rw [hothers] at hplace
          obtain ⟨-, rfl⟩ := EStateM.Result.ok.inj hplace
          rw [hfault] at hnext
          cases hnext

/-- The sectors that a reading has read before it stops are determined by the buffer. -/
theorem unique (h : Stops options data fault completed) (hother : Stops options data fault others) :
    completed = others := by
  have hlength : completed.length = others.length :=
    Nat.le_antisymm (h.length_le hother) (hother.length_le h)
  cases h with
  | front => exact (List.length_eq_zero_iff.mp hlength.symm).symm
  | sector hfront _ hcompleted _ =>
      cases hother with
      | front => exact List.length_eq_zero_iff.mp hlength
      | sector hsame _ hothers _ =>
          rw [hfront] at hsame
          cases hsame
          rw [hlength, hothers] at hcompleted
          cases hcompleted
          rfl

end Scene.Stops

/-! ### The notes of a run -/

namespace Observer

variable {options : ReadOptions} {progress after : Progress} {n : Nat} {sectors : List Sector}
  {fault : Fault}

/-- A sector that is read leaves its remarks in the log. -/
theorem sector_ok {sector : Sector} (h : Observer.sector options progress = .ok sector after) :
    Sector.read options progress.cursor = .ok sector after.cursor ∧
      after.log = progress.log.map (·.recordAll (sector.remarks options.legacyNormal)) := by
  rw [sector_eq] at h
  split at h
  · rename_i hread
    cases h
    exact ⟨hread, by rw [← Sector.notes_eq]⟩
  · cases h

/-- One that cannot be read leaves none. -/
theorem sector_error (h : Observer.sector options progress = .error fault after) :
    Sector.read options progress.cursor = .error fault after.cursor ∧
      after.log = progress.log := by
  rw [sector_eq] at h
  split at h
  · cases h
  · rename_i hread
    cases h
    exact ⟨hread, rfl⟩

theorem ofReader_ok {α : Type} {reader : Reader α} {value : α}
    (h : ofReader reader progress = .ok value after) :
    reader progress.cursor = .ok value after.cursor ∧ after.log = progress.log := by
  unfold ofReader at h
  cases hread : reader progress.cursor with
  | ok value cursor =>
      rw [hread] at h
      cases h
      exact ⟨rfl, rfl⟩
  | error fault cursor =>
      rw [hread] at h
      cases h

theorem ofReader_error {α : Type} {reader : Reader α}
    (h : ofReader reader progress = .error fault after) :
    reader progress.cursor = .error fault after.cursor ∧ after.log = progress.log := by
  unfold ofReader at h
  cases hread : reader progress.cursor with
  | ok value cursor =>
      rw [hread] at h
      cases h
  | error fault cursor =>
      rw [hread] at h
      cases h
      exact ⟨rfl, rfl⟩

theorem map_recordAll (log : Option Log) (notes further : List Diagnostic) :
    (log.map (·.recordAll notes)).map (·.recordAll further) =
      log.map (·.recordAll (notes ++ further)) := by
  rw [Option.map_map]
  congr 1
  funext log
  exact log.recordAll_recordAll notes further

theorem map_recordAll_nil (log : Option Log) : log.map (·.recordAll []) = log := by
  cases log <;> simp [Log.recordAll_nil]

/-- Sectors that are read leave their remarks in the log, in their order. -/
theorem sectors_ok (h : repeated (Observer.sector options) n progress = .ok sectors after) :
    repeated (Sector.read options) n progress.cursor = .ok sectors after.cursor ∧
      after.log = progress.log.map
        (·.recordAll (sectors.flatMap (Sector.remarks options.legacyNormal))) := by
  induction n generalizing progress sectors with
  | zero =>
      cases h
      exact ⟨rfl, (map_recordAll_nil _).symm⟩
  | succ n ih =>
      obtain ⟨first, middle, hfirst, hrest⟩ := bind_eq_ok.mp h
      obtain ⟨rest, last, hrepeated, hsectors⟩ := bind_eq_ok.mp hrest
      cases hsectors
      obtain ⟨hread, hlog⟩ := sector_ok hfirst
      obtain ⟨hreads, hlogs⟩ := ih hrepeated
      refine ⟨bind_eq_ok.mpr ⟨first, _, hread, bind_eq_ok.mpr ⟨rest, _, hreads, rfl⟩⟩, ?_⟩
      rw [hlogs, hlog, map_recordAll, List.flatMap_cons]

/-- If one of some sectors cannot be read, then those in front of it have left their remarks. -/
theorem sectors_error (h : repeated (Observer.sector options) n progress = .error fault after) :
    ∃ completed place, completed.length < n ∧
      repeated (Sector.read options) completed.length progress.cursor = .ok completed place ∧
      Sector.read options place = .error fault after.cursor ∧
      after.log = progress.log.map
        (·.recordAll (completed.flatMap (Sector.remarks options.legacyNormal))) := by
  induction n generalizing progress with
  | zero => cases h
  | succ n ih =>
      rcases bind_eq_error.mp h with hfault | ⟨first, middle, hfirst, hrest⟩
      · obtain ⟨hread, hlog⟩ := sector_error hfault
        exact ⟨[], progress.cursor, Nat.succ_pos n, rfl, hread,
          hlog.trans (map_recordAll_nil _).symm⟩
      rcases bind_eq_error.mp hrest with hfault | ⟨_, _, _, hpure⟩
      · -- the first sector is in front of those that the rest has read
        obtain ⟨hread, hlog⟩ := sector_ok hfirst
        obtain ⟨completed, place, hlt, hreads, hstop, hlogs⟩ := ih hfault
        refine ⟨first :: completed, place, Nat.succ_lt_succ hlt, ?_, hstop, ?_⟩
        · exact bind_eq_ok.mpr ⟨first, _, hread, bind_eq_ok.mpr ⟨completed, _, hreads, rfl⟩⟩
        · rw [hlogs, hlog, map_recordAll, List.flatMap_cons]
      · cases hpure

theorem ofReader_bind {α β : Type} (reader : Reader α) (next : α → Reader β) :
    ofReader (reader >>= next) = ofReader reader >>= fun value => ofReader (next value) := by
  funext progress
  show ofReader (EStateM.bind reader next) progress = EStateM.bind (ofReader reader) _ progress
  simp only [ofReader, EStateM.bind]
  cases reader progress.cursor <;> rfl

/-- The three sections are what stands in front of the sectors, and then these. -/
theorem sections_eq (options : ReadOptions) : sections options = (do
    let front ← ofReader Scene.front
    let sectors ← repeated (Observer.sector options) front.sectorCount
    let stop ← cursor
    pure ⟨front.setups, front.lights, sectors, front.setupCount, front.lightCount,
      front.sectorCount, stop.offset, "", []⟩) := by
  unfold sections Scene.front
  simp only [ofReader_bind, bind_assoc]
  rfl

end Observer

namespace Scene

variable {options : ReadOptions} {log : Option Log} {data : Bytes}

/-- The bytes that follow the last sector are noted if there are any. -/
theorem trailingNotes_within {stop : Nat} (h : stop ≤ data.length) :
    Observer.trailingNotes (Cursor.within data stop) =
      if stop < data.length then
        [⟨"trailing-bytes", stop,
          Numeral.text (data.length - stop) ++ " byte(s) left after the last sector"⟩]
      else [] := by
  have hend : (data.drop stop).isEmpty = true ↔ ¬ stop < data.length := by
    rw [List.isEmpty_iff, List.drop_eq_nil_iff, Nat.not_lt]
  unfold Observer.trailingNotes Cursor.atEnd Cursor.remaining Cursor.within
  dsimp only
  by_cases hlt : stop < data.length
  · rw [if_neg fun hempty => hend.mp hempty hlt, if_pos hlt, List.length_drop, Int.ofNat_sub h]
  · rw [if_pos (hend.mpr hlt), if_neg hlt]

theorem remarks_of_length {scene : Scene} {legacy : Bool} {size stop : Nat}
    (h : scene.length = stop) : scene.remarks legacy size =
      scene.sectors.flatMap (Sector.remarks legacy)
        ++ (if stop < size then
            [⟨"trailing-bytes", stop,
              Numeral.text (size - stop) ++ " byte(s) left after the last sector"⟩]
          else []) := by
  unfold remarks
  simp only [h, Int.ofNat_lt]

/-- Sectors that are read behind the front of a set are stored there, one behind the other. -/
theorem tiled_of_front {front : Front} {start place : Cursor} {sectors : List Sector} {n : Nat}
    (hfront : Scene.front (Cursor.ofBytes data) = .ok front start)
    (hsectors : repeated (Sector.read options) n start = .ok sectors place) :
    ∃ first last, place = Cursor.within data last ∧ last ≤ data.length ∧
      Tiled (Sector.StoredAt options.legacyNormal data) first sectors last := by
  have hbefore : (Walk.alone data).Follows 0 _ _ Scene.front _ := .front
  obtain ⟨first, rfl, -, hle, -⟩ := hbefore.of_ok (Nat.le_refl 0) (Nat.zero_le _) hfront
  have hfollows : (Walk.alone data).Follows first _ _ (repeated (Sector.read options) n) _ :=
    .repeated (fun _ => .sector Walk.refuses_between (Walk.named_alone data _)) n
  obtain ⟨last, hplace, -, hlast, ⟨-, htiled⟩, -⟩ := hfollows.of_ok (Nat.zero_le first) hle hsectors
  exact ⟨first, last, hplace, hlast, htiled⟩

/-- A scene that is read has left all remarks about it. -/
theorem read_snd_of_ok {scene : Scene} (h : (read options log data).1 = .ok scene) :
    (read options log data).2 =
        log.map (·.recordAll (scene.remarks options.legacyNormal data.length)) ∧
      InOrder (scene.remarks options.legacyNormal data.length) := by
  rw [read_eq] at h ⊢
  cases hsections : Observer.sections options ⟨Cursor.ofBytes data, log⟩ with
  | error fault after =>
      rw [hsections] at h
      cases h
  | ok result after =>
      rw [hsections] at h
      cases h
      rw [Observer.sections_eq] at hsections
      obtain ⟨front, middle, hfront, hrest⟩ := bind_eq_ok.mp hsections
      obtain ⟨sectors, last, hsectors, hvalue⟩ := bind_eq_ok.mp hrest
      cases hvalue
      obtain ⟨hfront, hfrontLog⟩ := Observer.ofReader_ok hfront
      obtain ⟨hsectors, hlog⟩ := Observer.sectors_ok hsectors
      obtain ⟨first, stop, hstop, hle, htiled⟩ := tiled_of_front hfront hsectors
      obtain ⟨-, horder, hbounds⟩ := htiled.inOrder_remarks
      have hlength : ((after.cursor.offset : Nat) : Int) = stop := by
        rw [hstop]
        rfl
      rw [remarks_of_length hlength]
      refine ⟨?_, List.pairwise_append.mpr ⟨horder, ?_, ?_⟩⟩
      · show after.log.map (·.recordAll (Observer.trailingNotes after.cursor)) = _
        rw [hlog, hfrontLog, Observer.map_recordAll, hstop, trailingNotes_within hle]
      · split
        · exact List.pairwise_singleton _ _
        · exact .nil
      · intro note hnote trailing htrailing
        split at htrailing
        · rw [List.mem_singleton.mp htrailing]
          exact (hbounds note hnote).2
        · cases htrailing

/-- A reading that stops has left the remarks about the sectors that it has read. -/
theorem read_snd_of_error {fault : Fault} (h : (read options log data).1 = .error fault) :
    ∃ completed, Stops options data fault completed ∧
      (read options log data).2 =
        log.map (·.recordAll (completed.flatMap (Sector.remarks options.legacyNormal))) ∧
      InOrder (completed.flatMap (Sector.remarks options.legacyNormal)) := by
  rw [read_eq] at h ⊢
  cases hsections : Observer.sections options ⟨Cursor.ofBytes data, log⟩ with
  | ok result after =>
      rw [hsections] at h
      cases h
  | error fault after =>
      rw [hsections] at h
      cases h
      rw [Observer.sections_eq] at hsections
      rcases bind_eq_error.mp hsections with hstop | ⟨front, middle, hfront, hrest⟩
      · obtain ⟨hstop, hlog⟩ := Observer.ofReader_error hstop
        exact ⟨[], .front hstop, hlog.trans (Observer.map_recordAll_nil _).symm, .nil⟩
      rcases bind_eq_error.mp hrest with hstop | ⟨_, _, _, hvalue⟩
      · obtain ⟨hfront, hfrontLog⟩ := Observer.ofReader_ok hfront
        obtain ⟨completed, place, hlt, hreads, hfault, hlog⟩ := Observer.sectors_error hstop
        obtain ⟨_, _, _, _, htiled⟩ := tiled_of_front hfront hreads
        refine ⟨completed, .sector hfront hlt hreads hfault, ?_, htiled.inOrder_remarks.2.1⟩
        exact hlog.trans (by rw [hfrontLog])
      · cases hvalue

/-- Whether a log is kept changes nothing else, and what a reading adds to the log is what it has to
add: all remarks about a scene that it returns, and if it stops at a fault, the remarks about the
sectors that it has read by then. The offsets of what is added never decrease. -/
theorem read_notes (options : ReadOptions) (log : Option Log) (data : Bytes) :
    (∀ other, (read options other data).1 = (read options log data).1) ∧
      (∀ scene, (read options log data).1 = .ok scene →
        (read options log data).2 =
            log.map (·.recordAll (scene.remarks options.legacyNormal data.length)) ∧
          InOrder (scene.remarks options.legacyNormal data.length)) ∧
      ∀ fault, (read options log data).1 = .error fault →
        ∃ completed, Stops options data fault completed ∧
          (∀ others, Stops options data fault others → others = completed) ∧
          (read options log data).2 =
            log.map (·.recordAll (completed.flatMap (Sector.remarks options.legacyNormal))) ∧
          InOrder (completed.flatMap (Sector.remarks options.legacyNormal)) := by
  refine ⟨fun other => ?_, fun scene h => read_snd_of_ok h, fun fault h => ?_⟩
  · rw [read_fst, read_fst]
  · obtain ⟨completed, hstops, hlog, horder⟩ := read_snd_of_error h
    exact ⟨completed, hstops, fun others hothers => hothers.unique hstops, hlog, horder⟩

/-- A set that announces some sectors. One is stored, of an unknown type and without vertices, and
then two bytes follow. -/
def strangeSet (sectors : UInt8) : Bytes :=
  [0, 0, 0, 0, 0, 0, 0, 0, sectors, 0, 0, 0, 0, 0, 0, 0, 0, 0, 0, 0, 0, 0, 0, 0, 1, 0x34, 0x12, 0, 0,
    0, 0, 0, 0, 0, 0, 0x80, 0x7f, 0xaa, 0xaa]

/-- The scene that is read from it if it announces just the one sector. -/
def strangeScene : Scene :=
  ⟨[], [], [⟨12, "", 0, 0x1234, true, .infinite false, [], .zero⟩], 0, 0, 1, 37, "", []⟩

/-- Both remarks about the sector are noted, and behind them the two bytes, unless these are where a
second sector should be. -/
theorem read_notes_strange :
    let remarks : List Diagnostic :=
      [⟨"unknown-tag", 12, "sector '' has type tag 0x00001234; rendered without a label"⟩,
        ⟨"degenerate", 12, "sector '' with 0 vertex(es) has no usable normal; using zero vector"⟩]
    (read ⟨false, false⟩ (some .empty) (strangeSet 1)).2 =
        some ⟨remarks ++ [⟨"trailing-bytes", 37, "2 byte(s) left after the last sector"⟩]⟩ ∧
      (read ⟨false, false⟩ (some .empty) (strangeSet 2)).2 = some ⟨remarks⟩ := by
  intro remarks
  have hremarks : strangeScene.sectors.flatMap (Sector.remarks false) = remarks := by decide
  constructor
  · have hscene : (read ⟨false, false⟩ (some .empty) (strangeSet 1)).1 = .ok strangeScene := by decide +kernel
    obtain ⟨hlog, -⟩ := (read_notes ⟨false, false⟩ (some .empty) (strangeSet 1)).2.1 _ hscene
    rw [hlog, Scene.remarks, hremarks]
    decide
  · have hfault : (read ⟨false, false⟩ (some .empty) (strangeSet 2)).1 =
        .error (.truncated 37 4 39 "int32") := by decide +kernel
    obtain ⟨completed, -, hunique, hlog, -⟩ :=
      (read_notes ⟨false, false⟩ (some .empty) (strangeSet 2)).2.2 _ hfault
    have hfront : Scene.front (Cursor.ofBytes (strangeSet 2)) =
        .ok ⟨[], [], 0, 0, 2⟩ (Cursor.within (strangeSet 2) 12) := rfl
    have hstops : Stops ⟨false, false⟩ (strangeSet 2) (.truncated 37 4 39 "int32")
        strangeScene.sectors := .sector hfront (by decide) rfl rfl
    rw [hlog, ← hunique _ hstops, hremarks]
    decide

end Scene

end SceneSet
