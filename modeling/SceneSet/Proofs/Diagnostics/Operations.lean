import SceneSet.Proofs.Command.Steps
import SceneSet.Proofs.Diagnostics.Lines
import SceneSet.Proofs.Diagnostics.Tally
import SceneSet.Proofs.Files.Obstacles

/-!
# A log in use

Entries are recorded in a log, its size, its summary and its lines are asked for, and it is written
to its destination, in any order and as often as wanted. An operation changes the log only by
recording (`entries_perform`), and it leaves a destination that can be created as one
(`Ready.perform`). So after any operations the log has what was recorded (`entries_after`), and
`Use.accounts` says what each operation does then.
-/

namespace SceneSet.Log

open Files (Path Action)

/-- What can be done with a log. -/
inductive Operation where
  | record (entry : Diagnostic)
  | size
  | summary
  | lines
  | flush

/-- What a log answers to an operation. -/
inductive Answer where
  | done
  | size (n : Nat)
  | summary (text : String)
  | lines (lines : List String)

/-- A log in use, and the session that it is used in. -/
structure Use where
  log : Log
  session : Session

namespace Operation

/-- What an operation adds to the log. -/
def recorded : Operation → List Diagnostic
  | record entry => [entry]
  | size | summary | lines | flush => []

/-- What an operation answers and does. A log that cannot be written answers with the problem. -/
def perform (destination : Option Path) (operation : Operation) (use : Use) :
    Except Problem Answer × Use :=
  match operation with
  | record entry => (.ok .done, { use with log := use.log.record entry })
  | size => (.ok (.size use.log.size), use)
  | summary => (.ok (.summary use.log.summary), use)
  | lines => (.ok (.lines use.log.lines), use)
  | flush =>
      match Tool.flush use.log destination use.session with
      | .ok _ session => (.ok .done, { use with session := session })
      | .error problem session => (.error problem, { use with session := session })

end Operation

/-- What some operations add to the log. -/
def recorded (operations : List Operation) : List Diagnostic :=
  operations.flatMap Operation.recorded

namespace Use

/-- A log in use after some operations. -/
def after (destination : Option Path) (operations : List Operation) (use : Use) : Use :=
  operations.foldl (fun use operation => (operation.perform destination use).2) use

/-- The log can be written to its destination, if it has one. -/
structure Ready (destination : Option Path) (use : Use) : Prop where
  formed : use.session.tree.WellFormed
  creatable : ∀ path ∈ destination, use.session.tree.Creatable path

variable {destination : Option Path} {use : Use}

/-! ### One operation -/

/-- The log is changed by recording, and by nothing else. -/
theorem entries_perform (destination : Option Path) (operation : Operation) (use : Use) :
    (operation.perform destination use).2.log.entries =
      use.log.entries ++ operation.recorded := by
  cases operation with
  | record entry => rfl
  | size | summary | lines => exact (List.append_nil _).symm
  | flush =>
      unfold Operation.perform
      dsimp only
      split <;> exact (List.append_nil _).symm

/-- The log is written over whatever its destination held before, and the destination can be created
as it could be before. -/
theorem Ready.flush (h : use.Ready destination) :
    ∃ session, Operation.flush.perform destination use = (.ok .done, ⟨use.log, session⟩) ∧
      Ready destination ⟨use.log, session⟩ ∧
      (destination = none → session = use.session) ∧
      ∀ path ∈ destination,
        Action.read path session.tree = .ok (utf8 use.log.text) session.tree := by
  unfold Operation.perform
  dsimp only
  cases destination with
  | none => exact ⟨use.session, rfl, h, fun _ => rfl, nofun⟩
  | some path =>
      have hcreatable := h.creatable path rfl
      obtain ⟨tree, hwrite, hformed, hplaced⟩ :=
        Tool.writeWithParents_of_creatable h.formed hcreatable (utf8 use.log.text)
      have hagain : tree.Creatable path := (hplaced.creatable_iff hcreatable).mpr
        ⟨hcreatable, fun hobstructs => hobstructs.elim hcreatable.apart hcreatable.apart⟩
      rw [Tool.flush, hwrite]
      refine ⟨_, rfl, ⟨hformed, fun other hother => ?_⟩, nofun, fun other hother => ?_⟩
      · cases hother
        exact hagain
      · cases hother
        exact Action.read_eq_ok.mpr ⟨rfl, hplaced.holds hcreatable.admits⟩

theorem Ready.perform (h : use.Ready destination) (operation : Operation) :
    Ready destination (operation.perform destination use).2 := by
  cases operation with
  | record entry => exact ⟨h.formed, h.creatable⟩
  | size | summary | lines => exact h
  | flush =>
      obtain ⟨session, hflush, hready, -⟩ := h.flush
      rw [hflush]
      exact hready

/-! ### Any operations -/

/-- The log has what it had, and then what was recorded. -/
theorem entries_after (destination : Option Path) (operations : List Operation) (use : Use) :
    (use.after destination operations).log.entries = use.log.entries ++ recorded operations := by
  induction operations generalizing use with
  | nil => exact (List.append_nil _).symm
  | cons operation operations ih =>
      show (after destination operations (operation.perform destination use).2).log.entries =
        use.log.entries ++ (operation.recorded ++ recorded operations)
      rw [ih, entries_perform, List.append_assoc]

theorem Ready.after (h : use.Ready destination) (operations : List Operation) :
    Ready destination (use.after destination operations) := by
  induction operations generalizing use with
  | nil => exact h
  | cons operation operations ih => exact ih (h.perform operation)

/-- After any operations, a log that was empty has just what was recorded, and only recording adds
to it. The size is that of what was recorded, and there is one line for each entry, with its place.
The summary lists each kind that was recorded once, in order, with how often it was recorded; it says
so if there is none, and does not depend on the order of recording. When the log is written, the file
has these lines and nothing else, whatever was there before. -/
theorem accounts {session : Session} (hformed : session.tree.WellFormed)
    (hpath : ∀ path ∈ destination, session.tree.Creatable path) (operations : List Operation) :
    let entries := recorded operations
    let use := after destination operations ⟨.empty, session⟩
    use.log.entries = entries ∧
      (∀ operation : Operation,
        (operation.perform destination use).2.log.entries = entries ++ operation.recorded) ∧
      Operation.size.perform destination use = (.ok (.size entries.length), use) ∧
      (∃ text, Operation.summary.perform destination use = (.ok (.summary text), use) ∧
        (text = "no diagnostics" ↔ entries = []) ∧
        (entries ≠ [] → ∃ tally, text = tallyText tally ∧
          Tallies (occurrencesOf entries) tally ∧ (tally.map (·.2)).sum = entries.length) ∧
        ∀ others, (recorded others).Perm entries →
          (Operation.summary.perform destination (after destination others ⟨.empty, session⟩)).1 =
            .ok (.summary text)) ∧
      ∃ lines, Operation.lines.perform destination use = (.ok (.lines lines), use) ∧
        lines.length = entries.length ∧
        lines.map place? = (List.range' 1 entries.length).map some ∧
        (∀ i : Nat, lines[i]? = entries[i]?.map fun entry => line entry (i + 1)) ∧
        ∃ flushed, Operation.flush.perform destination use = (.ok .done, ⟨use.log, flushed⟩) ∧
          (destination = none → flushed = use.session) ∧
          ∀ path ∈ destination, ∃ content,
            Action.read path flushed.tree = .ok content flushed.tree ∧
            content = utf8 (String.join (lines.map (· ++ "\n"))) ∧
            (entries = [] → content = []) := by
  intro entries use
  have hentries : use.log.entries = entries := entries_after destination operations _
  have hsize : use.log.size = entries.length := congrArg List.length hentries
  refine ⟨hentries, fun operation => ?_, ?_, ⟨use.log.summary, rfl, ?_, fun hsome => ?_, ?_⟩,
    use.log.lines, rfl, ?_, ?_, fun i => ?_, ?_⟩
  · rw [entries_perform, hentries]
  · rw [← hsize]
    rfl
  · rw [summary_eq_none_iff, hentries]
  · refine ⟨use.log.tally, summary_of_ne_nil (hentries ▸ hsome), ?_, ?_⟩
    · rw [← hentries]
      exact use.log.tallies_tally
    · rw [sum_tally, hsize]
  · intro others hperm
    have hothers := entries_after destination others ⟨.empty, session⟩
    refine congrArg (fun text => Except.ok (Answer.summary text)) (summary_of_perm ?_)
    rw [hothers, hentries]
    exact hperm
  · rw [length_lines, hsize]
  · rw [map_place?_lines, hsize]
  · rw [getElem?_lines, hentries]
  · have hready : Ready destination use := Ready.after ⟨hformed, hpath⟩ operations
    obtain ⟨flushed, hflush, -, hnone, hfile⟩ := hready.flush
    refine ⟨flushed, hflush, hnone, fun path hdestination => ?_⟩
    refine ⟨_, hfile path hdestination, rfl, fun hempty => ?_⟩
    rw [Log.text, Log.lines, hentries, hempty]
    rfl

/-- A log that was written before it was complete is written again, over what it had then. -/
theorem accounts_notebook :
    let session : Session :=
      ⟨⟨["home"], [(["home"], .directory), (["home", "d.log"], .file [0x78])]⟩, [], "", []⟩
    let path := Path.ofText "d.log"
    let use := after (some path)
      [.record ⟨"unknown-tag", 12, "a"⟩, .flush, .record ⟨"degenerate", 12, "b"⟩, .summary,
        .record ⟨"degenerate", 70, "c"⟩] ⟨.empty, session⟩
    session.tree.WellFormed ∧ session.tree.Creatable path ∧
      Operation.size.perform (some path) use = (.ok (.size 3), use) ∧
      Operation.summary.perform (some path) use =
        (.ok (.summary "degenerate=2, unknown-tag=1"), use) ∧
      ∃ flushed, Operation.flush.perform (some path) use = (.ok .done, ⟨use.log, flushed⟩) ∧
        Action.read path flushed.tree = .ok (utf8 (
          "#0001 offset=0x000C kind=unknown-tag      a\n" ++
          "#0002 offset=0x000C kind=degenerate       b\n" ++
          "#0003 offset=0x0046 kind=degenerate       c\n")) flushed.tree := by
  intro session path use
  have hformed : session.tree.WellFormed := .of_nodes (by decide) (by decide)
  have hpath : session.tree.Creatable path :=
    Action.creatable_of_value? hformed
      (show value? (Action.create path [] session.tree) = some () by decide +kernel)
  obtain ⟨hentries, -, hsize, ⟨text, hsummary, -⟩, lines, hlines, -, -, -, flushed, hflush, -,
      hfile⟩ :=
    accounts hformed (fun other (hother : other ∈ some path) => Option.some.inj hother ▸ hpath)
      [.record ⟨"unknown-tag", 12, "a"⟩, .flush, .record ⟨"degenerate", 12, "b"⟩, .summary,
        .record ⟨"degenerate", 70, "c"⟩]
  -- only the entries matter from here on
  have hlog : use.log = ⟨[⟨"unknown-tag", 12, "a"⟩, ⟨"degenerate", 12, "b"⟩,
      ⟨"degenerate", 70, "c"⟩]⟩ := congrArg Log.mk hentries
  have htext : text = "degenerate=2, unknown-tag=1" := by
    have hsame : use.log.summary = text := by
      cases hsummary
      rfl
    rw [← hsame, hlog]
    decide
  obtain ⟨content, hread, hcontent, -⟩ := hfile path rfl
  refine ⟨hformed, hpath, hsize, htext ▸ hsummary, flushed, hflush, ?_⟩
  rw [hread, hcontent]
  have hsame : use.log.lines = lines := by
    cases hlines
    rfl
  rw [← hsame, hlog]
  rfl

end Use

end SceneSet.Log
