import SceneSet.Proofs.Command.Conversion

/-!
# Command lines of conversions

`Settings.words` are the options for each setting of a conversion that writes its report to the
output stream and no summary. Whatever the operands are, as long as they do not look like options,
the line of these words and the operands makes the request that is meant (`Settings.makes_member`
and `Settings.makes_file`).
-/

namespace SceneSet.Command

namespace Word

/-- Texts that are taken as operands: they do not begin with a hyphen. -/
def IsOperand (text : String) : Prop := text.toList.head? ≠ some '-'

instance (text : String) : Decidable (IsOperand text) := inferInstanceAs (Decidable (_ ≠ _))

theorem ofText?_of_isOperand (grammar : Grammar) {text : String} (h : IsOperand text) :
    ofText? grammar text.toList = some (.plain text) := by
  unfold IsOperand at h
  unfold ofText?
  split
  · rename_i htext
    rw [htext] at h
    exact absurd rfl h
  · rename_i htext
    rw [htext] at h
    exact absurd rfl h
  · rename_i htext
    rw [htext] at h
    exact absurd rfl h
  · rw [String.ofList_toList]

theorem ne_endOfOptions {text : String} (h : IsOperand text) : text ≠ "--" := by
  rintro rfl
  exact h (by decide)

theorem ofArguments?_cons {grammar : Grammar} {argument : String} {rest : List String} {word : Word}
    {words : List Word} (hend : argument ≠ "--") (h : ofText? grammar argument.toList = some word)
    (hrest : ofArguments? grammar rest = some words) :
    ofArguments? grammar (argument :: rest) = some (word :: words) := by
  rw [ofArguments?, if_neg hend, h, hrest]
  rfl

/-- Operands are taken as they are. -/
theorem ofArguments?_operands (grammar : Grammar) {operands : List String}
    (h : ∀ text ∈ operands, IsOperand text) :
    ofArguments? grammar operands = some (operands.map .plain) := by
  induction operands with
  | nil => rfl
  | cons text rest ih =>
      rw [List.forall_mem_cons] at h
      exact ofArguments?_cons (ne_endOfOptions h.1) (ofText?_of_isOperand grammar h.1) (ih h.2)

/-- An option that is there or not. -/
theorem ofArguments?_ite {grammar : Grammar} {argument : String} {rest : List String} {word : Word}
    {words : List Word} (isThere : Bool) (hend : argument ≠ "--")
    (h : ofText? grammar argument.toList = some word)
    (hrest : ofArguments? grammar rest = some words) :
    ofArguments? grammar ((if isThere then [argument] else []) ++ rest) =
      some ((if isThere then [word] else []) ++ words) := by
  cases isThere with
  | false => exact hrest
  | true => exact ofArguments?_cons hend h hrest

end Word

namespace Convert

open Files (Path)
open Word (IsOperand)

/-- What can be set for a conversion that writes its report to the output stream. -/
structure Settings where
  strict : Bool
  trueCounts : Bool
  legacyNormal : Bool
  diagnostics : Option String

namespace Settings

/-- The options for the settings. -/
def words (settings : Settings) : List String :=
  (if settings.strict then ["--strict"] else []) ++
    ((if settings.trueCounts then ["--corrected-counts"] else []) ++
      ((if settings.legacyNormal then ["--legacy-normal"] else []) ++
        (settings.diagnostics.map ("--diagnostics=" ++ ·)).toList))

/-- The file for the notes. -/
def destination (settings : Settings) : Option Path := settings.diagnostics.map Path.ofText

/-- The request for a set, in an archive if there is one. -/
def request (settings : Settings) (name : String) (archive : Option Path) : Request where
  name := name
  archive := archive
  output := none
  json := none
  diagnostics := settings.destination
  options := ⟨settings.strict, settings.legacyNormal⟩
  trueCounts := settings.trueCounts

/-- The options as they are found, the last one first. -/
def found (settings : Settings) : List (String × List String) :=
  (settings.diagnostics.map fun text => ("--diagnostics", [text])).toList ++
    ((if settings.legacyNormal then [("--legacy-normal", [])] else []) ++
      ((if settings.trueCounts then [("--corrected-counts", [])] else []) ++
        if settings.strict then [("--strict", [])] else []))

/-- An option without a value. -/
def flag (name : String) : Word := .option ⟨name, .none, anyValue⟩ none

/-- The option for the notes. -/
def notesOption (text : String) : Word := .option ⟨"--diagnostics", .one, anyValue⟩ (some text)

/-- The option for the notes is found, whatever is joined to it. -/
theorem ofText?_diagnostics (text : String) :
    Word.ofText? grammar ("--diagnostics=" ++ text).toList = some (notesOption text) := by
  have hname : Word.ofText? grammar ("--diagnostics=".toList ++ text.toList) =
      some (notesOption (String.ofList text.toList)) := rfl
  rw [String.toList_append, hname, String.ofList_toList]

theorem ofArguments?_words (settings : Settings) {operands : List String}
    (h : ∀ text ∈ operands, IsOperand text) :
    Word.ofArguments? grammar (settings.words ++ operands) =
      some ((if settings.strict then [flag "--strict"] else []) ++
        ((if settings.trueCounts then [flag "--corrected-counts"] else []) ++
          ((if settings.legacyNormal then [flag "--legacy-normal"] else []) ++
            ((settings.diagnostics.map notesOption).toList ++ operands.map .plain)))) := by
  unfold words
  simp only [List.append_assoc]
  refine Word.ofArguments?_ite _ (by decide) rfl (Word.ofArguments?_ite _ (by decide) rfl
    (Word.ofArguments?_ite _ (by decide) rfl ?_))
  have hoperands := Word.ofArguments?_operands grammar h
  cases settings.diagnostics with
  | none => exact hoperands
  | some text =>
      refine Word.ofArguments?_cons (fun hend => ?_) (ofText?_diagnostics text) hoperands
      have hlength := congrArg (fun text => text.toList.length) hend
      simp [String.toList_append] at hlength

/-- Before the first operand. -/
def optionsTaken (found : List (String × List String)) : Parsing :=
  { Parsing.start grammar with found := ⟨found, []⟩ }

theorem foldlM_ite {found : List (String × List String)} {name : String} {rest : List Word}
    (isThere : Bool) :
    ((if isThere then [flag name] else []) ++ rest).foldlM Parsing.take (optionsTaken found) =
      rest.foldlM Parsing.take
        (optionsTaken ((if isThere then [(name, [])] else []) ++ found)) := by
  cases isThere <;> rfl

theorem foldlM_operands (operands : List String) (found : List (String × List String))
    (run : List Word) :
    (operands.map Word.plain).foldlM Parsing.take { optionsTaken found with run := run } =
      .ok { optionsTaken found with run := run ++ operands.map .plain } := by
  induction operands generalizing run with
  | nil =>
      rw [List.map_nil, List.append_nil]
      rfl
  | cons text rest ih =>
      have hrest := ih (run ++ [.plain text])
      rw [List.append_assoc] at hrest
      exact hrest

theorem foldlM_words (settings : Settings) (operands : List String) :
    ((if settings.strict then [flag "--strict"] else []) ++
      ((if settings.trueCounts then [flag "--corrected-counts"] else []) ++
        ((if settings.legacyNormal then [flag "--legacy-normal"] else []) ++
          ((settings.diagnostics.map notesOption).toList ++
            operands.map Word.plain)))).foldlM Parsing.take (Parsing.start grammar) =
      .ok { optionsTaken settings.found with run := operands.map .plain } := by
  show List.foldlM Parsing.take (optionsTaken []) _ = _
  rw [foldlM_ite, foldlM_ite, foldlM_ite, List.append_nil]
  unfold found
  cases settings.diagnostics with
  | none => exact foldlM_operands operands _ []
  | some text => exact foldlM_operands operands _ []

theorem finish_operands {found : List (String × List String)} {run : List Word}
    {filled : List (List String)}
    (hfill : Parsing.fill grammar.operands run = (filled, [], [])) :
    Parsing.finish { optionsTaken found with run := run } = .ok ⟨found, filled⟩ := by
  show (if ((Parsing.endRun { optionsTaken found with run := run }).stray ||
      !(Parsing.endRun { optionsTaken found with run := run }).awaited.isEmpty) = true then _
    else _) = _
  unfold Parsing.endRun optionsTaken Parsing.start
  dsimp only
  rw [hfill]
  rfl

/-- A line is parsed if the operands on it fill those that are awaited. -/
theorem parse_words (settings : Settings) {operands : List String} {filled : List (List String)}
    (h : ∀ text ∈ operands, IsOperand text)
    (hfill : Parsing.fill grammar.operands (operands.map .plain) = (filled, [], [])) :
    grammar.parse (settings.words ++ operands) = .ok ⟨settings.found, filled⟩ := by
  unfold Grammar.parse
  rw [ofArguments?_words settings h]
  dsimp only
  rw [foldlM_words]
  exact finish_operands hfill

/-- The options that are found are those of the settings. -/
theorem ofArguments_found (settings : Settings) {source member : String}
    {operands : List (List String)} (hsource : operands[0]? = some [source])
    (hmember : ((operands[1]?).getD []).headD "" = member) :
    Request.ofArguments ⟨settings.found, operands⟩ =
      settings.request (if member = "" then source else member)
        (if member = "" then none else some (Path.ofText source)) := by
  have hoptions : ∀ operands : List (List String),
      let arguments : Arguments := ⟨settings.found, operands⟩
      arguments.has "--strict" = settings.strict ∧
        arguments.has "--corrected-counts" = settings.trueCounts ∧
        arguments.has "--legacy-normal" = settings.legacyNormal ∧
        arguments.value? "--diagnostics" = settings.diagnostics ∧
        arguments.value? "--output" = none ∧ arguments.value? "--json" = none := by
    intro operands
    obtain ⟨strict, trueCounts, legacyNormal, diagnostics⟩ := settings
    cases strict <;> cases trueCounts <;> cases legacyNormal <;> cases diagnostics <;>
      exact ⟨rfl, rfl, rfl, rfl, rfl, rfl⟩
  obtain ⟨hstrict, htrueCounts, hlegacy, hdiagnostics, houtput, hjson⟩ := hoptions operands
  unfold Request.ofArguments
  rw [hstrict, htrueCounts, hlegacy]
  simp only [hdiagnostics, houtput, hjson, Arguments.operand, hsource, hmember]
  rfl

/-- A line with an archive and a member makes the request for the member. -/
theorem makes_member (settings : Settings) {archive member : String} (harchive : IsOperand archive)
    (hmember : IsOperand member) (hne : member ≠ "") :
    Makes (settings.words ++ [archive, member])
      (settings.request member (some (Path.ofText archive))) := by
  have hfill : Parsing.fill grammar.operands [.plain archive, .plain member] =
      ([[archive], [member]], [], []) := by
    show (([archive] :: [if member = "--" then [] else [member]], [], []) :
      List (List String) × List OperandArity × List Word) = _
    rw [if_neg (Word.ne_endOfOptions hmember)]
  have hrequest : Request.ofArguments ⟨settings.found, [[archive], [member]]⟩ =
      settings.request (if member = "" then archive else member)
        (if member = "" then none else some (Path.ofText archive)) :=
    settings.ofArguments_found rfl rfl
  rw [if_neg hne, if_neg hne] at hrequest
  exact ⟨_, settings.parse_words (List.forall_mem_cons.mpr
    ⟨harchive, List.forall_mem_singleton.mpr hmember⟩) hfill, hrequest⟩

/-- A line with a file makes the request for the file. -/
theorem makes_file (settings : Settings) {file : String} (hfile : IsOperand file) :
    Makes (settings.words ++ [file]) (settings.request file none) :=
  ⟨_, settings.parse_words (List.forall_mem_singleton.mpr hfile) rfl,
    settings.ofArguments_found rfl rfl⟩

end Settings

end Convert

end SceneSet.Command
