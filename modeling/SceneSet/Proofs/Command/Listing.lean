import SceneSet.Proofs.Command.Extraction
import SceneSet.Proofs.Text.Glob
import SceneSet.Proofs.Text.Hexadecimal
import Mathlib.Data.List.Basic

/-!
# What members are listed

The tool that lists the members of an archive writes a line about each of those whose names match a
pattern, up to a limit (`run_lists`). The lines tell members apart (`Entry.describe_injective`).
-/

namespace SceneSet

open Files (Path)

/-! ### Lines about members -/

namespace Entry

/-- Where a text has its first blank does not depend on how it is written. -/
theorem eq_of_append_blank {front front' rest rest' : List Char} (h : ' ' ∉ front)
    (h' : ' ' ∉ front') (heq : front ++ ' ' :: rest = front' ++ ' ' :: rest') :
    front = front' ∧ rest = rest' := by
  rcases List.append_eq_append_iff.mp heq with ⟨more, rfl, htail⟩ | ⟨more, rfl, htail⟩
  · cases more with
    | nil => exact ⟨(List.append_nil _).symm, (List.cons.inj htail).2⟩
    | cons c more =>
        rw [← (List.cons.inj htail).1] at h'
        exact absurd (List.mem_append_right _ List.mem_cons_self) h'
  · cases more with
    | nil => exact ⟨List.append_nil _, (List.cons.inj htail).2.symm⟩
    | cons c more =>
        rw [← (List.cons.inj htail).1] at h
        exact absurd (List.mem_append_right _ List.mem_cons_self) h

/-- Blanks that follow the size, and what stands after them. -/
def behindSize (entry : Entry) : List Char :=
  List.replicate (9 - (Numeral.digits entry.size).length) ' ' ++ '|' :: ' ' :: entry.name.toList

theorem toList_describe (entry : Entry) : entry.describe.toList =
    "off=0x".toList ++ ((Numeral.upperHex 8 entry.start).toList ++
      ' ' :: ("| size=".toList ++ (Numeral.digits entry.size ++ ' ' :: entry.behindSize))) := by
  have hsize : (Numeral.text entry.size).toList = Numeral.digits entry.size := by
    unfold Numeral.text Numeral.decimal
    rw [if_neg (by omega), String.toList_ofList]
    rfl
  have hblank (count : Nat) (text : List Char) :
      List.replicate count ' ' ++ (" | ".toList ++ text) =
        ' ' :: (List.replicate count ' ' ++ '|' :: ' ' :: text) := by
    show List.replicate count ' ' ++ ' ' :: ('|' :: ' ' :: text) = _
    rw [List.append_cons, ← List.replicate_succ', List.replicate_succ, List.cons_append]
  unfold describe Numeral.padRight List.rightpad behindSize
  simp only [String.toList_append, String.toList_ofList, hsize, List.append_assoc]
  rw [hblank]
  rfl

/-- The line about a member tells where it is, how long, and its name. -/
theorem describe_injective {entry other : Entry} (h : entry.describe = other.describe) :
    entry = other := by
  have hlines := congrArg String.toList h
  rw [toList_describe, toList_describe] at hlines
  obtain ⟨hstart, hafter⟩ := eq_of_append_blank (Numeral.blank_not_mem_upperHex 8 entry.start)
    (Numeral.blank_not_mem_upperHex 8 other.start) (List.append_cancel_left hlines)
  obtain ⟨hsize, hname⟩ := eq_of_append_blank (Numeral.blank_not_mem_digits entry.size)
    (Numeral.blank_not_mem_digits other.size) (List.append_cancel_left hafter)
  have hsize : entry.size = other.size := by
    have hdigits := congrArg (Nat.ofDigitChars 10 · 0) hsize
    exact Nat.ofDigitChars_ten_toDigits.symm.trans (hdigits.trans Nat.ofDigitChars_ten_toDigits)
  have hname : entry.name = other.name := by
    unfold behindSize at hname
    rw [hsize] at hname
    have hnames := List.append_cancel_left hname
    exact String.toList_inj.mp (List.cons.inj (List.cons.inj hnames).2).2
  have hstart : entry.start = other.start :=
    Numeral.upperHex_injective (String.toList_inj.mp hstart)
  cases entry
  cases other
  simp_all

end Entry

/-! ### Runs that list members -/

namespace Command.Members

variable {archive : Archive} {session : Session}

/-- The members whose names match a pattern, up to a limit if there is one. -/
def listed (archive : Archive) (pattern : String) (limit : Option Int) : List Entry :=
  let matching := archive.entries.filter fun entry =>
    Glob.Matches (Letters.lower pattern.toList) (Letters.lower entry.name.toList)
  match limit with
  | none => matching
  | some count => matching.take count.toNat

/-- What is told when no member is listed. -/
def remark (entries : List Entry) : String :=
  if entries = [] then "No members matched the requested pattern.\n" else ""

/-- What the matcher finds is taken up to a limit that is in range. -/
theorem upTo_matching {pattern : String} {limit : Option Int}
    (h : ∀ count, limit = some count → 0 ≤ count ∧ count ≤ maxLimit) :
    upTo limit (matching archive pattern) session =
      .ok (listed archive pattern limit) session := by
  have hmatching : matching archive pattern = archive.entries.filter fun entry =>
      Glob.Matches (Letters.lower pattern.toList) (Letters.lower entry.name.toList) := by
    refine List.filter_congr fun entry _ => ?_
    rw [Bool.eq_iff_iff, decide_eq_true_iff]
    exact Glob.isMatch_parse _ _
  unfold upTo listed
  rw [hmatching]
  cases limit with
  | none => rfl
  | some count =>
      dsimp only
      rw [if_pos (h count rfl)]
      rfl

/-- A line about each of the members is written, and the user is told if there is none. -/
theorem list_eq {request : Request}
    (h : ∀ count, request.limit = some count → 0 ≤ count ∧ count ≤ maxLimit) :
    let entries := listed archive request.pattern request.limit
    list archive request session = .ok (if entries = [] then 1 else 0) { session with
      output := session.output ++
        utf8 (String.join (entries.map fun entry => entry.describe ++ "\n"))
      messages := session.messages ++ remark entries } := by
  intro entries
  show EStateM.bind (upTo request.limit (matching archive request.pattern)) _ session = _
  unfold EStateM.bind remark
  rw [upTo_matching h]
  show (if entries.isEmpty = true then _ else _ : Tool Nat) _ = _
  by_cases hempty : entries = []
  · rw [if_pos (List.isEmpty_iff.mpr hempty), if_pos hempty, if_pos hempty]
    show EStateM.Result.ok 1 { session with
      output := _
      messages := session.messages ++ "No members matched the requested pattern." ++ "\n" } = _
    rw [String.append_assoc]
    rfl
  · rw [if_neg fun hnil => hempty (List.isEmpty_iff.mp hnil), if_neg hempty, if_neg hempty,
      String.append_empty]
    rfl

/-- What the tool does when the archive is accepted and no members are asked for. -/
theorem tool_of_list {request : Request} (hextract : request.extract = [])
    (hopen : Source.openArchive request.archive session.tree = .ok archive session.tree) :
    tool request session = (do
      Tool.say (summary request.archive archive)
      list archive request : Tool Nat) session := by
  show EStateM.bind (Tool.attempt _) _ session = _
  unfold EStateM.bind Tool.attempt Tool.ofLoader
  rw [hopen]
  dsimp only
  rw [if_pos (by simpa using hextract)]
  rfl

/-- A run with an archive that is accepted, and with no members asked for, lists the members whose
names match the pattern, in the order of the archive and up to the limit. It tells if there is none,
and then only is the exit code not 0. Nothing is written to files or drawn. -/
theorem run_lists {line : List String} {arguments : Arguments}
    (hparse : grammar.parse line = .ok arguments)
    (hextract : (Request.ofArguments arguments).extract = [])
    (hlimit : ∀ count, (Request.ofArguments arguments).limit = some count →
      0 ≤ count ∧ count ≤ maxLimit)
    (hopen : Source.openArchive (Request.ofArguments arguments).archive session.tree =
      .ok archive session.tree) :
    let request := Request.ofArguments arguments
    let entries := listed archive request.pattern request.limit
    run line session = .ok (if entries = [] then 1 else 0) { session with
        output := session.output ++
          utf8 (String.join (entries.map fun entry => entry.describe ++ "\n"))
        messages := session.messages ++ summary request.archive archive ++ "\n" ++
          remark entries } ∧
      ∀ entry other : Entry, entry.describe = other.describe → entry = other := by
  intro request entries
  refine ⟨?_, fun _ _ => Entry.describe_injective⟩
  unfold run Command.run
  rw [hparse]
  show tool request session = _
  rw [tool_of_list hextract hopen]
  exact list_eq hlimit

/-- Arguments that ask for the first member that does not begin with `b` and ends with `x`. -/
def listingArguments : Arguments where
  options := [("--limit", ["1"]), ("--pattern", ["[!B]*X"])]
  operands := [["a.lab"]]

/-- The names of two members match. The first of them is listed. -/
theorem run_lists_shelf :
    let line := ["a.lab", "--pattern", "[!B]*X", "--limit", "1"]
    let request := Request.ofArguments listingArguments
    grammar.parse line = .ok listingArguments ∧ request.extract = [] ∧
      (∀ count, request.limit = some count → 0 ≤ count ∧ count ≤ maxLimit) ∧
      Source.openArchive request.archive shelf.tree = .ok shelfArchive shelf.tree ∧
      ∃ final, run line shelf = .ok 0 final ∧
        final.output = utf8 "off=0x00000064 | size=1         | a/x\n" ∧
        final.tree = shelf.tree := by
  intro line request
  have hparse : grammar.parse line = .ok listingArguments := by decide
  have hextract : request.extract = [] := by decide
  have hlimit : request.limit = some 1 := by decide
  have hrange : ∀ count, request.limit = some count → 0 ≤ count ∧ count ≤ maxLimit := by
    intro count hcount
    obtain rfl := Option.some.inj (hlimit.symm.trans hcount)
    decide
  have hlisted : listed shelfArchive request.pattern request.limit = [⟨"a/x", 100, 1⟩] := by
    decide +kernel
  obtain ⟨hrun, -⟩ := run_lists hparse hextract hrange openArchive_shelf
  rw [show listed shelfArchive _ _ = _ from hlisted] at hrun
  exact ⟨hparse, hextract, hrange, openArchive_shelf, _, hrun, by decide, rfl⟩

end Command.Members

end SceneSet
