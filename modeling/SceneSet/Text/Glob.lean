/-!
# Glob patterns

A pattern is a list of items (`Glob.parse`) that a whole name has to match: `*` any run of
characters, `?` any one character, `[...]` one character of a set, `[!...]` one character outside
it, and everything else itself. `Glob.isMatch` decides it by computing, from the last item to the
first, at which suffixes of the name the items that follow match.
-/

namespace SceneSet.Glob

/-- The characters of a bracket: single ones and ranges, or all others if `negated`. -/
structure CharSet where
  negated : Bool
  singles : List Char
  ranges : List (Char × Char)
  deriving DecidableEq, Repr

/-- One item of a pattern. -/
inductive Item where
  | anyRun
  | anyChar
  | exactly (c : Char)
  | oneOf (set : CharSet)
  deriving DecidableEq, Repr

namespace CharSet

/-- Whether a character belongs to a set. -/
def contains (set : CharSet) (c : Char) : Bool :=
  let listed := set.singles.contains c ||
    set.ranges.any fun (low, high) => low ≤ c && c ≤ high
  listed != set.negated

/-- The text of a bracket cut at the hyphens that make ranges. Neighbouring pieces stand for the
range from the last character of the one to the first of the other. A hyphen cuts only after
`pending` further characters and if something follows it; `piece` is what has been read of the
current piece, backwards. -/
def cut (pending : Nat) (piece : List Char) : List Char → List (List Char)
  | [] => [piece.reverse]
  | c :: rest =>
      if c = '-' ∧ pending = 0 ∧ rest ≠ [] then piece.reverse :: cut 2 [] rest
      else cut (pending - 1) (c :: piece) rest

/-- The pieces without their empty ranges, those whose first character comes after the last: the
pieces on either side are joined and the two characters are dropped. -/
def dropEmptyRanges : List (List Char) → List (List Char)
  | [] => []
  | piece :: rest =>
      match dropEmptyRanges rest with
      | [] => [piece]
      | following :: more =>
          match piece.getLast?, following.head? with
          | some low, some high =>
              if high < low then (piece.dropLast ++ following.drop 1) :: more
              else piece :: following :: more
          | _, _ => piece :: following :: more

/-- The ranges between neighbouring pieces. -/
def rangesOf (pieces : List (List Char)) : List (Char × Char) :=
  (pieces.zip (pieces.drop 1)).filterMap fun (left, right) => do
    pure ((← left.getLast?), (← right.head?))

/-- The characters of the pieces that are no end of a range. -/
def singlesOf (isFirst : Bool) : List (List Char) → List Char
  | [] => []
  | [piece] => piece.drop (if isFirst then 0 else 1)
  | piece :: rest => (piece.drop (if isFirst then 0 else 1)).dropLast ++ singlesOf false rest

/-- The set that the pieces stand for. If nothing is left of the first piece, the hyphen after it
is an ordinary character. -/
def ofPieces (negated : Bool) : List (List Char) → CharSet
  | [] :: second :: rest =>
      ⟨negated, '-' :: singlesOf true (second :: rest), rangesOf (second :: rest)⟩
  | pieces => ⟨negated, singlesOf true pieces, rangesOf pieces⟩

/-- The set written between brackets. It is negated if an exclamation mark comes first once the
empty ranges are gone. -/
def ofText (text : List Char) : CharSet :=
  match dropEmptyRanges (cut (if text.head? = some '!' then 2 else 1) [] text) with
  | ('!' :: piece) :: rest => ofPieces true (piece :: rest)
  | pieces => ofPieces false pieces

end CharSet

/-- The first characters of a bracket, which do not close it: an exclamation mark, a closing
bracket, or one after the other. -/
def lead : List Char → List Char
  | '!' :: ']' :: _ => ['!', ']']
  | '!' :: _ => ['!']
  | ']' :: _ => [']']
  | _ => []

/-- The text of a bracket and what follows it, given what follows its opening. -/
def bracket? (text : List Char) : Option (List Char × List Char) :=
  let opening := lead text
  let body := text.drop opening.length
  match body.dropWhile (· != ']') with
  | [] => none
  | _ :: rest => some (opening ++ body.takeWhile (· != ']'), rest)

theorem length_of_bracket? {text inside rest : List Char}
    (found : bracket? text = some (inside, rest)) : rest.length < text.length := by
  simp only [bracket?] at found
  split at found
  · simp at found
  · rename_i closing after split
    obtain ⟨-, rfl⟩ := Prod.mk.inj (Option.some.inj found)
    have dropped := (List.dropWhile_suffix (l := text.drop (lead text).length) (· != ']')).length_le
    rw [split] at dropped
    simp only [List.length_cons, List.length_drop] at dropped
    omega

/-- The items of a pattern. A bracket that is not closed stands for itself. -/
def parse : List Char → List Item
  | [] => []
  | '*' :: rest => .anyRun :: parse rest
  | '?' :: rest => .anyChar :: parse rest
  | '[' :: rest =>
      match _found : bracket? rest with
      | some (inside, after) => .oneOf (CharSet.ofText inside) :: parse after
      | none => .exactly '[' :: parse rest
  | c :: rest => .exactly c :: parse rest
  termination_by text => text.length
  decreasing_by
    all_goals simp only [List.length_cons]
    case _ => omega
    case _ => omega
    case _ => exact Nat.lt_succ_of_lt (length_of_bracket? _found)
    case _ => omega
    case _ => omega

/-- For each suffix of a name, the longest first, whether it or a shorter one is marked. -/
def markedLater : List Bool → List Bool
  | [] => []
  | mark :: marks => (mark || marks.any id) :: markedLater marks

/-- For each suffix of a name, the longest first, whether its first character passes a test and
the rest of it is marked. -/
def markedNext (test : Char → Bool) : List Char → List Bool → List Bool
  | [], _ => [false]
  | c :: rest, marks => (test c && (marks.drop 1).headD false) :: markedNext test rest (marks.drop 1)

/-- The suffixes of a name that an item and then a marked suffix match. -/
def Item.marks (name : List Char) : Item → List Bool → List Bool
  | .anyRun, marks => markedLater marks
  | .anyChar, marks => markedNext (fun _ => true) name marks
  | .exactly c, marks => markedNext (· == c) name marks
  | .oneOf set, marks => markedNext set.contains name marks

/-- Only the empty suffix. -/
def endMarks (name : List Char) : List Bool :=
  List.replicate name.length false ++ [true]

/-- Whether a whole name matches the items of a pattern. -/
def isMatch (items : List Item) (name : List Char) : Bool :=
  (items.foldr (Item.marks name) (endMarks name)).headD false

end SceneSet.Glob
