import SceneSet.Text.Integer

/-!
# Command-line arguments

A tool takes operands in a fixed order and options anywhere. An option may be shortened as long as
its name stays unambiguous, and its value may be joined to it by an equals sign. After `--`
everything is an operand. Words such as `-1` or `-a b` are values, not options.
-/

namespace SceneSet.Command

/-- How many values an option takes. -/
inductive OptionArity where
  | none
  | one
  | oneOrMore
  deriving DecidableEq

/-- How many words an operand takes. -/
inductive OperandArity where
  | one
  | optional
  | oneOrMore
  deriving DecidableEq

/-- An option: its name with two hyphens, how many values it takes, and which values it accepts. -/
structure OptionSpec where
  name : String
  arity : OptionArity
  accepts : String → Bool

/-- What a tool takes. -/
structure Grammar where
  options : List OptionSpec
  operands : List OperandArity

/-- Why arguments are not taken: help is asked for, or they do not fit the grammar. -/
inductive Refusal where
  | help
  | misuse
  deriving DecidableEq

/-- Arguments that fit a grammar: the values of the options, the last use first, and the words of
each operand in order. -/
structure Arguments where
  options : List (String × List String)
  operands : List (List String)
  deriving DecidableEq

namespace Arguments

/-- Whether an option is used. -/
def has (arguments : Arguments) (name : String) : Bool :=
  (arguments.options.lookup name).isSome

/-- All values of an option. -/
def values? (arguments : Arguments) (name : String) : Option (List String) :=
  arguments.options.lookup name

/-- The first value of an option. -/
def value? (arguments : Arguments) (name : String) : Option String :=
  (arguments.values? name).bind List.head?

/-- The words of an operand. -/
def operand (arguments : Arguments) (index : Nat) : List String :=
  arguments.operands[index]?.getD []

end Arguments

/-- What a word of the command line is: an operand or a value, the mark that ends the options, an
option with the value that is joined to it, a request for help, or an option that is not known. -/
inductive Word where
  | plain (text : String)
  | endOfOptions
  | option (spec : OptionSpec) (joined : Option String)
  | help (takesIt : Bool)
  | unknown

namespace Word

/-- Whether a character is a decimal digit of some script. -/
def isDigit (c : Char) : Bool := (Integer.digit? c).isSome

/-- A word without the line feed that it may end in. -/
def dropLineFeed (text : List Char) : List Char :=
  if text.getLast? = some '\n' then text.dropLast else text

/-- Whether a word is a number with a sign, and perhaps a point, which is no option. A line feed
after the number does not count. -/
def isNegativeNumber (text : List Char) : Bool :=
  match dropLineFeed text with
  | '-' :: rest =>
      let whole := rest.takeWhile isDigit
      match rest.dropWhile isDigit with
      | [] => !whole.isEmpty
      | '.' :: fraction => !fraction.isEmpty && fraction.all isDigit
      | _ => false
  | _ => false

/-- The text before the first equals sign, and the text after it if there is one. -/
def splitEquals (text : List Char) : List Char × Option (List Char) :=
  match text.dropWhile (· != '=') with
  | [] => (text, none)
  | _ :: joined => (text.takeWhile (· != '='), some joined)

/-- The name of the option that asks for help. -/
def helpName : List Char := "--help".toList

/-- What a word is that is no option of two hyphens, or none that is known. -/
def ofOther (text : List Char) : Word :=
  if isNegativeNumber text ∨ text.contains ' ' then .plain (String.ofList text) else .unknown

/-- The option that a name stands for, or shortens, with the value joined to it. Nothing if it could
be several options. -/
def ofName? (grammar : Grammar) (text : List Char) : Option Word :=
  let (name, joined) := splitEquals text
  let known (spec : OptionSpec) := Word.option spec (joined.map String.ofList)
  match grammar.options.find? fun spec => spec.name.toList = name with
  | some spec => some (known spec)
  | none =>
      let fitting := (grammar.options.filter fun spec => name.isPrefixOf spec.name.toList).map known
      if helpName = name then some (.help joined.isNone)
      else match (if name.isPrefixOf helpName then [.help joined.isNone] else []) ++ fitting with
        | [] => some (ofOther text)
        | [word] => some word
        | _ => none

/-- Whether a request for help by one letter stands in spite of what follows the letter: further
options of one letter do, a value does not. -/
def isHelpTail : List Char → Bool
  | '=' :: _ | '-' :: _ => false
  | _ => true

/-- What a word before the end of the options is. Nothing if it could be several options. -/
def ofText? (grammar : Grammar) (text : List Char) : Option Word :=
  match text with
  | '-' :: '-' :: _ => ofName? grammar text
  | '-' :: 'h' :: rest => some (.help (isHelpTail (rest.dropWhile (· == 'h'))))
  | '-' :: _ :: _ => some (ofOther text)
  | _ => some (.plain (String.ofList text))

/-- The words of a command line. -/
def ofArguments? (grammar : Grammar) : List String → Option (List Word)
  | [] => some []
  | argument :: rest =>
      if argument = "--" then some (.endOfOptions :: rest.map .plain)
      else do
        let word ← ofText? grammar argument.toList
        pure (word :: (← ofArguments? grammar rest))

/-- The text of an operand or value. -/
def text? : Word → Option String
  | .plain text => some text
  | _ => none

/-- Whether a word marks the end of the options. -/
def isEnd : Word → Bool
  | .endOfOptions => true
  | _ => false

end Word

/-- How far a command line has been taken: what was found, the operands that are still awaited,
whether a word was met that fits nowhere, the operands since the last option, and the option that
takes further values with those it has. -/
structure Parsing where
  found : Arguments
  awaited : List OperandArity
  stray : Bool
  run : List Word
  taking : Option (OptionSpec × List String)

namespace Parsing

/-- Before the first word. -/
def start (grammar : Grammar) : Parsing := ⟨⟨[], []⟩, grammar.operands, false, [], none⟩

/-- The words that one operand takes from the front of a run, and the rest of the run. The mark
that ends the options does not count, and where an operand may be missing a second one stands for
nothing. -/
def takeOperand (arity : OperandArity) (run : List Word) : Option (List String × List Word) :=
  let words := run.filterMap Word.text?
  let tail := (run.dropWhile Word.isEnd).drop 1 |>.dropWhile Word.isEnd
  match arity, words with
  | .one, [] => none
  | .one, first :: _ => some ([first], tail)
  | .optional, [] => some ([], [])
  | .optional, first :: _ => some (if first = "--" then [] else [first], tail)
  | .oneOrMore, [] => none
  | .oneOrMore, all => some (all, [])

/-- Fills the awaited operands, in order, from a run of words. If one of them is not filled, it
and those after it go on waiting. -/
def fill : List OperandArity → List Word → List (List String) × List OperandArity × List Word
  | [], run => ([], [], run)
  | arity :: awaited, run =>
      match takeOperand arity run with
      | none => ([], arity :: awaited, run)
      | some (taken, rest) =>
          let (filled, waiting, left) := fill awaited rest
          (taken :: filled, waiting, left)

/-- Ends the current run of operands. What is left of it fits nowhere. -/
def endRun (parsing : Parsing) : Parsing :=
  let (filled, waiting, left) := fill parsing.awaited parsing.run
  { parsing with
    found := { parsing.found with operands := parsing.found.operands ++ filled }
    awaited := waiting
    stray := parsing.stray || !left.isEmpty
    run := [] }

/-- Notes an option with its values. -/
def note (parsing : Parsing) (spec : OptionSpec) (values : List String) : Except Refusal Parsing :=
  if values.all spec.accepts then
    .ok { parsing with
      found := { parsing.found with options := (spec.name, values) :: parsing.found.options }
      taking := none }
  else .error .misuse

/-- Ends the option that takes values, if there is one; it needs one at least. -/
def endOption (parsing : Parsing) : Except Refusal Parsing :=
  match parsing.taking with
  | none => .ok parsing
  | some (_, []) => .error .misuse
  | some (spec, values) => parsing.note spec values

/-- Begins an option. -/
def beginOption (parsing : Parsing) (spec : OptionSpec) (joined : Option String) :
    Except Refusal Parsing :=
  match spec.arity, joined with
  | .none, none => parsing.note spec []
  | .none, some _ => .error .misuse
  | _, some value => parsing.note spec [value]
  | _, none => .ok { parsing with taking := some (spec, []) }

/-- Takes a word that no option takes as its value. Operands are assigned when an option or an
unknown word follows them. -/
def takeFree (parsing : Parsing) (word : Word) : Except Refusal Parsing :=
  let before := if parsing.run.isEmpty then parsing else parsing.endRun
  match word with
  | .plain _ | .endOfOptions => .ok { parsing with run := parsing.run ++ [word] }
  | .option spec joined => before.beginOption spec joined
  | .help true => .error .help
  | .help false => .error .misuse
  | .unknown => .ok { before with stray := true }

/-- Takes the next word. -/
def take (parsing : Parsing) (word : Word) : Except Refusal Parsing :=
  match parsing.taking, word with
  | some (spec, values), .plain text =>
      if spec.arity = .one then parsing.note spec [text]
      else .ok { parsing with taking := some (spec, values ++ [text]) }
  | _, _ => do (← parsing.endOption).takeFree word

/-- What was found when there is no further word. -/
def finish (parsing : Parsing) : Except Refusal Arguments := do
  let parsing := (← parsing.endOption).endRun
  if parsing.stray || !parsing.awaited.isEmpty then .error .misuse
  else .ok parsing.found

end Parsing

/-- The arguments on a command line. -/
def Grammar.parse (grammar : Grammar) (line : List String) : Except Refusal Arguments :=
  match Word.ofArguments? grammar line with
  | none => .error .misuse
  | some words => do (← words.foldlM Parsing.take (Parsing.start grammar)).finish

end SceneSet.Command
