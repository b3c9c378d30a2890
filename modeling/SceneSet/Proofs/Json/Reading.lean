import SceneSet.Proofs.Json.Escapes
import SceneSet.Proofs.Json.Number

/-!
# Reading JSON texts

`Json.read?` reads a JSON text in two passes. `Scanner` takes the text apart into marks, strings and
words, character by character, and leaves out the blanks between them. `Parser` puts the value
together, token by token, with the arrays and objects that are not closed yet on a stack. Besides
the words of JSON it knows `NaN`, `Infinity` and `-Infinity`.

From the tokens of a value (`Json.tokens`) the value is put together again (`Json.parse?_tokens`).
-/

namespace SceneSet.Json

open Number (Binary Decimal Double)

/-- A part of a JSON text: a mark, the inside of a string, or a word. -/
inductive Token where
  | mark (c : Char)
  | string (inside : List Char)
  | word (text : List Char)

/-! ### From characters to tokens -/

/-- Whether a character only keeps tokens apart. -/
def isBlank (c : Char) : Bool := c == ' ' || c == '\t' || c == '\n' || c == '\r'

/-- Whether a character is a token of its own. -/
def isMark (c : Char) : Bool :=
  c == '[' || c == ']' || c == '{' || c == '}' || c == ',' || c == ':'

/-- What has been read of a token, the last character first: of a word, if there is one, or of the
inside of a string, perhaps with a backslash that begins an escape after it. -/
inductive Pending where
  | outside (word : List Char)
  | string (inside : List Char)
  | escape (inside : List Char)

/-- The tokens that have been read, the last first, and what has been read of the next. -/
structure Scanner where
  tokens : List Token
  pending : Pending

namespace Scanner

/-- The start of a text. -/
def start : Scanner := ⟨[], .outside []⟩

/-- The tokens with a word that has ended. -/
def endWord (tokens : List Token) : List Char → List Token
  | [] => tokens
  | word => .word word.reverse :: tokens

/-- The next character. -/
def step (scanner : Scanner) (c : Char) : Scanner :=
  match scanner.pending with
  | .outside word =>
      if isBlank c then ⟨endWord scanner.tokens word, .outside []⟩
      else if isMark c then ⟨.mark c :: endWord scanner.tokens word, .outside []⟩
      else if c = '"' then ⟨endWord scanner.tokens word, .string []⟩
      else ⟨scanner.tokens, .outside (c :: word)⟩
  | .string inside =>
      if c = '"' then ⟨.string inside.reverse :: scanner.tokens, .outside []⟩
      else if c = '\\' then ⟨scanner.tokens, .escape inside⟩
      else ⟨scanner.tokens, .string (c :: inside)⟩
  | .escape inside => ⟨scanner.tokens, .string (c :: '\\' :: inside)⟩

/-- The tokens at the end of a text. There are none if a string is not closed. -/
def finish? (scanner : Scanner) : Option (List Token) :=
  match scanner.pending with
  | .outside word => some (endWord scanner.tokens word).reverse
  | _ => none

end Scanner

/-- The tokens of a text. -/
def scan? (text : List Char) : Option (List Token) := (text.foldl Scanner.step .start).finish?

/-! ### From tokens to values -/

/-- The value of a word. -/
def wordValue? (text : List Char) : Option Json :=
  match number? text with
  | some value => some value
  | none =>
      if text = ['n', 'u', 'l', 'l'] then some .null
      else if text = ['t', 'r', 'u', 'e'] then some (.bool true)
      else if text = ['f', 'a', 'l', 's', 'e'] then some (.bool false)
      else if text = ['N', 'a', 'N'] then some (.number .nan)
      else if text = ['I', 'n', 'f', 'i', 'n', 'i', 't', 'y'] then some (.number (.infinite false))
      else if text = ['-', 'I', 'n', 'f', 'i', 'n', 'i', 't', 'y'] then
        some (.number (.infinite true))
      else none

/-- An array or object that is not closed, with what it holds, the last first. The value of a key is
to follow. -/
inductive Frame where
  | items (read : List Json)
  | members (read : List (String × Json)) (key : String)

/-- What is expected next, or the value that has just ended. The open arrays and objects are on a
stack, the innermost first. -/
inductive Parser where
  | beforeValue (stack : List Frame)
  | inArray (stack : List Frame)
  | inObject (stack : List Frame)
  | beforeKey (read : List (String × Json)) (stack : List Frame)
  | afterKey (read : List (String × Json)) (key : String) (stack : List Frame)
  | afterValue (value : Json) (stack : List Frame)

namespace Parser

/-- The first token of a value. -/
def begin? (stack : List Frame) : Token → Option Parser
  | .mark '[' => some (.inArray stack)
  | .mark '{' => some (.inObject stack)
  | .mark _ => none
  | .string inside => do pure (.afterValue (.string (String.ofList (← unescape? inside))) stack)
  | .word text => do pure (.afterValue (← wordValue? text) stack)

/-- The key of a member. -/
def named? (read : List (String × Json)) (stack : List Frame) : Token → Option Parser
  | .string inside => do pure (.afterKey read (String.ofList (← unescape? inside)) stack)
  | _ => none

/-- The next token. An array or object may be closed at once, but not after a comma. -/
def step? : Parser → Token → Option Parser
  | .beforeValue stack, token => begin? stack token
  | .inArray stack, .mark ']' => some (.afterValue (.array []) stack)
  | .inArray stack, token => begin? (.items [] :: stack) token
  | .inObject stack, .mark '}' => some (.afterValue (.object []) stack)
  | .inObject stack, token => named? [] stack token
  | .beforeKey read stack, token => named? read stack token
  | .afterKey read key stack, .mark ':' => some (.beforeValue (.members read key :: stack))
  | .afterValue value (.items read :: stack), .mark ',' =>
      some (.beforeValue (.items (value :: read) :: stack))
  | .afterValue value (.items read :: stack), .mark ']' =>
      some (.afterValue (.array (value :: read).reverse) stack)
  | .afterValue value (.members read key :: stack), .mark ',' =>
      some (.beforeKey ((key, value) :: read) stack)
  | .afterValue value (.members read key :: stack), .mark '}' =>
      some (.afterValue (.object ((key, value) :: read).reverse) stack)
  | _, _ => none

end Parser

/-- The value that some tokens are. -/
def parse? (tokens : List Token) : Option Json := do
  match ← tokens.foldlM Parser.step? (.beforeValue []) with
  | .afterValue value [] => some value
  | _ => none

/-- The value that a text is. -/
def read? (text : String) : Option Json := do parse? (← scan? text.toList)

/-! ### The tokens of a value -/

mutual

/-- The tokens of a value. -/
def tokens : Json → List Token
  | null => [.word ['n', 'u', 'l', 'l']]
  | bool true => [.word ['t', 'r', 'u', 'e']]
  | bool false => [.word ['f', 'a', 'l', 's', 'e']]
  | integer value => [.word (Numeral.decimal value)]
  | number value => [.word value.shortest.toList]
  | string value => [.string (value.toList.flatMap escape)]
  | array [] => [.mark '[', .mark ']']
  | array (first :: rest) =>
      .mark '[' :: tokens first ++ itemTokens rest ++ [.mark ']']
  | object [] => [.mark '{', .mark '}']
  | object ((key, first) :: rest) =>
      .mark '{' :: .string (key.toList.flatMap escape) :: .mark ':' :: tokens first
        ++ memberTokens rest ++ [.mark '}']

/-- The tokens of the items after the first. -/
def itemTokens : List Json → List Token
  | [] => []
  | item :: rest => .mark ',' :: tokens item ++ itemTokens rest

/-- The tokens of the members after the first. -/
def memberTokens : List (String × Json) → List Token
  | [] => []
  | (key, value) :: rest =>
      .mark ',' :: .string (key.toList.flatMap escape) :: .mark ':' :: tokens value
        ++ memberTokens rest

end

namespace Parser

variable {stack : List Frame}

theorem step?_string (text : String) :
    step? (.beforeValue stack) (.string (text.toList.flatMap escape)) =
      some (.afterValue (.string text) stack) := by
  simp [step?, begin?, unescape?_flatMap]

theorem named?_string (read : List (String × Json)) (key : String) :
    named? read stack (.string (key.toList.flatMap escape)) = some (.afterKey read key stack) := by
  simp [named?, unescape?_flatMap]

/-- The key of a first member. -/
theorem foldlM_firstKey (key : String) (rest : List Token) :
    (Token.string (key.toList.flatMap escape) :: .mark ':' :: rest).foldlM step? (.inObject stack) =
      rest.foldlM step? (.beforeValue (.members [] key :: stack)) := by
  have hkey : step? (.inObject stack) (.string (key.toList.flatMap escape)) =
      some (.afterKey [] key stack) := named?_string [] key
  rw [List.foldlM_cons, hkey]
  rfl

/-- The key of a further member. -/
theorem foldlM_key (read : List (String × Json)) (key : String) (rest : List Token) :
    (Token.string (key.toList.flatMap escape) :: .mark ':' :: rest).foldlM step?
        (.beforeKey read stack) =
      rest.foldlM step? (.beforeValue (.members read key :: stack)) := by
  have hkey : step? (.beforeKey read stack) (.string (key.toList.flatMap escape)) =
      some (.afterKey read key stack) := named?_string read key
  rw [List.foldlM_cons, hkey]
  rfl

theorem step?_word {text : List Char} {value : Json} (h : wordValue? text = some value) :
    step? (.beforeValue stack) (.word text) = some (.afterValue value stack) := by
  simp [step?, begin?, h]

end Parser

theorem wordValue?_decimal (n : Int) : wordValue? (Numeral.decimal n) = some (.integer n) := by
  rw [wordValue?, number?_decimal]

theorem wordValue?_shortest (x : Double) : wordValue? x.shortest.toList = some (.number x) := by
  cases x with
  | nan => rfl
  | infinite negative => cases negative <;> rfl
  | finite negative code => rw [wordValue?, number?_shortest]

/-- A word that has a value is not empty. -/
theorem ne_nil_of_wordValue? {text : List Char} {value : Json}
    (h : wordValue? text = some value) : text ≠ [] := by
  rintro rfl
  cases h

/-- In an array the first item is a value like any other. -/
theorem foldlM_item (value : Json) (stack : List Frame) :
    (tokens value).foldlM Parser.step? (.inArray stack) =
      (tokens value).foldlM Parser.step? (.beforeValue (.items [] :: stack)) := by
  match value with
  | null => rfl
  | bool true => rfl
  | bool false => rfl
  | integer n => rfl
  | number x => rfl
  | string text => rfl
  | array [] => rfl
  | array (first :: rest) => rfl
  | object [] => rfl
  | object ((key, first) :: rest) => rfl

mutual

/-- From the tokens of a value the value is put together, whatever is open. -/
theorem foldlM_tokens (value : Json) (stack : List Frame) :
    (tokens value).foldlM Parser.step? (.beforeValue stack) = some (.afterValue value stack) := by
  match value with
  | null => rfl
  | bool true => rfl
  | bool false => rfl
  | integer n =>
      simp only [tokens, List.foldlM_cons, Parser.step?_word (wordValue?_decimal n)]
      rfl
  | number x =>
      simp only [tokens, List.foldlM_cons, Parser.step?_word (wordValue?_shortest x)]
      rfl
  | string text =>
      simp only [tokens, List.foldlM_cons, Parser.step?_string]
      rfl
  | array [] => rfl
  | array (first :: rest) =>
      have hfirst := foldlM_tokens first (.items [] :: stack)
      have hrest := foldlM_itemTokens rest first [] stack
      rw [tokens, List.append_assoc, List.cons_append, List.foldlM_cons]
      show ((tokens first ++ _).foldlM Parser.step? (.inArray stack)) = _
      rw [List.foldlM_append, foldlM_item, hfirst]
      exact hrest
  | object [] => rfl
  | object ((key, first) :: rest) =>
      have hfirst := foldlM_tokens first (.members [] key :: stack)
      have hrest := foldlM_memberTokens rest key first [] stack
      rw [tokens, List.append_assoc, List.cons_append, List.foldlM_cons]
      show List.foldlM Parser.step? (.inObject stack) (_ :: _ :: (tokens first ++ _)) = _
      rw [Parser.foldlM_firstKey, List.foldlM_append, hfirst]
      exact hrest

/-- The items after the first, and the end of the array. -/
theorem foldlM_itemTokens (rest : List Json) (value : Json) (read : List Json)
    (stack : List Frame) :
    (itemTokens rest ++ [Token.mark ']']).foldlM Parser.step?
        (.afterValue value (.items read :: stack)) =
      some (.afterValue (.array (read.reverse ++ value :: rest)) stack) := by
  match rest with
  | [] =>
      show some (Parser.afterValue (.array (value :: read).reverse) stack) = _
      rw [List.reverse_cons]
  | item :: rest =>
      have hitem := foldlM_tokens item (.items (value :: read) :: stack)
      have hrest := foldlM_itemTokens rest item (value :: read) stack
      rw [itemTokens, List.append_assoc, List.cons_append, List.foldlM_cons]
      show (tokens item ++ _).foldlM Parser.step? (.beforeValue (.items (value :: read) :: stack)) =
        _
      rw [List.foldlM_append, hitem]
      show ((itemTokens rest ++ _).foldlM Parser.step? _) = _
      rw [hrest, List.reverse_cons, List.append_assoc]
      rfl

/-- The members after the first, and the end of the object. -/
theorem foldlM_memberTokens (rest : List (String × Json)) (key : String) (value : Json)
    (read : List (String × Json)) (stack : List Frame) :
    (memberTokens rest ++ [Token.mark '}']).foldlM Parser.step?
        (.afterValue value (.members read key :: stack)) =
      some (.afterValue (.object (read.reverse ++ (key, value) :: rest)) stack) := by
  match rest with
  | [] =>
      show some (Parser.afterValue (.object ((key, value) :: read).reverse) stack) = _
      rw [List.reverse_cons]
  | (other, item) :: rest =>
      have hitem := foldlM_tokens item (.members ((key, value) :: read) other :: stack)
      have hrest := foldlM_memberTokens rest other item ((key, value) :: read) stack
      rw [memberTokens, List.append_assoc, List.cons_append, List.foldlM_cons]
      show List.foldlM Parser.step? (.beforeKey ((key, value) :: read) stack)
        (_ :: _ :: (tokens item ++ _)) = _
      rw [Parser.foldlM_key, List.foldlM_append, hitem]
      show ((memberTokens rest ++ _).foldlM Parser.step? _) = _
      rw [hrest, List.reverse_cons, List.append_assoc]
      rfl

end

theorem parse?_tokens (value : Json) : parse? (tokens value) = some value := by
  unfold parse?
  rw [foldlM_tokens]
  rfl

end SceneSet.Json
