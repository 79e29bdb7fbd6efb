import AccessBridge.Toml.Reader
import AccessBridge.Toml.Value

/-!
# Blanks, comments, strings and keys

The smallest parts of a TOML document.
-/

namespace AccessBridge.Toml

open Reader

/-! ## Blanks -/

/-- Blanks within a line. -/
def isBlank (c : Char) : Bool := c == ' ' || c == '\t'

/-- Characters that may stand in comments and, quotes and backslashes apart, in strings: blanks,
    printing characters and everything beyond ASCII. -/
def isPlain (c : Char) : Bool := c == '\t' || (' ' ≤ c && c != '\x7f')

/-- Skips blanks within a line. -/
def blanks : Reader Unit := do
  let _ ← span isBlank

/-- Takes the end of a line. -/
def newline : Reader Unit := fun s =>
  match s with
  | '\n' :: s => some ((), s)
  | '\r' :: '\n' :: s => some ((), s)
  | _ => none

/-- Takes a comment, up to the end of its line. -/
def comment : Reader Unit := do
  char '#'
  let _ ← span isPlain

/-- Takes the end of a line or of the text. -/
def lineEnd : Reader Unit := newline <|> atEnd

/-- Takes what may follow an expression on its line. -/
def endOfExpression : Reader Unit := do
  blanks
  let _ ← optional comment
  lineEnd

/-- Skips blanks, comments and ends of lines. -/
def spacing : Reader Unit := do
  let _ ← many (newline <|> (do let _ ← one isBlank) <|> (do comment; newline))

/-! ## Strings -/

/-- The value of a hexadecimal digit. -/
def hexDigit? (c : Char) : Option Nat :=
  if '0' ≤ c ∧ c ≤ '9' then some (c.toNat - '0'.toNat)
  else if 'a' ≤ c ∧ c ≤ 'f' then some (c.toNat - 'a'.toNat + 10)
  else if 'A' ≤ c ∧ c ≤ 'F' then some (c.toNat - 'A'.toNat + 10)
  else none

/-- The number that digits write in a base. -/
def ofDigits (base : Nat) (digits : List Char) : Nat :=
  digits.foldl (fun n c => n * base + (hexDigit? c).getD 0) 0

/-- Takes the number of a character, in a number of digits. Numbers of surrogates and numbers
    beyond the last character fail. -/
def codePoint (digits : Nat) : Reader Char := do
  let n := ofDigits 16 (← exactly (fun c => (hexDigit? c).isSome) digits)
  if h : n.isValidChar then pure (Char.ofNatAux n h) else failure

/-- Takes what follows the backslash of an escape. -/
def escaped : Reader Char := do
  match ← one (fun _ => true) with
  | 'b' => pure '\x08'
  | 't' => pure '\t'
  | 'n' => pure '\n'
  | 'f' => pure '\x0c'
  | 'r' => pure '\r'
  | '"' => pure '"'
  | '\\' => pure '\\'
  | 'u' => codePoint 4
  | 'U' => codePoint 8
  | _ => failure

/-- Takes one character of a string on one line. -/
def basicChar : Reader Char :=
  (do char '\\'; escaped) <|> one fun c => isPlain c && c != '"' && c != '\\'

/-- Takes a string between double quotes, on one line. -/
def basicString : Reader String := do
  char '"'
  let cs ← many basicChar
  char '"'
  pure (String.ofList cs)

/-- Takes a string between single quotes, on one line. Backslashes mean nothing in it. -/
def literalString : Reader String := do
  char '\''
  let cs ← span fun c => isPlain c && c != '\''
  char '\''
  pure (String.ofList cs)

/-- Takes a backslash at the end of a line with the blank space after it. -/
def joinedLines : Reader Unit := do
  char '\\'
  blanks
  newline
  let _ ← many (newline <|> (do let _ ← one isBlank))

/-- Takes one or two quotes that do not end a string over several lines. -/
def innerQuotes (quote : Char) : Reader (List Char) := fun s =>
  let run := s.takeWhile (· == quote)
  if 1 ≤ run.length ∧ run.length ≤ 2 then some (run, s.drop run.length) else none

/-- Takes the three quotes that end a string over several lines, after up to two that belong to
    it. -/
def closingQuotes (quote : Char) : Reader (List Char) := fun s =>
  let run := s.takeWhile (· == quote)
  if 3 ≤ run.length ∧ run.length ≤ 5 then some (run.drop 3, s.drop run.length) else none

/-- Takes a string over several lines, given its quotes and its other parts. A line that ends right
    after the opening quotes does not count. -/
def multiline (quote : Char) (part : Reader (List Char)) : Reader String := do
  char quote
  char quote
  char quote
  let _ ← optional newline
  let parts ← many (innerQuotes quote <|> (do newline; pure ['\n']) <|> part)
  let final ← closingQuotes quote
  pure (String.ofList (parts.flatten ++ final))

/-- Takes a string between three double quotes on each side. -/
def multilineBasic : Reader String :=
  multiline '"' ((do joinedLines; pure []) <|> (do let c ← basicChar; pure [c]))

/-- Takes a string between three single quotes on each side. -/
def multilineLiteral : Reader String :=
  multiline '\'' do
    let c ← one fun c => isPlain c && c != '\''
    pure [c]

/-- Takes a string of any sort. -/
def string : Reader String := do
  match (← rest).take 3 with
  | ['"', '"', '"'] => multilineBasic
  | ['\'', '\'', '\''] => multilineLiteral
  | '"' :: _ => basicString
  | _ => literalString

/-! ## Keys -/

/-- Characters of a key without quotes. -/
def isBare (c : Char) : Bool := c.isAlphanum || c == '_' || c == '-'

/-- Takes a key that is not dotted. -/
def simpleKey : Reader String := do
  match (← rest).head? with
  | some '"' => basicString
  | some '\'' => literalString
  | _ =>
    let c ← one isBare
    let cs ← span isBare
    pure (String.ofList (c :: cs))

/-- The number of parts that a dotted key may have. -/
def maxKeyParts : Nat := 79

/-- Takes a key, with blanks around each of its parts. -/
def dottedKey : Reader (Path × String) := do
  let keys ← separated (do blanks; let k ← simpleKey; blanks; pure k) (char '.')
  match keys.getLast? with
  | some last => if keys.length ≤ maxKeyParts then pure (keys.dropLast, last) else failure
  | none => failure

end AccessBridge.Toml
