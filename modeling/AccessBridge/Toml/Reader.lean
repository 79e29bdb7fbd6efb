/-!
# Reading text from the left

A reader takes something off the front of a text, or fails. Repetition stops at the first failure
and is bounded by the length of the text, since what is repeated always takes something.
-/

namespace AccessBridge.Toml

/-- Takes a value off the front of a text. -/
abbrev Reader := StateT (List Char) Option

namespace Reader

variable {α : Type}

/-- The text that is left. -/
def rest : Reader (List Char) := fun s => some (s, s)

/-- Succeeds at the end of the text. -/
def atEnd : Reader Unit := fun s => if s.isEmpty then some ((), s) else none

/-- Takes one character of a class. -/
def one (p : Char → Bool) : Reader Char
  | [] => none
  | c :: s => if p c then some (c, s) else none

/-- Takes a given character. -/
def char (c : Char) : Reader Unit := do
  let _ ← one (· == c)

/-- Takes a given text. -/
def word (w : String) : Reader Unit := w.toList.forM char

/-- Takes the longest front of a class, which may be empty. -/
def span (p : Char → Bool) : Reader (List Char) := fun s => some (s.takeWhile p, s.dropWhile p)

/-- Takes a number of characters of a class. -/
def exactly (p : Char → Bool) : Nat → Reader (List Char)
  | 0 => pure []
  | n + 1 => do
    let c ← one p
    let cs ← exactly p n
    pure (c :: cs)

/-- Takes something up to a number of times. -/
def upTo (r : Reader α) : Nat → Reader (List α)
  | 0 => pure []
  | n + 1 => fun s =>
    match r s with
    | none => some ([], s)
    | some (a, s) => (upTo r n s).map fun p => (a :: p.1, p.2)

/-- Takes something as often as it is there. -/
def many (r : Reader α) : Reader (List α) := do
  let s ← rest
  upTo r s.length

/-- Takes one or more things with a separator between every two. -/
def separated (r : Reader α) (separator : Reader Unit) : Reader (List α) := do
  let a ← r
  let as ← many (do separator; r)
  pure (a :: as)

end Reader

end AccessBridge.Toml
