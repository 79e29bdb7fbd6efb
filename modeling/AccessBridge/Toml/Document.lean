import AccessBridge.Toml.Scalar

/-!
# TOML documents

Values, key-value pairs, headers, and the document that they build up. A document that is wrong
anywhere has no reading at all.
-/

namespace AccessBridge.Toml

open Reader

/-! ## Values -/

/-- Takes the items of an array, given how to take one. -/
def array (item : Reader Value) : Reader Value := do
  char '['
  let items ← optional (separated (do spacing; let v ← item; spacing; pure v) (char ','))
  if items.isSome then
    let _ ← optional (char ',')
  spacing
  char ']'
  pure (.array (items.getD []))

/-- Takes a key and its value, given how to take a value. -/
def keyValue (item : Reader Value) : Reader ((Path × String) × Value) := do
  let key ← dottedKey
  char '='
  blanks
  let v ← item
  pure (key, v)

/-- The table that the pairs of an inline table build up. -/
def build (pairs : List ((Path × String) × Value)) : Option Table :=
  pairs.foldlM (fun t ((path, key), v) => Table.define path key v .inline t) []

/-- Takes an inline table, given how to take a value. -/
def inlineTable (item : Reader Value) : Reader Value := do
  char '{'
  let pairs ← optional (separated (do let p ← keyValue item; blanks; pure p) (char ','))
  blanks
  char '}'
  let entries ← liftM (build (pairs.getD []))
  pure (.table .inline entries)

/-- Takes a value that holds no other. -/
def scalar : Reader Value := do
  match (← rest).head? with
  | some '"' | some '\'' => Value.string <$> string
  | some 't' => word "true"; pure (.boolean true)
  | some 'f' => word "false"; pure (.boolean false)
  | some 'i' | some 'n' => Value.real <$> specialFloat
  | _ => number

/-- Takes a value in which arrays and inline tables are nested at most so deeply. -/
def value : Nat → Reader Value
  | 0 => scalar
  | depth + 1 => do
    match (← rest).head? with
    | some '[' => array (value depth)
    | some '{' => inlineTable (value depth)
    | _ => scalar

/-- How deeply arrays and inline tables may be nested. -/
def maxDepth : Nat := 79

/-! ## Expressions -/

/-- A line of a document that is not blank. -/
inductive Expression where
  | define (path : Path) (key : String) (v : Value)
  | openTable (path : Path) (key : String)
  | openElement (path : Path) (key : String)

/-- Takes a header. -/
def header : Reader Expression := do
  char '['
  match ← optional (char '[') with
  | some _ =>
    let (path, key) ← dottedKey
    char ']'
    char ']'
    pure (.openElement path key)
  | none =>
    let (path, key) ← dottedKey
    char ']'
    pure (.openTable path key)

/-- Takes a header or a key with its value, and the rest of the line. -/
def expression : Reader Expression := do
  let e ← match (← rest).head? with
    | some '[' => header
    | _ => do
      let ((path, key), v) ← keyValue (value maxDepth)
      pure (.define path key v)
  endOfExpression
  pure e

/-- Takes a line that says nothing. The end of the text is no line. -/
def blankLine : Reader Unit := newline <|> (do comment; lineEnd)

/-- Takes all expressions of a document. -/
def expressions : Reader (List Expression) := do
  blanks
  let lines ← many do
    let e ← (do blankLine; pure none) <|> (some <$> expression)
    blanks
    pure e
  atEnd
  pure (lines.filterMap id)

/-! ## Documents -/

/-- A document under construction: its table, and the path of the table that was opened last. -/
structure Draft where
  root : Table := []
  current : Path := []

/-- Adds one expression. -/
def Draft.add (d : Draft) : Expression → Option Draft
  | .define path key v => do
    let root ← d.root.changeAtHeader (Table.define path key v) d.current
    some { d with root }
  | .openTable path key => do
    let root ← d.root.openTable path key
    some { root, current := path ++ [key] }
  | .openElement path key => do
    let root ← d.root.openElement path key
    some { root, current := path ++ [key] }

/-- The table that a document describes. A byte order mark in front of it is skipped. -/
def read? (s : String) : Option Table := do
  let text := match s.toList with
    | '\ufeff' :: cs => cs
    | cs => cs
  let (es, _) ← expressions.run text
  let draft ← es.foldlM Draft.add {}
  some draft.root

end AccessBridge.Toml
