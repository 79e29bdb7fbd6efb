/-!
# TOML values and tables

The values of a TOML document, and the rules by which headers, dotted keys and inline tables may
build up one table. Each table remembers how it came about, since that decides who may add to it:
a header opens a table once, a dotted key adds only to tables made by dotted keys, and an inline
table is complete.
-/

namespace AccessBridge.Toml

/-- A decimal number, or one of the two that have no digits. The sign is kept for all of them. -/
inductive Real where
  | decimal (negative : Bool) (digits : Nat) (exponent : Int)
  | infinity (negative : Bool)
  | nan
deriving DecidableEq, Repr

/-- A calendar date. -/
structure Date where
  year : Nat
  month : Nat
  day : Nat
deriving DecidableEq, Repr

/-- A time of day; the fraction of a second is given by its digits. -/
structure Time where
  hour : Nat
  minute : Nat
  second : Nat
  fraction : List Nat := []
deriving DecidableEq, Repr

/-- A date, a time of day, or both, with an offset in minutes. -/
structure DateTime where
  date : Option Date := none
  time : Option Time := none
  offset : Option Int := none
deriving DecidableEq, Repr

/-- How a table came about. -/
inductive Origin where
  /-- By its own header, or as the document itself. -/
  | header
  /-- By the header of a table inside it. -/
  | implied
  /-- By a dotted key. -/
  | dotted
  /-- As an inline table. -/
  | inline
deriving DecidableEq, Repr

/-- A value of a document. -/
inductive Value where
  | string (s : String)
  | integer (n : Int)
  | real (r : Real)
  | boolean (b : Bool)
  | dateTime (d : DateTime)
  | array (items : List Value)
  | table (origin : Origin) (entries : List (String × Value))
  /-- An array of tables; each element has a header of its own. -/
  | tables (items : List (List (String × Value)))

/-- The entries of a table, in the order in which they were made. -/
abbrev Table := List (String × Value)

/-- A path of keys, outermost first. -/
abbrev Path := List String

namespace Table

/-- The value under a key. -/
def get? (t : Table) (key : String) : Option Value := List.lookup key t

/-- Gives a key that is in use another value. -/
def replace (t : Table) (key : String) (v : Value) : Table :=
  t.map fun e => if e.1 = key then (key, v) else e

/-- Changes the table at the end of a path. Tables that the path lacks are made as `fresh`, an
    array of tables stands for its last element, and `passes` tells which tables may be passed. -/
def changeAt (fresh : Origin) (passes : Origin → Bool) (f : Origin → Table → Option Table) :
    Path → Origin → Table → Option Table
  | [], origin, t => f origin t
  | key :: path, _, t =>
    match t.get? key with
    | none => do
      let inner ← changeAt fresh passes f path fresh []
      some (t ++ [(key, .table fresh inner)])
    | some (.table origin inner) =>
      if passes origin then do
        let inner ← changeAt fresh passes f path origin inner
        some (t.replace key (.table origin inner))
      else none
    | some (.tables items) => do
      let last ← items.getLast?
      let last ← changeAt fresh passes f path .header last
      some (t.replace key (.tables (items.dropLast ++ [last])))
    | some _ => none

/-- Changes the table that a header names; headers pass everything but inline tables. -/
def changeAtHeader (f : Origin → Table → Option Table) (path : Path) (t : Table) : Option Table :=
  changeAt .implied (· != .inline) f path .header t

/-- Opens the table that a header names. A table that was only implied so far may be opened. -/
def openTable (path : Path) (key : String) : Table → Option Table :=
  changeAtHeader (fun _ t =>
    match t.get? key with
    | none => some (t ++ [(key, .table .header [])])
    | some (.table .implied inner) => some (t.replace key (.table .header inner))
    | some _ => none) path

/-- Opens a further element of the array of tables that a header names. -/
def openElement (path : Path) (key : String) : Table → Option Table :=
  changeAtHeader (fun _ t =>
    match t.get? key with
    | none => some (t ++ [(key, .tables [[]])])
    | some (.tables items) => some (t.replace key (.tables (items ++ [[]])))
    | some _ => none) path

/-- Adds a value under a key that may be dotted. The tables that a dotted key passes must come
    from dotted keys or be implied, and the table it adds to must come from dotted keys. -/
def define (path : Path) (key : String) (v : Value) : Origin → Table → Option Table :=
  changeAt .dotted (fun o => o = .dotted || o = .implied) (fun origin t =>
    if decide (origin = .dotted) = path.isEmpty then none
    else if (t.get? key).isSome then none
    else some (t ++ [(key, v)])) path

end Table

end AccessBridge.Toml
