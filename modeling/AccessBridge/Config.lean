import AccessBridge.Toml.Document

/-!
# Configuration

The tunables of a bridge. Every setting has a default, so an empty document configures a bridge;
settings that are not known are ignored, but the document must be right as a whole.
-/

namespace AccessBridge

/-- The settings of a bridge. -/
structure Config where
  /-- How many adapters may live at a time. -/
  maxAdapters : Nat := 16
  /-- Whether requests for an update of one adapter fold into one while they wait. -/
  coalesceUpdates : Bool := true
  /-- How many requests are delivered at a time; zero stands for all that wait. -/
  drainBatchSize : Nat := 0
  toolkitName : Option String := none
  toolkitVersion : Option String := none
  /-- The name of the root of a new adapter. -/
  rootName : Option String := none
deriving DecidableEq, Repr, Inhabited

/-- Why there is no configuration. -/
inductive ConfigError where
  /-- The file is missing or is not text. -/
  | unreadable
  /-- The document is wrong, or a setting has the wrong type. -/
  | invalid
deriving DecidableEq, Repr

namespace Config

/-- A setting of a document, or its default. A setting must have the type that is read. -/
def setting {α : Type} (t : Toml.Table) (key : String) (fallback : α)
    (read : Toml.Value → Option α) : Except ConfigError α :=
  match t.get? key with
  | none => .ok fallback
  | some v => match read v with
    | some a => .ok a
    | none => .error .invalid

/-- A count: an integer that is not negative. -/
def count? : Toml.Value → Option Nat
  | .integer n => if 0 ≤ n then some n.toNat else none
  | _ => none

/-- A switch. -/
def switch? : Toml.Value → Option Bool
  | .boolean b => some b
  | _ => none

/-- A text, which may be absent. -/
def text? : Toml.Value → Option (Option String)
  | .string s => some (some s)
  | _ => none

/-- The settings in a table. -/
def ofTable (t : Toml.Table) : Except ConfigError Config := do
  let fallback : Config := {}
  return {
    maxAdapters := ← setting t "max_adapters" fallback.maxAdapters count?
    coalesceUpdates := ← setting t "coalesce_updates" fallback.coalesceUpdates switch?
    drainBatchSize := ← setting t "drain_batch_size" fallback.drainBatchSize count?
    toolkitName := ← setting t "toolkit_name" fallback.toolkitName text?
    toolkitVersion := ← setting t "toolkit_version" fallback.toolkitVersion text?
    rootName := ← setting t "root_name" fallback.rootName text? }

/-- The configuration that a document describes. -/
def ofText (source : String) : Except ConfigError Config :=
  match Toml.read? source with
  | none => .error .invalid
  | some t => ofTable t

/-- The configuration in the bytes of a file, if there is a file. -/
def ofFile (bytes : Option ByteArray) : Except ConfigError Config :=
  match bytes.bind String.fromUTF8? with
  | none => .error .unreadable
  | some source => ofText source

end Config

end AccessBridge
