import AccessBridge.Bridge
import AccessBridge.Text.Quoted

/-!
# Diagnostics

One-line summaries of the state of a bridge, and the targets under which its parts log.
-/

namespace AccessBridge

/-- The targets of log messages: inbox, trees, questions, actions, notifications, lifecycle. -/
def logTargets : List String :=
  ["horizon_a11y_core::executor", "horizon_a11y::tree", "horizon_a11y::query",
    "horizon_a11y::action", "horizon_a11y::notify", "horizon_a11y::lifecycle"]

namespace Text

/-- A record: its name and its fields. -/
def record (name : String) (fields : List (String × String)) (rest : List String) : String :=
  name ++ " \x7b " ++
    String.intercalate ", " (fields.map (fun f => f.1 ++ ": " ++ f.2) ++ rest) ++ " \x7d"

/-- A value that may be missing. -/
def optional (o : Option String) : String :=
  match o with
  | none => "None"
  | some s => "Some(" ++ s ++ ")"

/-- A truth value. -/
def truth (b : Bool) : String := if b then "true" else "false"

end Text

/-- The summary of a configuration. -/
def Config.summary (c : Config) : String :=
  Text.record "BridgeConfig"
    [("max_adapters", toString c.maxAdapters), ("coalesce_updates", Text.truth c.coalesceUpdates),
      ("drain_batch_size", toString c.drainBatchSize),
      ("toolkit_name", Text.optional (c.toolkitName.map Text.quoted)),
      ("toolkit_version", Text.optional (c.toolkitVersion.map Text.quoted)),
      ("root_name", Text.optional (c.rootName.map Text.quoted))] []

/-- The name of a phase. -/
def Phase.name : Phase → String
  | created => "Created"
  | active => "Active"

/-- The summary of an adapter. It shows the last focus and hover targets, live or not. -/
def Adapter.summary (a : Adapter) : String :=
  let node (o : Option NodeId) : String := Text.optional (o.map NodeId.toString)
  Text.record "Adapter"
    [("state", a.phase.name), ("nodes", toString a.tree.size), ("focus", node a.tree.focus),
      ("accessibility_focus", node a.cursor), ("hovered", node a.pointed)] [".."]

/-- The summary of a registry. -/
def Registry.summary (r : Registry) : String :=
  Text.record "AdapterRegistry"
    [("live", toString r.size), ("capacity", toString r.capacity)] []

/-- The summary of a bridge. -/
def Bridge.summary (b : Bridge) : String :=
  Text.record "AccessibilityBridge"
    [("registry", b.registry.summary), ("queued", toString b.mailbox.inbox.size),
      ("config", b.config.summary)] []

end AccessBridge
