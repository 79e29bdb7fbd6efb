import AccessBridge.Adapter.Query

/-!
# Performing actions

An action that applies to a node changes the adapter, goes to the application where the
application has a part in it, and is then reported to the host. An action that does not apply
does nothing.
-/

namespace AccessBridge.Adapter

/-- The kinds of focus that a node holds. -/
def heldFocus (a : Adapter) (id : NodeId) : HeldFocus where
  input := decide (a.tree.focus = some id)
  accessibility := decide (a.accessibilityFocus = some id)

/-- Carries out the bridge's part of an action on a node, and lists the events about it. -/
def carryOut (a : Adapter) (id : NodeId) : Effect → Adapter × List Event
  | .none => (a, [])
  | .takeInputFocus =>
    ({ a with tree := { a.tree with focus := some id } },
      if a.tree.focus = some id then [] else [.focused (a.tree.virtualIdOf id)])
  | .dropInputFocus => ({ a with tree := { a.tree with focus := none } }, [])
  | .takeAccessibilityFocus =>
    let cleared := match a.accessibilityFocus with
      | some previous =>
        if previous = id then []
        else [Event.accessibilityFocusCleared (a.tree.virtualIdOf previous)]
      | none => []
    ({ a with cursor := some id }, cleared ++ [.accessibilityFocused (a.tree.virtualIdOf id)])
  | .dropAccessibilityFocus =>
    ({ a with cursor := none }, [.accessibilityFocusCleared (a.tree.virtualIdOf id)])
  | .setValue text =>
    ({ a with tree := a.tree.mapNode id fun n => { n with value := some text } },
      [.textChanged (a.tree.virtualIdOf id) ((a.tree.node? id).bind (·.value)) (some text)])

/-- The call of the action handler that a demand on a node leads to. -/
def demandSignals (a : Adapter) (id : NodeId) (demand : Option Demand) : List Signal :=
  match demand, a.actionHandler with
  | some demand, some handler => [.requested handler ⟨demand, id⟩]
  | _, _ => []

/-- Carries out an action that applies to a node. -/
def carryOutAction (a : Adapter) (id : NodeId) (kind : ActionKind) (r : Resolution) :
    Adapter × List Signal :=
  let clicked := if kind = .click then [Event.clicked (a.tree.virtualIdOf id)] else []
  let (after, events) := a.carryOut id r.effect
  (after, a.demandSignals id r.demand ++ raise (events ++ clicked))

/-- What an action on a node comes down to, if the node is live and the action applies. -/
def resolve? (a : Adapter) (id : NodeId) (action : HostAction) : Option Resolution :=
  (a.tree.node? id).bind fun n => action.resolve n (a.heldFocus id)

/-- Performs an action on the node that the host means by a virtual id, and answers whether the
    action applied. -/
def perform (a : Adapter) (frame : HostFrame) (v : VirtualId) (action : HostAction) :
    Reply Adapter Bool :=
  let (a, observed) := a.observe frame
  match (a.tree.nodeIdOf? v).bind fun id => (a.resolve? id action).map (id, ·) with
  | none => ⟨false, a, observed⟩
  | some (id, r) =>
    let (a, signals) := a.carryOutAction id action.kind r
    ⟨true, a, observed ++ signals⟩

end AccessBridge.Adapter
