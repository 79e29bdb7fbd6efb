import AccessBridge.Host.Action
import AccessBridge.Node

/-!
# Resolving an action

Whether an action applies to a node is decided by the node's attributes and the focus it holds.
An action that applies comes down to a change that the bridge makes itself, a request to the
application, or both.
-/

namespace AccessBridge

/-- A change that the bridge makes itself. -/
inductive Effect where
  | none
  | takeInputFocus
  | dropInputFocus
  | takeAccessibilityFocus
  | dropAccessibilityFocus
  | setValue (text : String)
deriving DecidableEq, Repr

/-- What the application is asked to do: an action, with a new value where the action takes one. -/
structure Demand where
  action : Action
  value : Option String := none
deriving DecidableEq, Repr

/-- What an action comes down to. -/
structure Resolution where
  effect : Effect := .none
  demand : Option Demand := none
deriving DecidableEq, Repr

/-- Which kinds of focus a node holds. -/
structure HeldFocus where
  input : Bool := false
  accessibility : Bool := false

namespace Resolution

/-- The resolution that leaves everything to the application. -/
def forward (action : Action) : Resolution := { demand := some { action } }

/-- Scrolling goes to the scrollable node itself, and steps the value of any other node that can
    be stepped. -/
def scroll (n : Node) (direction step : Action) : Option Resolution :=
  if n.states.scrollable then some (forward direction)
  else if n.supports step then some (forward step)
  else none

end Resolution

/-- What the action comes down to on a node, or nothing if it does not apply. -/
def HostAction.resolve (a : HostAction) (n : Node) (held : HeldFocus) : Option Resolution :=
  match a.kind with
  | .focus =>
    if n.isFocusable && n.isEnabled && n.isVisible then
      some { effect := .takeInputFocus, demand := some { action := .focus } }
    else none
  | .clearFocus =>
    if held.input then some { effect := .dropInputFocus, demand := some { action := .blur } }
    else none
  | .click => if n.isClickable && n.isEnabled then some (.forward .click) else none
  | .accessibilityFocus => if n.isVisible then some { effect := .takeAccessibilityFocus } else none
  | .clearAccessibilityFocus =>
    if held.accessibility then some { effect := .dropAccessibilityFocus } else none
  | .scrollForward => Resolution.scroll n .scrollDown .increment
  | .scrollBackward => Resolution.scroll n .scrollUp .decrement
  | .expand => if n.supports .expand then some (.forward .expand) else none
  | .collapse => if n.supports .collapse then some (.forward .collapse) else none
  | .setText =>
    if n.states.editable && n.isEnabled then
      (a.textArgument? setTextArgument).map fun text =>
        { effect := .setValue text, demand := some { action := .setValue, value := some text } }
    else none

end AccessBridge
