import AccessBridge.Action
import AccessBridge.Geometry
import AccessBridge.Role

/-!
# Node attributes

The plain record that a tree keeps for each node: what the node is, says and can do. Where the
node stands in the tree, and whether it holds focus, is the tree's business.
-/

namespace AccessBridge

/-- The state flags of a node. `checked` is absent on a node that has no checked state. -/
structure NodeStates where
  focusable : Bool := false
  hidden : Bool := false
  disabled : Bool := false
  clickable : Bool := false
  checked : Option Bool := none
  selected : Bool := false
  editable : Bool := false
  scrollable : Bool := false
deriving DecidableEq, Repr, Inhabited

/-- The attributes of a node. -/
structure Node where
  role : Role := .unknown
  name : Option String := none
  value : Option String := none
  description : Option String := none
  bounds : Option Rect := none
  states : NodeStates := {}
  actions : List Action := []
deriving Inhabited

namespace Node

/-- A checkable role starts unchecked, any other role without a checked state. -/
def initialChecked (role : Role) : Option Bool :=
  if role.isCheckable then some false else none

/-- A node with the defaults of its role and no other attributes. -/
def ofRole (role : Role) : Node where
  role := role
  states := { checked := initialChecked role, editable := role.isTextInput }

/-- Whether the node advertises an action. -/
def supports (n : Node) (a : Action) : Bool :=
  n.actions.contains a

/-- Advertises an action; one that is advertised already keeps its place. -/
def addAction (n : Node) (a : Action) : Node :=
  if n.supports a then n else { n with actions := n.actions ++ [a] }

/-- Whether the user can see the node. -/
def isVisible (n : Node) : Bool := !n.states.hidden

/-- Whether the node is not disabled. -/
def isEnabled (n : Node) : Bool := !n.states.disabled

/-- Whether the user can do anything with the node. -/
def isInteractive (n : Node) : Bool := !n.states.hidden && !n.states.disabled

/-- Whether the node takes a click: by its flag, by advertising one, or by its role. -/
def isClickable (n : Node) : Bool :=
  n.states.clickable || n.supports .click || n.role.isClickable

/-- Whether the node takes input focus. -/
def isFocusable (n : Node) : Bool := n.states.focusable

/-- The text shown for the node: its value, or else its name. -/
def text (n : Node) : Option String := n.value <|> n.name

end Node

end AccessBridge
