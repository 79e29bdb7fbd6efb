import AccessBridge.Node
import AccessBridge.NodeId

/-!
# Tree updates from the toolkit

A toolkit describes its interface by updates: a list of nodes with their child lists, the node
holding focus and, when it names a root, the identity of the toolkit. `ToolkitNode.toNode` reads
the attributes that the host can see off a toolkit's node.
-/

namespace AccessBridge

open Std (ExtTreeMap)

/-- The three positions of a toggle. -/
inductive Toggled where
  | off
  | on
  | mixed
deriving DecidableEq, Repr

/-- Whether a toggle counts as checked. -/
def Toggled.isChecked : Toggled → Bool
  | off => false
  | on | mixed => true

/-- A node as the toolkit sends it. The role is a name of the toolkit's vocabulary, and `actions`
    is read as a set. -/
structure ToolkitNode where
  role : String
  label : Option String := none
  value : Option String := none
  description : Option String := none
  bounds : Option Rect := none
  actions : List Action := []
  children : List NodeId := []
  toggled : Option Toggled := none
  selected : Option Bool := none
  hidden : Bool := false
  disabled : Bool := false
  readOnly : Bool := false
deriving Inhabited

namespace ToolkitNode

/-- Whether the toolkit's node supports an action. -/
def supports (n : ToolkitNode) (a : Action) : Bool :=
  n.actions.contains a

/-- The attributes by which the host knows the toolkit's node. -/
def toNode (n : ToolkitNode) : Node :=
  let role := Role.ofToolkitName n.role
  { role
    name := n.label
    value := n.value
    description := n.description
    bounds := n.bounds
    states :=
      { focusable := n.supports .focus
        hidden := n.hidden
        disabled := n.disabled
        clickable := n.supports .click
        checked := n.toggled.map Toggled.isChecked <|> Node.initialChecked role
        selected := n.selected.getD false
        editable := role.isTextInput && !n.readOnly
        scrollable := n.supports .scrollDown || n.supports .scrollUp }
    actions := Action.advertised.filter n.supports }

end ToolkitNode

/-- How a toolkit identifies itself. -/
structure Toolkit where
  name : Option String := none
  version : Option String := none
deriving DecidableEq, Repr, Inhabited

/-- The root that an update installs, and the toolkit behind it. -/
structure TreeInfo where
  root : NodeId
  toolkit : Toolkit := {}

/-- A description of a tree, or of a part of one that replaces the part with the same ids. An id
    may be described more than once; its last description counts. -/
structure TreeUpdate where
  nodes : List (NodeId × ToolkitNode)
  info : Option TreeInfo := none
  focus : NodeId

namespace TreeUpdate

/-- The ids that the update describes, in its order, repetitions included. -/
def ids (u : TreeUpdate) : List NodeId := u.nodes.map (·.1)

/-- The description that counts for each id: the last one. -/
def described (u : TreeUpdate) : ExtTreeMap NodeId ToolkitNode :=
  u.nodes.foldl (fun m p => m.insert p.1 p.2) ∅

end TreeUpdate

end AccessBridge
