import AccessBridge.Adapter.Basic

/-!
# Questions about a surface

Describing a node, looking up the node that holds focus, and finding the node under a point. A
question about something that is not there has no answer; it is not an error.
-/

namespace AccessBridge.Adapter

/-- The description of a live node. -/
def describe (a : Adapter) (frame : HostFrame) (id : NodeId) : Option NodeInfo :=
  (a.tree.node? id).map
    (NodeInfo.ofNode a.tree { frame with transform := a.transform } a.accessibilityFocus id)

/-- The description of the node that the host means by a virtual id. -/
def nodeInfo (a : Adapter) (frame : HostFrame) (v : VirtualId) : Reply Adapter (Option NodeInfo) :=
  let (a, signals) := a.observe frame
  ⟨(a.tree.nodeIdOf? v).bind (a.describe frame), a, signals⟩

/-- The node that holds a kind of focus. -/
def focusHolder (a : Adapter) : FocusKind → Option NodeId
  | .input => a.tree.focus
  | .accessibility => a.accessibilityFocus

/-- The description of the node that holds a kind of focus. -/
def findFocus (a : Adapter) (frame : HostFrame) (kind : FocusKind) :
    Reply Adapter (Option NodeInfo) :=
  let (a, signals) := a.observe frame
  ⟨(a.focusHolder kind).bind (a.describe frame), a, signals⟩

/-- The node under a point of the surface. Under a transform that cannot be inverted there is
    none. -/
def nodeAt (a : Adapter) (p : Point) : Option NodeId :=
  if a.transform.isSingular then none else a.tree.hitTest (a.transform.inverse.apply p)

/-- The virtual id of the node under a point of the surface. -/
def hitTest (a : Adapter) (frame : HostFrame) (p : Point) : Reply Adapter (Option VirtualId) :=
  let (a, signals) := a.observe frame
  ⟨(a.nodeAt p).map a.tree.virtualIdOf, a, signals⟩

end AccessBridge.Adapter
