import AccessBridge.Adapter.Query

/-!
# Following a hovering pointer

While a pointer hovers, the host hears of the node it leaves and of the node it comes over.
-/

namespace AccessBridge.Adapter

/-- The events of a pointer that was over one node and is over another. -/
def hoverEvents (t : Tree) (before after : Option NodeId) : List Event :=
  if before = after then []
  else (before.map fun id => Event.hoverExit (t.virtualIdOf id)).toList ++
    (after.map fun id => Event.hoverEnter (t.virtualIdOf id)).toList

/-- Follows the pointer to a node, or away from every node. -/
def pointAt (a : Adapter) (target : Option NodeId) : Adapter × List Event :=
  ({ a with pointed := target }, hoverEvents a.tree a.hovered target)

/-- Follows a hovering pointer and answers whether the host was told anything. A motion that is
    not known is ignored. -/
def hover (a : Adapter) (frame : HostFrame) (motion : Option HoverMotion) (p : Point) :
    Reply Adapter Bool :=
  let (a, observed) := a.observe frame
  let moved := match motion with
    | none => (a, [])
    | some .exit => a.pointAt none
    | some _ => a.pointAt (a.nodeAt p)
  ⟨!moved.2.isEmpty, moved.1, observed ++ raise moved.2⟩

end AccessBridge.Adapter
