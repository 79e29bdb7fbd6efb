import AccessBridge.Host.Action
import AccessBridge.Host.VirtualId

/-!
# What a host sees of a node

A node is described to the host in the host's terms: virtual ids, widget class, coordinates of
the surface and of the screen, and the actions on offer. Descriptions are made on demand and
never stored.
-/

namespace AccessBridge

/-- Where the host has put the surface. -/
structure HostFrame where
  /-- The map from the tree's coordinates to the surface's. -/
  transform : Transform := .identity
  /-- The surface's origin on the screen. -/
  origin : Point := ⟨0, 0⟩
deriving Inhabited

/-- The yes-or-no attributes of a description. -/
structure NodeFlags where
  enabled : Bool
  visible : Bool
  focusable : Bool
  focused : Bool
  accessibilityFocused : Bool
  clickable : Bool
  checkable : Bool
  checked : Bool
  selected : Bool
  editable : Bool
  scrollable : Bool
deriving DecidableEq, Repr

/-- The description of a node. -/
structure NodeInfo where
  virtualId : VirtualId
  /-- The parent's virtual id; a root has none, since its parent is the host's business. -/
  parent : Option VirtualId
  widgetClass : String
  text : Option String
  description : Option String
  boundsInSurface : Option Rect
  boundsOnScreen : Option Rect
  children : List VirtualId
  flags : NodeFlags
  actions : List ActionKind

namespace ActionKind

/-- Whether a host is offered a kind of action on a node with the given flags. Focus of either
    sort is offered to a node that does not hold it, and its removal to the one that does. -/
def isOffered (n : Node) (f : NodeFlags) : ActionKind → Bool
  | focus => !f.focused && f.focusable && f.enabled && f.visible
  | clearFocus => f.focused
  | click => f.clickable && f.enabled
  | accessibilityFocus => !f.accessibilityFocused && f.visible
  | clearAccessibilityFocus => f.accessibilityFocused
  | scrollForward => f.scrollable || n.supports .increment
  | scrollBackward => f.scrollable || n.supports .decrement
  | expand => n.supports .expand
  | collapse => n.supports .collapse
  | setText => f.editable && f.enabled

/-- The kinds of action that a host is offered. -/
def offered (n : Node) (f : NodeFlags) : List ActionKind :=
  all.filter (isOffered n f)

theorem mem_offered {n : Node} {f : NodeFlags} {k : ActionKind} :
    k ∈ offered n f ↔ k.isOffered n f = true := by
  simp [offered, mem_all_kinds]

theorem nodup_offered {n : Node} {f : NodeFlags} : (offered n f).Nodup :=
  nodup_all.filter _

end ActionKind

namespace NodeFlags

/-- The flags of a node in its tree. -/
def ofNode (t : Tree) (accessibilityFocus : Option NodeId) (id : NodeId) (n : Node) : NodeFlags where
  enabled := n.isEnabled
  visible := n.isVisible
  focusable := n.isFocusable
  focused := decide (t.focus = some id)
  accessibilityFocused := decide (accessibilityFocus = some id)
  clickable := n.isClickable
  checkable := n.states.checked.isSome
  checked := n.states.checked.getD false
  selected := n.states.selected
  editable := n.states.editable
  scrollable := n.states.scrollable

end NodeFlags

namespace NodeInfo

/-- The description of a node of a tree, for a surface in a given frame. -/
def ofNode (t : Tree) (frame : HostFrame) (accessibilityFocus : Option NodeId) (id : NodeId)
    (n : Node) : NodeInfo :=
  let flags := NodeFlags.ofNode t accessibilityFocus id n
  let inSurface := n.bounds.map frame.transform.boundingBox
  { virtualId := t.virtualIdOf id
    parent := if id = t.root then none else (t.parent? id).map t.virtualIdOf
    widgetClass := n.role.widgetClass
    text := n.text
    description := n.description
    boundsInSurface := inSurface
    boundsOnScreen := inSurface.map (·.translate frame.origin)
    children := (t.liveChildren id).map t.virtualIdOf
    flags
    actions := ActionKind.offered n flags }

end NodeInfo

end AccessBridge
