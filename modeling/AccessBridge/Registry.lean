import AccessBridge.Adapter.Hover
import AccessBridge.Adapter.Perform
import AccessBridge.Config
import AccessBridge.SlotTable

/-!
# The registry of adapters

Hosts and applications address an adapter by a handle. An operation on a handle that does not
resolve, because its adapter was destroyed or never was, answers as if there was nothing to do and
reaches nobody.
-/

namespace AccessBridge

/-- The adapters of a bridge, and what new ones start with. -/
structure Registry where
  adapters : SlotTable Adapter := {}
  /-- How many adapters may live at a time. -/
  capacity : Nat
  rootName : Option String := none
  toolkit : Toolkit := {}

/-- The reason for which no adapter is created: as many as allowed are alive. -/
structure RegistryFull where
  capacity : Nat
deriving DecidableEq, Repr

/-- The wording of the refusal. -/
def RegistryFull.message (e : RegistryFull) : String :=
  s!"adapter registry is full ({e.capacity} live adapters)"

namespace Registry

/-- The registry that a configuration asks for. -/
def ofConfig (c : Config) : Registry where
  capacity := c.maxAdapters
  rootName := c.rootName
  toolkit := ⟨c.toolkitName, c.toolkitVersion⟩

/-- The adapter that a handle resolves to. -/
def get? (r : Registry) (h : Handle) : Option Adapter := r.adapters.get? h

/-- Whether a handle resolves. -/
def contains (r : Registry) (h : Handle) : Bool := r.adapters.contains h

/-- The number of adapters alive. -/
def size (r : Registry) : Nat := r.adapters.size

/-- Whether no adapter is alive. -/
def isEmpty (r : Registry) : Bool := r.adapters.isEmpty

/-- The handles that resolve, by slot. -/
def handles (r : Registry) : List Handle := r.adapters.handles

/-- An adapter as it is created: its tree holds only a window. -/
def newAdapter (r : Registry) : Adapter where
  tree := (Tree.ofRoot { Node.ofRole .window with name := r.rootName }).setToolkit r.toolkit

/-- Creates an adapter. -/
def create (r : Registry) : Except RegistryFull (Handle × Registry) :=
  if r.capacity ≤ r.size then .error ⟨r.capacity⟩
  else
    let (h, adapters) := r.adapters.insert r.newAdapter
    .ok (h, { r with adapters })

/-- Destroys an adapter, and answers whether there was one. -/
def destroy (r : Registry) (h : Handle) : Bool × Registry :=
  (r.contains h, { r with adapters := r.adapters.erase h })

/-- Runs an operation of the adapter behind a handle, or answers `fallback` if there is none. -/
def onAdapter {α : Type} (r : Registry) (h : Handle) (fallback : α)
    (op : Adapter → Reply Adapter α) : Reply Registry α :=
  match r.get? h with
  | none => ⟨fallback, r, []⟩
  | some a =>
    let reply := op a
    ⟨reply.answer, { r with adapters := r.adapters.modify h fun _ => reply.state }, reply.signals⟩

/-- Edits the adapter behind a handle, and answers whether there was one. -/
def editAdapter (r : Registry) (h : Handle) (f : Adapter → Adapter) : Reply Registry Bool :=
  r.onAdapter h false fun a => ⟨true, f a, []⟩

/-- Edits the tree of an adapter. -/
def editTree {α : Type} (r : Registry) (h : Handle) (f : Tree → α × Tree) :
    Reply Registry (Option α) :=
  r.onAdapter h none fun a =>
    let (answer, tree) := f a.tree
    ⟨some answer, a.editTree tree, []⟩

/-- Installs the handler that supplies an adapter's tree on activation. -/
def setActivationHandler (r : Registry) (h : Handle) (handler : ActivationHandler) :
    Reply Registry Bool :=
  r.editAdapter h (·.setActivationHandler handler)

/-- Installs the handler that receives the demands on the application. -/
def setActionHandler (r : Registry) (h : Handle) (name : String) : Reply Registry Bool :=
  r.editAdapter h (·.setActionHandler name)

/-- Describes a node of an adapter. -/
def nodeInfo (r : Registry) (h : Handle) (frame : HostFrame) (v : VirtualId) :
    Reply Registry (Option NodeInfo) :=
  r.onAdapter h none (·.nodeInfo frame v)

/-- Describes the node of an adapter that holds focus. -/
def findFocus (r : Registry) (h : Handle) (frame : HostFrame) (kind : FocusKind) :
    Reply Registry (Option NodeInfo) :=
  r.onAdapter h none (·.findFocus frame kind)

/-- Finds the node of an adapter under a point. -/
def hitTest (r : Registry) (h : Handle) (frame : HostFrame) (p : Point) :
    Reply Registry (Option VirtualId) :=
  r.onAdapter h none (·.hitTest frame p)

/-- Performs an action on a node of an adapter. -/
def perform (r : Registry) (h : Handle) (frame : HostFrame) (v : VirtualId) (action : HostAction) :
    Reply Registry Bool :=
  r.onAdapter h false (·.perform frame v action)

/-- Follows a hovering pointer over the surface of an adapter. -/
def hover (r : Registry) (h : Handle) (frame : HostFrame) (motion : Option HoverMotion)
    (p : Point) : Reply Registry Bool :=
  r.onAdapter h false (·.hover frame motion p)

/-- Updates the tree of an active adapter. -/
def updateIfActive (r : Registry) (h : Handle) (u : TreeUpdate) :
    Reply Registry (Except TreeError Bool) :=
  r.onAdapter h (.ok false) (·.updateIfActive u)

/-- A handle that does not resolve changes nothing and reaches nobody. -/
theorem onAdapter_of_get?_eq_none {α : Type} {r : Registry} {h : Handle} {fallback : α}
    {op : Adapter → Reply Adapter α} (hn : r.get? h = none) :
    r.onAdapter h fallback op = ⟨fallback, r, []⟩ := by
  simp [onAdapter, hn]

end Registry

end AccessBridge
