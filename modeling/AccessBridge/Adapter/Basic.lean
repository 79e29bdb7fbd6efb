import AccessBridge.Host.NodeInfo
import AccessBridge.Signal
import AccessBridge.Tree.Update

/-!
# Adapters

An adapter serves one surface: it holds the surface's tree and what has to be remembered between
two questions of the host, namely the screen reader's focus, the node under the pointer and the
host's latest transform. The first question activates an adapter; its activation handler, if it
has one, may then supply the tree.
-/

namespace AccessBridge

/-- Whether the host has asked anything yet. -/
inductive Phase where
  | created
  | active
deriving DecidableEq, Repr

/-- A callback that supplies the tree on activation, or keeps the one that is there. -/
structure ActivationHandler where
  name : String
  initialTree : Option TreeUpdate

/-- The state of one surface. -/
structure Adapter where
  tree : Tree
  phase : Phase := .created
  activationHandler : Option ActivationHandler := none
  /-- The name of the callback that receives the demands on the application. -/
  actionHandler : Option String := none
  /-- The node that took accessibility focus last; it need not be live. -/
  cursor : Option NodeId := none
  /-- The node that the pointer hovered over last; it need not be live. -/
  pointed : Option NodeId := none
  transform : Transform := .identity

namespace Adapter

/-- Whether the host has asked anything yet. -/
def isActive (a : Adapter) : Bool := a.phase == .active

/-- The live node that holds accessibility focus. -/
def accessibilityFocus (a : Adapter) : Option NodeId := a.cursor.filter a.tree.contains

/-- The live node that the pointer hovers over. -/
def hovered (a : Adapter) : Option NodeId := a.pointed.filter a.tree.contains

/-- The adapter with an edited tree. -/
def editTree (a : Adapter) (tree : Tree) : Adapter := { a with tree }

/-- Installs an activation handler. On an active adapter it would never be called, and is
    ignored. -/
def setActivationHandler (a : Adapter) (handler : ActivationHandler) : Adapter :=
  if a.isActive then a else { a with activationHandler := some handler }

/-- Installs an action handler. -/
def setActionHandler (a : Adapter) (name : String) : Adapter :=
  { a with actionHandler := some name }

/-! ## Updates -/

/-- The events by which a host learns of an update: the content changed, and a node took focus if
    one holds it now that did not before. -/
def updateEvents (t : Tree) (s : UpdateSummary) : List Event :=
  .contentChanged (t.virtualIdOf t.root) ::
    match s.newFocus with
    | some id => if s.focusChanged then [.focused (t.virtualIdOf id)] else []
    | none => []

/-- Applies an update to the tree, and answers with the events about it. Focus and hover are
    forgotten with the nodes that held them. -/
def applyUpdate (a : Adapter) (u : TreeUpdate) : Reply Adapter (Except TreeError (List Event)) :=
  let ⟨answer, tree⟩ := a.tree.tryUpdate u
  match answer with
  | .error e => { answer := .error e, state := { a with tree } }
  | .ok summary =>
    { answer := .ok (updateEvents tree summary)
      state := { a with
        tree
        cursor := a.cursor.filter tree.contains
        pointed := a.pointed.filter tree.contains } }

/-- Applies an update to an active adapter and tells the host. The update is not even built for
    an adapter that nobody has asked. -/
def updateIfActive (a : Adapter) (u : TreeUpdate) : Reply Adapter (Except TreeError Bool) :=
  if a.isActive then
    let reply := a.applyUpdate u
    match reply.answer with
    | .error e => ⟨.error e, reply.state, [.updateBuilt]⟩
    | .ok events => ⟨.ok true, reply.state, .updateBuilt :: raise events⟩
  else ⟨.ok false, a, []⟩

/-! ## Activation -/

/-- The adapter after the update that an activation handler supplies, whether or not it is refused.
    Its tree stays if none is supplied. -/
def supply (a : Adapter) (update : Option TreeUpdate) : Adapter :=
  match update with
  | none => a
  | some u => (a.applyUpdate u).state

/-- Activates an adapter on its first question. The host is reading and hears of no event. -/
def activate (a : Adapter) : Adapter × List Signal :=
  match a.phase with
  | .active => (a, [])
  | .created =>
    match a.activationHandler with
    | none => ({ a with phase := .active }, [])
    | some handler =>
      (({ a with phase := .active, activationHandler := none } : Adapter).supply handler.initialTree,
        [.activated handler.name])

/-- What every question begins with: the adapter is activated and takes note of the host's
    transform. -/
def observe (a : Adapter) (frame : HostFrame) : Adapter × List Signal :=
  let (a, signals) := a.activate
  ({ a with transform := frame.transform }, signals)

@[simp] theorem isActive_iff {a : Adapter} : a.isActive = true ↔ a.phase = .active := by
  simp [isActive]

theorem phase_applyUpdate {a : Adapter} {u : TreeUpdate} :
    (a.applyUpdate u).state.phase = a.phase := by
  unfold applyUpdate
  dsimp only
  split <;> rfl

theorem phase_supply {a : Adapter} {update : Option TreeUpdate} :
    (a.supply update).phase = a.phase := by
  unfold supply
  split
  · rfl
  · exact phase_applyUpdate

theorem phase_observe {a : Adapter} {frame : HostFrame} :
    (a.observe frame).1.phase = .active := by
  have h : a.activate.1.phase = .active := by
    unfold activate
    split
    · assumption
    · split
      · rfl
      · exact phase_supply
  exact h

end Adapter

end AccessBridge
