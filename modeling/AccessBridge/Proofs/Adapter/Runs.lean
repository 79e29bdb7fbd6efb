import AccessBridge.Adapter.Hover
import AccessBridge.Adapter.Perform
import AccessBridge.Proofs.Tree.Invariant

/-!
# Runs of an adapter

`Adapter.Call` is what the owner of a surface and its host may ask of an adapter, and
`Adapter.Reachable` is every adapter that a new one becomes by such calls, whether they succeed or
not. Whatever happens to the adapter, its tree changes by edits and updates only, so what holds of
every reachable tree holds of the tree of every reachable adapter (`Reachable.tree`).
-/

namespace AccessBridge.Adapter

/-- What the owner of a surface and its host may ask. -/
inductive Call where
  /-- The owner edits the tree itself. -/
  | edit (e : Tree.Edit)
  | setActivationHandler (handler : ActivationHandler)
  | setActionHandler (name : String)
  | update (u : TreeUpdate)
  | nodeInfo (frame : HostFrame) (v : VirtualId)
  | findFocus (frame : HostFrame) (kind : FocusKind)
  | hitTest (frame : HostFrame) (p : Point)
  | perform (frame : HostFrame) (v : VirtualId) (action : HostAction)
  | hover (frame : HostFrame) (motion : Option HoverMotion) (p : Point)

/-- What is left of a reply once it has been answered. -/
def answered {α : Type} (reply : Reply Adapter α) : Adapter × List Signal :=
  (reply.state, reply.signals)

/-- The adapter after a call, and the signals sent meanwhile. -/
def call (a : Adapter) : Call → Adapter × List Signal
  | .edit e => (a.editTree (a.tree.step e), [])
  | .setActivationHandler handler => (a.setActivationHandler handler, [])
  | .setActionHandler name => (a.setActionHandler name, [])
  | .update u => answered (a.updateIfActive u)
  | .nodeInfo frame v => answered (a.nodeInfo frame v)
  | .findFocus frame kind => answered (a.findFocus frame kind)
  | .hitTest frame p => answered (a.hitTest frame p)
  | .perform frame v action => answered (a.perform frame v action)
  | .hover frame motion p => answered (a.hover frame motion p)

/-- A new adapter around a tree. -/
def ofTree (tree : Tree) : Adapter := { tree }

/-- The adapters that a new one becomes. -/
inductive Reachable : Adapter → Prop where
  | ofTree {t : Tree} (h : t.Reachable) : Reachable (ofTree t)
  | call {a : Adapter} (h : Reachable a) (c : Call) : Reachable (a.call c).1

variable {a b : Adapter} {u : TreeUpdate} {events : List Event} {frame : HostFrame} {id : NodeId}

/-! ## Updates and activation -/

/-- The adapter with the tree of an accepted update. -/
def adopt (a : Adapter) (tree : Tree) : Adapter :=
  { a with
    tree
    cursor := a.cursor.filter tree.contains
    pointed := a.pointed.filter tree.contains }

theorem applyUpdate_of_ok {tree : Tree} {summary : UpdateSummary}
    (hu : a.tree.update u = .ok (tree, summary)) :
    a.applyUpdate u = ⟨.ok (updateEvents tree summary), a.adopt tree, []⟩ := by
  rw [applyUpdate, Tree.tryUpdate_of_ok hu]
  rfl

/-- A refused update leaves the adapter as it is. -/
theorem applyUpdate_of_error {err : TreeError} (hu : a.tree.update u = .error err) :
    a.applyUpdate u = ⟨.error err, a, []⟩ := by
  rw [applyUpdate, Tree.tryUpdate_of_error hu]

/-- An update that the adapter has no use for, or refuses, changes nothing. -/
theorem updateIfActive_cases (a : Adapter) (u : TreeUpdate) :
    (a.updateIfActive u).state = a ∨
    ∃ tree summary, a.phase = .active ∧ a.tree.update u = .ok (tree, summary) ∧
      (a.updateIfActive u).state = a.adopt tree := by
  unfold updateIfActive
  split
  · rename_i hactive
    cases hu : a.tree.update u with
    | error err =>
      rw [applyUpdate_of_error hu]
      exact .inl rfl
    | ok updated =>
      rw [applyUpdate_of_ok hu]
      exact .inr ⟨_, _, isActive_iff.1 hactive, rfl, rfl⟩
  · exact .inl rfl

/-- The adapter once it is active, with the activation handler that is left. -/
def activated (a : Adapter) (handler : Option ActivationHandler) : Adapter :=
  { a with phase := .active, activationHandler := handler }

/-- Activation leaves the tree as it is, or brings in the tree that the activation handler
    supplies. -/
theorem activate_cases (a : Adapter) :
    (∃ handler, a.activate.1 = a.activated handler) ∨
    ∃ u tree summary, a.phase = .created ∧ a.tree.update u = .ok (tree, summary) ∧
      a.activate.1 = (a.adopt tree).activated none := by
  unfold activate
  split
  · rename_i hp
    exact .inl ⟨a.activationHandler, by rw [activated, ← hp]⟩
  · rename_i hp
    split
    · rename_i hh
      exact .inl ⟨none, by rw [activated, hh]⟩
    · rename_i handler _
      unfold supply
      split
      · exact .inl ⟨none, rfl⟩
      · rename_i u _
        cases hu : a.tree.update u with
        | error err =>
          have happlied := applyUpdate_of_error (a := a.activated none) hu
          exact .inl ⟨none, congrArg Reply.state happlied⟩
        | ok updated =>
          have happlied := applyUpdate_of_ok (a := a.activated none) hu
          exact .inr ⟨u, _, _, hp, hu, congrArg Reply.state happlied⟩

/-- What every question begins with, in two steps. -/
theorem observe_eq (a : Adapter) (frame : HostFrame) :
    (a.observe frame).1 = { a.activate.1 with transform := frame.transform } := rfl

/-- A question to an active adapter only takes note of the transform. -/
theorem observe_of_active (hp : a.phase = .active) :
    a.observe frame = ({ a with transform := frame.transform }, []) := by
  have hactivate : a.activate = (a, []) := by rw [activate, hp]
  rw [observe, hactivate]

/-! ## Answers of an active adapter -/

/-- A node is described as it stands in the tree, in the host's frame of the moment. -/
theorem answer_nodeInfo (hp : a.phase = .active) (frame : HostFrame) (v : VirtualId) :
    (a.nodeInfo frame v).answer = (a.tree.nodeIdOf? v).bind fun id =>
      (a.tree.node? id).map (NodeInfo.ofNode a.tree frame a.accessibilityFocus id) := by
  rw [nodeInfo, observe_of_active hp]
  rfl

/-- An action is performed if the host means a node to which it applies. -/
theorem answer_perform (hp : a.phase = .active) (frame : HostFrame) (v : VirtualId)
    (action : HostAction) :
    (a.perform frame v action).answer =
      ((a.tree.nodeIdOf? v).bind (a.resolve? · action)).isSome := by
  rw [perform, observe_of_active hp]
  have hsame : ∀ id, Adapter.resolve? { a with transform := frame.transform } id action =
      a.resolve? id action := fun _ => rfl
  dsimp only
  cases a.tree.nodeIdOf? v with
  | none => rfl
  | some id =>
    rw [Option.bind_some, Option.bind_some, hsame]
    cases a.resolve? id action <;> rfl

/-! ## The tree of a reachable adapter -/

theorem reachable_of_update {t t' : Tree} {s : UpdateSummary} (h : t.Reachable)
    (hu : t.update u = .ok (t', s)) : t'.Reachable := by
  exact Tree.step_update_of_ok hu ▸ h.step _

theorem reachable_tree_observe (h : a.tree.Reachable) (frame : HostFrame) :
    (a.observe frame).1.tree.Reachable := by
  rw [observe_eq]
  rcases a.activate_cases with ⟨handler, hb⟩ | ⟨u, tree, summary, -, hu, hb⟩
  · rw [hb]
    exact h
  · rw [hb]
    exact reachable_of_update h hu

theorem reachable_tree_carryOut {effect : Effect} (h : a.tree.Reachable)
    (live : a.tree.contains id = true) : (a.carryOut id effect).1.tree.Reachable := by
  cases effect with
  | takeInputFocus =>
    have hstep : a.tree.step (.setFocus (some id)) = { a.tree with focus := some id } := by
      simp only [Tree.step, Tree.attempt, Tree.trySetFocus, live, if_true]
      rfl
    have hset := h.step (.setFocus (some id))
    rw [hstep] at hset
    exact hset
  | dropInputFocus => exact h.step .clearFocus
  | setValue text => exact h.step (.mapNode id fun n => { n with value := some text })
  | none | takeAccessibilityFocus | dropAccessibilityFocus => exact h

/-- What an action does to an adapter, after what every question does. -/
theorem perform_cases (a : Adapter) (frame : HostFrame) (v : VirtualId) (action : HostAction) :
    (a.perform frame v action).state = (a.observe frame).1 ∨
    ∃ (id : NodeId) (r : Resolution), (a.observe frame).1.tree.contains id = true ∧
      (a.perform frame v action).state = ((a.observe frame).1.carryOut id r.effect).1 := by
  unfold perform
  dsimp only
  split
  · exact .inl rfl
  · rename_i id r hr
    obtain ⟨id', -, hpair⟩ := Option.bind_eq_some_iff.1 hr
    obtain ⟨r', hres, heq⟩ := Option.map_eq_some_iff.1 hpair
    obtain ⟨rfl, rfl⟩ := Prod.mk.inj heq
    rw [resolve?] at hres
    obtain ⟨n, hn, -⟩ := Option.bind_eq_some_iff.1 hres
    exact .inr ⟨id', r', Tree.contains_iff_node?.2 ⟨n, hn⟩, rfl⟩

/-- What a hovering pointer does to an adapter, after what every question does. -/
theorem hover_cases (a : Adapter) (frame : HostFrame) (motion : Option HoverMotion) (p : Point) :
    (a.hover frame motion p).state = (a.observe frame).1 ∨
    (a.hover frame motion p).state = ((a.observe frame).1.pointAt none).1 ∨
    (a.hover frame motion p).state =
      ((a.observe frame).1.pointAt ((a.observe frame).1.nodeAt p)).1 := by
  unfold hover
  dsimp only
  split
  · exact .inl rfl
  · exact .inr (.inl rfl)
  · exact .inr (.inr rfl)

theorem reachable_tree_call (h : a.tree.Reachable) (c : Call) : (a.call c).1.tree.Reachable := by
  cases c with
  | edit e => exact h.step e
  | setActivationHandler handler =>
    have htree : (a.setActivationHandler handler).tree = a.tree := by
      unfold setActivationHandler
      split <;> rfl
    exact htree ▸ h
  | setActionHandler name => exact h
  | update u =>
    change (a.updateIfActive u).state.tree.Reachable
    rcases a.updateIfActive_cases u with hb | ⟨tree, summary, -, hu, hb⟩
    · rw [hb]
      exact h
    · rw [hb]
      exact reachable_of_update h hu
  | nodeInfo frame | findFocus frame | hitTest frame => exact reachable_tree_observe h frame
  | perform frame v action =>
    change (a.perform frame v action).state.tree.Reachable
    rcases a.perform_cases frame v action with hb | ⟨id, r, live, hb⟩
    · rw [hb]
      exact reachable_tree_observe h frame
    · rw [hb]
      exact reachable_tree_carryOut (reachable_tree_observe h frame) live
  | hover frame motion p =>
    change (a.hover frame motion p).state.tree.Reachable
    rcases a.hover_cases frame motion p with hb | hb | hb <;>
      · rw [hb]
        exact reachable_tree_observe h frame

/-- The tree of a reachable adapter is one that edits and updates lead to. -/
theorem Reachable.tree (h : a.Reachable) : a.tree.Reachable := by
  induction h with
  | ofTree h => exact h
  | call _ c ih => exact reachable_tree_call ih c

end AccessBridge.Adapter
