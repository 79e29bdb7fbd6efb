import AccessBridge.Proofs.Adapter.Issued

/-!
# What an action does

An action that applies changes the adapter, goes to the application and is reported to the host:
three decisions, each of which depends on the kind of action. The tables here say for each kind what
comes of it: the focus it moves (`ActionKind.focusAfter`, `ActionKind.cursorAfter`), the attributes
it changes (`HostAction.edited`), what the application is asked (`HostAction.demand?`) and what the
host is told (`Adapter.eventsOf`). An action does just that, and one that does not apply does
nothing: `Adapter.Reachable.performs_exactly`.
-/

namespace AccessBridge

/-- The node that holds input focus after an action on a node. -/
def ActionKind.focusAfter (id : NodeId) (focus : Option NodeId) : ActionKind → Option NodeId
  | .focus => some id
  | .clearFocus => none
  | _ => focus

/-- The node that holds accessibility focus after an action on a node. -/
def ActionKind.cursorAfter (id : NodeId) (cursor : Option NodeId) : ActionKind → Option NodeId
  | .accessibilityFocus => some id
  | .clearAccessibilityFocus => none
  | _ => cursor

/-- An action that scrolls is left to the application. -/
theorem Resolution.scroll_eq_some {n : Node} {direction step : Action} {r : Resolution}
    (h : scroll n direction step = some r) :
    r = .forward (if n.states.scrollable then direction else step) := by
  unfold scroll at h
  split at h
  · rename_i hs
    rw [if_pos hs, Option.some.inj h]
  · rename_i hs
    split at h
    · rw [if_neg hs, Option.some.inj h]
    · cases h

namespace HostAction

/-- The text that an action brings with it. -/
def text? (action : HostAction) : Option String := action.textArgument? setTextArgument

/-- The attributes of a node after an action on it. -/
def edited (action : HostAction) (n : Node) : Node :=
  match action.kind with
  | .setText => { n with value := action.text? }
  | _ => n

/-- What the application is asked to do by an action on a node. -/
def demand? (action : HostAction) (n : Node) : Option Demand :=
  match action.kind with
  | .focus => some { action := .focus }
  | .clearFocus => some { action := .blur }
  | .click => some { action := .click }
  | .accessibilityFocus | .clearAccessibilityFocus => none
  | .scrollForward => some { action := if n.states.scrollable then .scrollDown else .increment }
  | .scrollBackward => some { action := if n.states.scrollable then .scrollUp else .decrement }
  | .expand => some { action := .expand }
  | .collapse => some { action := .collapse }
  | .setText => some { action := .setValue, value := action.text? }

/-- The bridge's own part of an action. -/
def effect (action : HostAction) : Effect :=
  match action.kind with
  | .focus => .takeInputFocus
  | .clearFocus => .dropInputFocus
  | .accessibilityFocus => .takeAccessibilityFocus
  | .clearAccessibilityFocus => .dropAccessibilityFocus
  | .setText => .setValue (action.text?.getD "")
  | .click | .scrollForward | .scrollBackward | .expand | .collapse => .none

variable {action : HostAction} {n : Node} {held : HeldFocus} {r : Resolution}

/-- If an action applies, its kind decides what it comes down to. A new text applies only if it is
    given. -/
theorem resolve_eq_some (h : action.resolve n held = some r) :
    r = { effect := action.effect, demand := action.demand? n } ∧
    (action.kind = .setText → ∃ text, action.text? = some text) := by
  unfold resolve at h
  unfold effect demand?
  cases hk : action.kind <;> rw [hk] at h <;> dsimp only at h ⊢
  case scrollForward | scrollBackward =>
    exact ⟨Resolution.scroll_eq_some h, nofun⟩
  case setText =>
    split at h
    · obtain ⟨text, htext, rfl⟩ := Option.map_eq_some_iff.1 h
      have htext : action.text? = some text := htext
      rw [htext]
      exact ⟨rfl, fun _ => ⟨text, rfl⟩⟩
    · cases h
  all_goals
    split at h
    · cases h
      exact ⟨rfl, nofun⟩
    · cases h

/-- The application has a part in every action but those of accessibility focus. -/
theorem isSome_demand? : (action.demand? n).isSome = true ↔
    action.kind ≠ .accessibilityFocus ∧ action.kind ≠ .clearAccessibilityFocus := by
  unfold demand?
  cases action.kind <;> simp

end HostAction

namespace Adapter

variable {a b : Adapter} {id : NodeId} {n : Node} {action : HostAction} {r : Resolution}

/-- What the host is told of an action on a node. -/
def eventsOf (a : Adapter) (id : NodeId) (n : Node) (action : HostAction) : List Event :=
  let own := a.tree.virtualIdOf id
  match action.kind with
  | .focus => if a.tree.focus = some id then [] else [.focused own]
  | .click => [.clicked own]
  | .accessibilityFocus =>
    ((a.accessibilityFocus.filter (· ≠ id)).map fun x =>
      Event.accessibilityFocusCleared (a.tree.virtualIdOf x)).toList ++ [.accessibilityFocused own]
  | .clearAccessibilityFocus => [.accessibilityFocusCleared own]
  | .setText => [.textChanged own n.value action.text?]
  | .clearFocus | .scrollForward | .scrollBackward | .expand | .collapse => []

/-- What is left of an adapter by an action on a node: no node comes, goes or moves, and nothing
    changes but the focus that the action is about and the attributes of the node. -/
structure Performs (a : Adapter) (id : NodeId) (n : Node) (action : HostAction) (b : Adapter) :
    Prop where
  others : b = { a with tree := b.tree, cursor := action.kind.cursorAfter id a.cursor }
  root : b.tree.root = a.tree.root
  toolkit : b.tree.toolkit = a.tree.toolkit
  contains : ∀ x, b.tree.contains x = a.tree.contains x
  parent? : ∀ x, b.tree.parent? x = a.tree.parent? x
  children? : ∀ x, b.tree.children? x = a.tree.children? x
  node? : ∀ x, b.tree.node? x = if x = id then some (action.edited n) else a.tree.node? x
  focus : b.tree.focus = action.kind.focusAfter id a.tree.focus

/-- Accessibility focus moves to a live node, so it is no matter whether it is moved before or after
    what is not live is left out. -/
theorem filter_cursorAfter {kind : ActionKind} {p : NodeId → Bool} (live : p id = true)
    (cursor : Option NodeId) :
    (kind.cursorAfter id cursor).filter p = kind.cursorAfter id (cursor.filter p) := by
  cases kind with
  | accessibilityFocus => exact Option.filter_some_pos live
  | _ => rfl

theorem Performs.accessibilityFocus_eq (h : a.Performs id n action b)
    (live : a.tree.contains id = true) :
    b.accessibilityFocus = action.kind.cursorAfter id a.accessibilityFocus := by
  have hcursor : b.cursor = action.kind.cursorAfter id a.cursor := by rw [h.others]
  have hcontains : b.tree.contains = a.tree.contains := funext h.contains
  rw [accessibilityFocus, hcursor, hcontains, filter_cursorAfter live, accessibilityFocus]

/-- A new text changes the value of the node. -/
theorem performs_setValue {text : String} (hn : a.tree.node? id = some n)
    (hk : action.kind = .setText) (htext : action.text? = some text) :
    a.Performs id n action (a.carryOut id (.setValue text)).1 where
  others := by rw [hk]; rfl
  root := rfl
  toolkit := rfl
  contains x := Tree.contains_mapNode
  parent? x := Tree.parent?_mapNode _ _ _ x
  children? x := Tree.children?_mapNode _ _ _ x
  node? x := by
    have hedited : action.edited n = { n with value := some text } := by
      rw [HostAction.edited, hk, htext]
    rw [carryOut, Tree.node?_mapNode]
    by_cases hx : x = id
    · rw [if_pos hx, if_pos hx.symm, hx, hn, Option.map_some, hedited]
    · rw [if_neg hx, if_neg (Ne.symm hx)]
  focus := by rw [hk]; rfl

/-- Any other action leaves the entries of the tree as they are. -/
theorem performs_carryOut (hn : a.tree.node? id = some n) (hk : action.kind ≠ .setText) :
    a.Performs id n action (a.carryOut id action.effect).1 := by
  have hsame : ∀ x, a.tree.node? x = if x = id then some (action.edited n) else a.tree.node? x := by
    have hedited : action.edited n = n := by
      unfold HostAction.edited
      split
      · contradiction
      · rfl
    intro x
    rw [hedited]
    split
    · rename_i hx
      rw [hx, hn]
    · rfl
  unfold HostAction.effect
  cases hkind : action.kind with
  | setText => exact absurd hkind hk
  | _ =>
    refine ⟨?_, rfl, rfl, fun _ => rfl, fun _ => rfl, fun _ => rfl, hsame, ?_⟩
    · rw [hkind]
      rfl
    · rw [hkind]
      rfl

theorem events_carryOut (hn : a.tree.node? id = some n)
    (text : action.kind = .setText → ∃ text, action.text? = some text) :
    (a.carryOut id action.effect).2 ++ clickEvents a.tree id action.kind =
      a.eventsOf id n action := by
  unfold HostAction.effect eventsOf clickEvents
  cases hk : action.kind <;> dsimp only
  case accessibilityFocus =>
    rw [events_takeAccessibilityFocus]
    simp
  case setText =>
    obtain ⟨s, hs⟩ := text hk
    rw [hs]
    simp [carryOut, hn]
  all_goals simp [carryOut]

theorem demandSignals_eq (demand : Option Demand) : a.demandSignals id demand =
    (a.actionHandler.bind fun handler =>
      demand.map fun demand => Signal.requested handler ⟨demand, id⟩).toList := by
  unfold demandSignals
  cases a.actionHandler <;> cases demand <;> rfl

/-- An action that applies does what the tables say. -/
theorem carryOutAction_resolved (hn : a.tree.node? id = some n)
    (applies : action.resolve n (a.heldFocus id) = some r) :
    a.Performs id n action (a.carryOutAction id action.kind r).1 ∧
    (a.carryOutAction id action.kind r).2 =
      (a.actionHandler.bind fun handler =>
        (action.demand? n).map fun demand => Signal.requested handler ⟨demand, id⟩).toList ++
      raise (a.eventsOf id n action) := by
  obtain ⟨rfl, text⟩ := HostAction.resolve_eq_some applies
  constructor
  · by_cases hk : action.kind = .setText
    · obtain ⟨s, hs⟩ := text hk
      have heffect : action.effect = .setValue s := by
        rw [HostAction.effect, hk, hs]
        rfl
      change a.Performs id n action (a.carryOut id action.effect).1
      rw [heffect]
      exact performs_setValue hn hk hs
    · exact performs_carryOut hn hk
  · have hevents := events_carryOut hn text
    rw [← hevents, ← demandSignals_eq]
    rfl

/-- **An action does just what its kind says.** For every reachable adapter that has been asked,
    however the host has put the surface, for every number and every action:

    * An action that is not performed leaves the adapter as it is, up to the transform of which
      every question takes note. Nobody is asked and the host is told of nothing.
    * An action that is performed is one on a live node, the one that the host means by the number.
      No node comes, goes or moves. Focus and the attributes of nodes change as the tables of its
      kind say, and nothing else does.
    * If there is an action handler, it is asked once, on behalf of this node, for every kind but
      the two of accessibility focus, for which it is not asked. A new text goes to it as it was
      given. Then the host is told what the table of events says, in this order, about nodes by
      their own numbers. -/
theorem Reachable.performs_exactly (h : a.Reachable) (active : a.phase = .active)
    (frame : HostFrame) (v : VirtualId) (action : HostAction) :
    ((a.perform frame v action).answer = false →
      (a.perform frame v action).state = { a with transform := frame.transform } ∧
      (a.perform frame v action).signals = []) ∧
    ((a.perform frame v action).answer = true → ∃ id n,
      a.tree.nodeIdOf? v = some id ∧ a.tree.node? id = some n ∧
      a.Means (a.tree.virtualIdOf id) id ∧
      Performs { a with transform := frame.transform } id n action
        (a.perform frame v action).state ∧
      (a.perform frame v action).state.accessibilityFocus =
        action.kind.cursorAfter id a.accessibilityFocus ∧
      (action.kind = .setText → ∃ text, action.text? = some text) ∧
      ((action.demand? n).isSome = true ↔
        action.kind ≠ .accessibilityFocus ∧ action.kind ≠ .clearAccessibilityFocus) ∧
      (a.perform frame v action).signals =
        (a.actionHandler.bind fun handler =>
          (action.demand? n).map fun demand => Signal.requested handler ⟨demand, id⟩).toList ++
        raise (a.eventsOf id n action)) := by
  rw [perform, observe_of_active active]
  dsimp only
  cases hfound : (a.tree.nodeIdOf? v).bind fun id =>
      (Adapter.resolve? { a with transform := frame.transform } id action).map (id, ·) with
  | none => exact ⟨fun _ => ⟨rfl, rfl⟩, by simp⟩
  | some found =>
    refine ⟨by simp, fun _ => ?_⟩
    obtain ⟨id, hid, hfound⟩ := Option.bind_eq_some_iff.1 hfound
    obtain ⟨r, hr, rfl⟩ := Option.map_eq_some_iff.1 hfound
    obtain ⟨n, hn, applies⟩ := Option.bind_eq_some_iff.1 hr
    have live : a.tree.contains id = true := Tree.contains_iff_node?.2 ⟨n, hn⟩
    obtain ⟨hperforms, hsignals⟩ := carryOutAction_resolved hn applies
    obtain ⟨-, text⟩ := HostAction.resolve_eq_some applies
    exact ⟨id, n, hid, hn, means_virtualIdOf h.tree live, hperforms,
      hperforms.accessibilityFocus_eq live, text, HostAction.isSome_demand?, hsignals⟩

/-- A new text goes to the application, and the host hears of the old one and the new one. -/
theorem performs_exactly_text :
    let t := (Tree.ofRoot {}).step (.insert ⟨0⟩ ⟨1⟩ (.ofRole .textInput))
    let a := (ofTree t).after [.setActionHandler "app", .nodeInfo {} hostView]
    let reply := a.perform {} 1 (.setText "abc")
    a.Reachable ∧ a.phase = .active ∧ reply.answer = true ∧
      (∃ n, reply.state.tree.node? ⟨1⟩ = some n ∧ n.value = some "abc") ∧
      reply.signals = [.requested "app" ⟨{ action := .setValue, value := some "abc" }, ⟨1⟩⟩,
        .event (.textChanged 1 none (some "abc"))] := by
  intro t a reply
  have ha : a.Reachable := Reachable.after (.ofTree ((Tree.Reachable.ofRoot {}).step _))
  have active : a.phase = .active := by decide +kernel
  have performed : reply.answer = true := by decide +kernel
  have hmeant : a.tree.nodeIdOf? 1 = some ⟨1⟩ := by decide +kernel
  have hvalue : (a.tree.node? ⟨1⟩).bind (·.value) = none := by decide +kernel
  have hnumber : a.tree.virtualIdOf ⟨1⟩ = 1 := by decide +kernel
  have hhandler : a.actionHandler = some "app" := by decide +kernel
  have htext : (HostAction.setText "abc").text? = some "abc" :=
    HostAction.textArgument?_setText "abc"
  obtain ⟨-, hdone⟩ := Reachable.performs_exactly ha active {} 1 (.setText "abc")
  obtain ⟨id, n, hid, hn, -, hperforms, -, -, -, hsignals⟩ := hdone performed
  obtain rfl := Option.some.inj (hid.symm.trans hmeant)
  rw [hn, Option.bind_some] at hvalue
  refine ⟨ha, active, performed, ⟨_, (hperforms.node? ⟨1⟩).trans (if_pos rfl), htext⟩, ?_⟩
  have hevents : a.eventsOf ⟨1⟩ n (.setText "abc") = [.textChanged 1 none (some "abc")] := by
    rw [← hnumber, ← hvalue, ← htext]
    rfl
  have hdemand : (HostAction.setText "abc").demand? n =
      some { action := .setValue, value := some "abc" } := by
    rw [← htext]
    rfl
  rw [hsignals, hhandler, hdemand, hevents]
  rfl

end Adapter

end AccessBridge
