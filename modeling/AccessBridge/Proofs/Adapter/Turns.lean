import AccessBridge.Proofs.Adapter.Pointers

/-!
# Turns of a run

A run is a list of calls: `after` is what they leave of an adapter, `sent` the signals that they
send, and `told` the events that they raise, each beside the tree as it is when the host hears of
it. `Turn` says what one call can do and what the host is told of it; of every call on an adapter
with a reachable tree it tells the truth (`turn_call`).
-/

namespace AccessBridge

/-- The event that a signal brings to the host. -/
def Signal.event? : Signal → Option Event
  | .event e => some e
  | _ => none

/-- The events among signals, in order. -/
def raised (signals : List Signal) : List Event := signals.filterMap Signal.event?

@[simp] theorem raised_append {s s' : List Signal} : raised (s ++ s') = raised s ++ raised s' :=
  List.filterMap_append

@[simp] theorem raised_raise {es : List Event} : raised (raise es) = es := by
  rw [raised, raise, List.filterMap_map]
  exact List.filterMap_some

theorem mem_raised {e : Event} {s : List Signal} : e ∈ raised s ↔ Signal.event e ∈ s := by
  rw [raised, List.mem_filterMap]
  constructor
  · rintro ⟨signal, hmem, he⟩
    cases signal <;> cases he
    exact hmem
  · intro hmem
    exact ⟨_, hmem, rfl⟩

/-- Accessibility focus is dropped only by a node that holds it. -/
theorem HostAction.held_of_drop {action : HostAction} {n : Node} {held : HeldFocus} {r : Resolution}
    (h : action.resolve n held = some r) (drop : r.effect = .dropAccessibilityFocus) :
    held.accessibility = true := by
  have hforward : ∀ (p : Bool) (act : Action),
      (if p then some (Resolution.forward act) else none) ≠ some r := by
    intro p act hr
    cases p
    · cases hr
    · obtain rfl := Option.some.inj hr
      cases drop
  unfold resolve at h
  cases hk : action.kind <;> rw [hk] at h <;> dsimp only at h
  case clearAccessibilityFocus =>
    split at h
    · assumption
    · cases h
  case scrollForward | scrollBackward =>
    unfold Resolution.scroll at h
    split at h
    · exact absurd h (hforward true _)
    · exact absurd h (hforward _ _)
  case setText =>
    split at h
    · obtain ⟨text, -, rfl⟩ := Option.map_eq_some_iff.1 h
      cases drop
    · cases h
  case click | expand | collapse => exact absurd h (hforward _ _)
  case focus | clearFocus | accessibilityFocus =>
    split at h
    · obtain rfl := Option.some.inj h
      cases drop
    · cases h

namespace Tree

variable {t : Tree} {e : Edit}

/-- The tree after an update, if there is one. A refused update leaves the tree as it is. -/
def given (t : Tree) : Option TreeUpdate → Tree
  | none => t
  | some u => t.step (.update u)

theorem virtualIdOf_congr {id : NodeId} {t' : Tree} (h : t.root = t'.root) :
    t.virtualIdOf id = t'.virtualIdOf id := by
  rw [virtualIdOf, virtualIdOf, h]

theorem root_setFocus {focus : Option NodeId} {t' : Tree} (hok : t.setFocus focus = .ok t') :
    t'.root = t.root := by
  unfold setFocus trySetFocus at hok
  split at hok
  · rw [← Except.ok.inj hok]
  · split at hok
    · rw [← Except.ok.inj hok]
    · cases hok

/-- Only updates change the root. -/
theorem root_step (other : ∀ u, e ≠ .update u) : (t.step e).root = t.root := by
  cases hok : t.apply e with
  | error err => rw [step_of_error hok]
  | ok t' =>
    rw [step_of_ok hok]
    cases e with
    | insert parent id node | insertAt parent index id node =>
      obtain ⟨-, -, e, -, -, hroot, -⟩ := insertAt_eq_ok hok
      exact hroot
    | remove id =>
      obtain ⟨⟨removed, t'⟩, hok, rfl⟩ := Except.map_eq_ok hok
      obtain ⟨-, -, -, -, hroot, -⟩ := remove_eq_ok hok
      exact hroot
    | move id newParent index =>
      obtain ⟨-, -, -, -, -, hroot, -⟩ := move_eq_ok hok
      exact hroot
    | raise id =>
      obtain ⟨q, -, hok⟩ := raise_eq_ok hok
      obtain ⟨-, -, -, -, -, hroot, -⟩ := move_eq_ok hok
      exact hroot
    | setFocus focus => exact root_setFocus hok
    | clearFocus => exact root_setFocus (show t.setFocus none = .ok t' from hok)
    | setToolkit toolkit | mapNode id f =>
      obtain rfl := Except.ok.inj hok
      rfl
    | update u => exact absurd rfl (other u)

end Tree

namespace Adapter

variable {a b : Adapter} {c : Call} {cs cs' : List Call} {frame : HostFrame} {id : NodeId}
  {t : Tree} {e : Event} {effect : Effect}

/-! ## Runs -/

/-- The adapter after calls. -/
def after (a : Adapter) : List Call → Adapter
  | [] => a
  | c :: cs => after (a.call c).1 cs

/-- The signals that calls send, in order. -/
def sent (a : Adapter) : List Call → List Signal
  | [] => []
  | c :: cs => (a.call c).2 ++ sent (a.call c).1 cs

/-- The events that calls raise, in order, each with the tree as its call leaves it. -/
def told (a : Adapter) : List Call → List (Event × Tree)
  | [] => []
  | c :: cs => (raised (a.call c).2).map (·, (a.call c).1.tree) ++ told (a.call c).1 cs

theorem sent_append : a.sent (cs ++ cs') = a.sent cs ++ (a.after cs).sent cs' := by
  induction cs generalizing a with
  | nil => rfl
  | cons c cs ih => rw [List.cons_append, sent, sent, ih, List.append_assoc, after]

/-- What the host is told is what is raised. -/
theorem map_fst_told : (a.told cs).map (·.1) = raised (a.sent cs) := by
  induction cs generalizing a with
  | nil => rfl
  | cons c cs ih =>
    rw [told, sent, List.map_append, raised_append, ih, List.map_map]
    exact congrArg (· ++ _) (List.map_id _)

theorem Reachable.after (h : a.Reachable) : (a.after cs).Reachable := by
  induction cs generalizing a with
  | nil => exact h
  | cons c cs ih => exact ih (h.call c)

/-! ## Actions and motions -/

theorem root_carryOut {effect : Effect} : (a.carryOut id effect).1.tree.root = a.tree.root := by
  cases effect <;> rfl

/-- Carrying out an action leaves every node alive. -/
theorem contains_carryOut {effect : Effect} {x : NodeId} :
    (a.carryOut id effect).1.tree.contains x = a.tree.contains x := by
  cases effect with
  | setValue text => exact Tree.contains_mapNode
  | _ => rfl

theorem accessibilityFocus_of_drop {action : HostAction} {r : Resolution}
    (applies : a.resolve? id action = some r) (drop : r.effect = .dropAccessibilityFocus) :
    a.accessibilityFocus = some id := by
  obtain ⟨n, -, hresolve⟩ := Option.bind_eq_some_iff.1 applies
  exact of_decide_eq_true (HostAction.held_of_drop hresolve drop)

theorem hovered_pointAt {target : Option NodeId}
    (live : ∀ x, target = some x → a.tree.contains x = true) :
    (a.pointAt target).1.hovered = target := by
  cases target with
  | none => rfl
  | some x => exact Option.filter_some_pos (live x rfl)

/-! ## Updates on the way in -/

/-- Whether the host asks something. -/
def Call.isQuestion : Call → Bool
  | .edit _ | .setActivationHandler _ | .setActionHandler _ | .update _ => false
  | .nodeInfo .. | .findFocus .. | .hitTest .. | .perform .. | .hover .. => true

/-- The update that activation asks for and gets. -/
def supplied? (a : Adapter) : Option TreeUpdate :=
  match a.phase with
  | .active => none
  | .created => a.activationHandler.bind (·.initialTree)

/-- The update that a call tries on the tree. -/
def Call.update? (a : Adapter) : Call → Option TreeUpdate
  | .edit (.update u) => some u
  | .edit _ | .setActivationHandler _ | .setActionHandler _ => none
  | .update u => if a.isActive then some u else none
  | .nodeInfo .. | .findFocus .. | .hitTest .. | .perform .. | .hover .. => a.supplied?

theorem tree_applyUpdate {u : TreeUpdate} :
    (a.applyUpdate u).state.tree = a.tree.step (.update u) := by
  unfold applyUpdate
  dsimp only
  split <;> rfl

theorem tree_supply {update : Option TreeUpdate} :
    (a.supply update).tree = a.tree.given update := by
  cases update with
  | none => rfl
  | some u => exact tree_applyUpdate

theorem tree_updateIfActive {u : TreeUpdate} :
    (a.updateIfActive u).state.tree = a.tree.given (if a.isActive then some u else none) := by
  unfold updateIfActive
  split
  · dsimp only
    split <;> exact tree_applyUpdate
  · rfl

/-- Activation tries the supplied update on the tree. -/
theorem tree_activate : a.activate.1.tree = a.tree.given a.supplied? := by
  unfold activate supplied?
  cases a.phase with
  | active => rfl
  | created =>
    cases a.activationHandler with
    | none => rfl
    | some handler =>
      exact tree_supply

theorem tree_observe (a : Adapter) (frame : HostFrame) :
    (a.observe frame).1.tree = a.tree.given a.supplied? := tree_activate

theorem tree_hover {motion : Option HoverMotion} {p : Point} :
    (a.hover frame motion p).state.tree = (a.observe frame).1.tree := by
  rcases a.hover_cases frame motion p with hb | hb | hb <;> rw [hb] <;> rfl

/-- The root after a call is the root after the update that the call tries. -/
theorem root_call : (a.call c).1.tree.root = (a.tree.given (c.update? a)).root := by
  cases c with
  | edit e =>
    cases e with
    | update u => rfl
    | _ => exact Tree.root_step nofun
  | setActivationHandler handler =>
    change (a.setActivationHandler handler).tree.root = a.tree.root
    unfold setActivationHandler
    split <;> rfl
  | setActionHandler name => rfl
  | update u => exact congrArg Tree.root tree_updateIfActive
  | nodeInfo frame | findFocus frame | hitTest frame =>
    exact congrArg Tree.root (a.tree_observe frame)
  | perform frame v action =>
    change (a.perform frame v action).state.tree.root = (a.tree.given a.supplied?).root
    rw [← a.tree_observe frame]
    rcases a.perform_cases frame v action with hb | ⟨id, r, -, hb⟩ <;> rw [hb]
    exact root_carryOut
  | hover frame motion p =>
    change (a.hover frame motion p).state.tree.root = (a.tree.given a.supplied?).root
    rw [tree_hover, tree_observe]

/-! ## What calls leave alone -/

/-- `b` remembers of focus and hover nothing that `a` does not remember. -/
structure Forgets (a b : Adapter) : Prop where
  cursor : ∀ id, b.cursor = some id → a.cursor = some id
  pointed : ∀ id, b.pointed = some id → a.pointed = some id

theorem Forgets.refl (a : Adapter) : a.Forgets a := ⟨fun _ h => h, fun _ h => h⟩

theorem forgets_adopt (a : Adapter) (tree : Tree) : a.Forgets (a.adopt tree) where
  cursor _ h := (Option.filter_eq_some_iff.1 h).1
  pointed _ h := (Option.filter_eq_some_iff.1 h).1

theorem forgets_observe (a : Adapter) (frame : HostFrame) : a.Forgets (a.observe frame).1 := by
  rw [observe_eq]
  rcases a.activate_cases with ⟨handler, hb⟩ | ⟨-, tree, -, -, -, hb⟩ <;> rw [hb]
  · exact ⟨fun _ h => h, fun _ h => h⟩
  · exact ⟨(a.forgets_adopt tree).cursor, (a.forgets_adopt tree).pointed⟩

/-- The host hears of no event while an adapter is activated. -/
theorem raised_observe : raised (a.observe frame).2 = [] := by
  have hactivate : raised a.activate.2 = [] := by
    unfold activate
    split
    · rfl
    · split <;> rfl
  exact hactivate

theorem raised_demandSignals {demand : Option Demand} :
    raised (a.demandSignals id demand) = [] := by
  unfold demandSignals
  split <;> rfl

/-! ## What the host hears -/

/-- The event that tells of a click on a node. -/
def clickEvents (t : Tree) (id : NodeId) (kind : ActionKind) : List Event :=
  if kind = .click then [.clicked (t.virtualIdOf id)] else []

theorem mem_updateEvents {s : UpdateSummary} (h : e ∈ updateEvents t s) :
    e = .contentChanged (t.virtualIdOf t.root) ∨
      ∃ id, s.newFocus = some id ∧ e = .focused (t.virtualIdOf id) := by
  unfold updateEvents at h
  rcases List.mem_cons.1 h with rfl | h
  · exact .inl rfl
  · split at h
    · rename_i id hid
      split at h
      · exact .inr ⟨id, hid, List.mem_singleton.1 h⟩
      · cases h
    · cases h

theorem mem_clickEvents {kind : ActionKind} (h : e ∈ clickEvents t id kind) :
    e = .clicked (t.virtualIdOf id) := by
  unfold clickEvents at h
  split at h
  · exact List.mem_singleton.1 h
  · cases h

theorem mem_hoverEvents {before after : Option NodeId} (h : e ∈ hoverEvents t before after) :
    (∃ id, before = some id ∧ e = .hoverExit (t.virtualIdOf id)) ∨
      ∃ id, after = some id ∧ e = .hoverEnter (t.virtualIdOf id) := by
  unfold hoverEvents at h
  split at h
  · cases h
  · rcases List.mem_append.1 h with h | h <;>
      obtain ⟨id, hid, he⟩ := Option.map_eq_some_iff.1 (Option.mem_toList.1 h)
    · exact .inl ⟨id, hid, he.symm⟩
    · exact .inr ⟨id, hid, he.symm⟩

/-- The event by which a node loses accessibility focus to another. -/
theorem events_takeAccessibilityFocus :
    (a.carryOut id .takeAccessibilityFocus).2 =
      ((a.accessibilityFocus.filter (· ≠ id)).map fun x =>
        Event.accessibilityFocusCleared (a.tree.virtualIdOf x)).toList ++
      [.accessibilityFocused (a.tree.virtualIdOf id)] := by
  rw [carryOut]
  dsimp only
  cases a.accessibilityFocus with
  | none => rfl
  | some x =>
    dsimp only
    by_cases hx : x = id
    · rw [if_pos hx, Option.filter_some_neg (by simpa using hx)]
      rfl
    · rw [if_neg hx, Option.filter_some_pos (by simpa using hx)]
      rfl

/-- The events by which the host learns of an action that is carried out. -/
inductive Announces (a : Adapter) (id : NodeId) : Effect → Event → Prop where
  | focused : Announces a id .takeInputFocus (.focused (a.tree.virtualIdOf id))
  | lost {x : NodeId} (holder : a.accessibilityFocus = some x) :
      Announces a id .takeAccessibilityFocus (.accessibilityFocusCleared (a.tree.virtualIdOf x))
  | taken : Announces a id .takeAccessibilityFocus (.accessibilityFocused (a.tree.virtualIdOf id))
  | dropped :
      Announces a id .dropAccessibilityFocus (.accessibilityFocusCleared (a.tree.virtualIdOf id))
  | textChanged {text : String} {before after : Option String} :
      Announces a id (.setValue text) (.textChanged (a.tree.virtualIdOf id) before after)

theorem announces_of_mem_carryOut (h : e ∈ (a.carryOut id effect).2) : a.Announces id effect e := by
  cases effect with
  | none | dropInputFocus => cases h
  | takeInputFocus =>
    rw [carryOut] at h
    dsimp only at h
    split at h
    · cases h
    · obtain rfl := List.mem_singleton.1 h
      exact .focused
  | takeAccessibilityFocus =>
    rw [events_takeAccessibilityFocus] at h
    rcases List.mem_append.1 h with h | h
    · obtain ⟨x, hx, rfl⟩ := Option.map_eq_some_iff.1 (Option.mem_toList.1 h)
      exact .lost (Option.filter_eq_some_iff.1 hx).1
    · obtain rfl := List.mem_singleton.1 h
      exact .taken
  | dropAccessibilityFocus =>
    obtain rfl := List.mem_singleton.1 h
    exact .dropped
  | setValue text =>
    obtain rfl := List.mem_singleton.1 h
    exact .textChanged

/-! ## One turn -/

/-- What a call makes of an adapter and the events that it raises. -/
inductive Turn (a : Adapter) : Call → Adapter → List Event → Prop where
  /-- The host hears of nothing. -/
  | silent {c : Call} {b : Adapter} (forgets : a.Forgets b) : Turn a c b []
  | updated {u : TreeUpdate} {tree : Tree} {summary : UpdateSummary} (active : a.phase = .active)
      (ok : a.tree.update u = .ok (tree, summary)) :
      Turn a (.update u) (a.adopt tree) (updateEvents tree summary)
  /-- The host means a live node, and its action applies to it. -/
  | performed {frame : HostFrame} {v : VirtualId} {action : HostAction} {id : NodeId}
      {r : Resolution} (meant : (a.observe frame).1.tree.nodeIdOf? v = some id)
      (live : (a.observe frame).1.tree.contains id = true)
      (applies : (a.observe frame).1.resolve? id action = some r) :
      Turn a (.perform frame v action) ((a.observe frame).1.carryOut id r.effect).1
        (((a.observe frame).1.carryOut id r.effect).2 ++
          clickEvents (a.observe frame).1.tree id action.kind)
  | pointed {frame : HostFrame} {motion : Option HoverMotion} {p : Point} {target : Option NodeId}
      (live : ∀ x, target = some x → (a.observe frame).1.tree.contains x = true) :
      Turn a (.hover frame motion p) ((a.observe frame).1.pointAt target).1
        ((a.observe frame).1.pointAt target).2

theorem turn_perform (frame : HostFrame) (v : VirtualId) (action : HostAction) :
    a.Turn (.perform frame v action) (a.perform frame v action).state
      (raised (a.perform frame v action).signals) := by
  unfold perform
  dsimp only
  split
  · rw [raised_observe]
    exact .silent (a.forgets_observe frame)
  · rename_i id r hr
    obtain ⟨id', meant, hpair⟩ := Option.bind_eq_some_iff.1 hr
    obtain ⟨r', applies, heq⟩ := Option.map_eq_some_iff.1 hpair
    obtain ⟨rfl, rfl⟩ := Prod.mk.inj heq
    obtain ⟨n, hn, -⟩ := Option.bind_eq_some_iff.1 applies
    have live := Tree.contains_iff_node?.2 ⟨n, hn⟩
    rw [carryOutAction]
    dsimp only
    rw [raised_append, raised_observe, raised_append, raised_demandSignals, raised_raise]
    exact .performed meant live applies

theorem turn_hover (ht : a.tree.Reachable) (frame : HostFrame) (motion : Option HoverMotion)
    (p : Point) :
    a.Turn (.hover frame motion p) (a.hover frame motion p).state
      (raised (a.hover frame motion p).signals) := by
  have hb := reachable_tree_observe ht frame
  unfold hover
  dsimp only
  rw [raised_append, raised_observe, raised_raise, List.nil_append]
  split
  · exact .silent (a.forgets_observe frame)
  · exact .pointed nofun
  · exact .pointed fun x hx => contains_of_nodeAt hb hx

theorem turn_update (u : TreeUpdate) :
    a.Turn (.update u) (a.updateIfActive u).state (raised (a.updateIfActive u).signals) := by
  unfold updateIfActive
  split
  · rename_i active
    cases hu : a.tree.update u with
    | error err =>
      rw [applyUpdate_of_error hu]
      exact .silent (.refl a)
    | ok updated =>
      obtain ⟨tree, summary⟩ := updated
      rw [applyUpdate_of_ok hu]
      have hraised : raised (.updateBuilt :: raise (updateEvents tree summary)) =
          updateEvents tree summary := raised_raise
      dsimp only
      rw [hraised]
      exact .updated (isActive_iff.1 active) hu
  · exact .silent (.refl a)

/-- Every call is a turn. -/
theorem turn_call (ht : a.tree.Reachable) (c : Call) :
    a.Turn c (a.call c).1 (raised (a.call c).2) := by
  cases c with
  | edit e => exact .silent ⟨fun _ h => h, fun _ h => h⟩
  | setActivationHandler handler =>
    refine .silent ?_
    change a.Forgets (a.setActivationHandler handler)
    unfold setActivationHandler
    split <;> exact ⟨fun _ h => h, fun _ h => h⟩
  | setActionHandler name => exact .silent ⟨fun _ h => h, fun _ h => h⟩
  | update u => exact turn_update u
  | nodeInfo frame | findFocus frame | hitTest frame =>
    change a.Turn _ (a.observe frame).1 (raised (a.observe frame).2)
    rw [raised_observe]
    exact .silent (a.forgets_observe frame)
  | perform frame v action => exact turn_perform frame v action
  | hover frame motion p => exact turn_hover ht frame motion p

end Adapter

end AccessBridge
