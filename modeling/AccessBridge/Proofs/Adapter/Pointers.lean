import AccessBridge.Proofs.Adapter.Runs
import AccessBridge.Proofs.Tree.HitTest

/-!
# Accessibility focus and hover

An adapter remembers the node that took accessibility focus last and the node that the pointer came
over last by their ids alone. What it answers is the remembered id, as long as the id is live. So an
id that is remembered after its node was taken out of the tree passes for the node that is given the
id next (`not_forall_new_not_held`). Updates and questions forget such an id; only an edit of the
tree, of which the adapter is not told, leaves one behind (`Spared.settled`).
-/

namespace AccessBridge

variable {t : Tree} {id x : NodeId} {p : Point}

theorem Tree.contains_mapNode {f : Node → Node} :
    (t.mapNode id f).contains x = t.contains x := by
  rw [Bool.eq_iff_iff, contains_iff_node?, contains_iff_node?]
  simp only [node?_mapNode]
  split <;> simp

/-- What is hit is live. -/
theorem Tree.Reachable.contains_of_hitTest (h : t.Reachable) (hit : t.hitTest p = some x) :
    t.contains x = true := by
  obtain ⟨l, hl⟩ := h.arranged
  obtain ⟨A, B, hpre, -⟩ := (hl.frontmost?_eq_iff (some x)).1 hit
  rw [hl.preorder_eq] at hpre
  exact (hl.live x).1 (by simp [hpre])

namespace Adapter

variable {a : Adapter} {effect : Effect} {frame : HostFrame} {tree : Tree}

/-! ## Changes of liveness -/

/-- What may bring nodes into existence. -/
inductive Change where
  /-- The owner edits the tree itself. -/
  | edit (e : Tree.Edit)
  | update (u : TreeUpdate)
  /-- The first question of the host. -/
  | activate

/-- The adapter after a change. -/
def change (a : Adapter) : Change → Adapter
  | .edit e => a.editTree (a.tree.step e)
  | .update u => (a.updateIfActive u).state
  | .activate => a.activate.1

theorem accessibilityFocus_eq_some :
    a.accessibilityFocus = some id ↔ a.cursor = some id ∧ a.tree.contains id = true :=
  Option.filter_eq_some_iff

theorem hovered_eq_some : a.hovered = some id ↔ a.pointed = some id ∧ a.tree.contains id = true :=
  Option.filter_eq_some_iff

/-- A change touches what is remembered of live nodes at most to forget it. -/
theorem change_remembers (c : Change) (live : (a.change c).tree.contains id = true) :
    ((a.change c).cursor = some id ↔ a.cursor = some id) ∧
      ((a.change c).pointed = some id ↔ a.pointed = some id) := by
  have hadopt : ∀ tree : Tree, tree.contains id = true →
      ((a.adopt tree).cursor = some id ↔ a.cursor = some id) ∧
        ((a.adopt tree).pointed = some id ↔ a.pointed = some id) := fun tree hlive =>
    ⟨Option.filter_eq_some_iff.trans (and_iff_left hlive),
      Option.filter_eq_some_iff.trans (and_iff_left hlive)⟩
  cases c with
  | edit e => exact ⟨Iff.rfl, Iff.rfl⟩
  | update u =>
    change (a.updateIfActive u).state.tree.contains id = true at live
    change ((a.updateIfActive u).state.cursor = some id ↔ _) ∧
      ((a.updateIfActive u).state.pointed = some id ↔ _)
    rcases a.updateIfActive_cases u with hb | ⟨tree, -, -, -, hb⟩ <;> rw [hb] at live ⊢
    · exact ⟨Iff.rfl, Iff.rfl⟩
    · exact hadopt tree live
  | activate =>
    change a.activate.1.tree.contains id = true at live
    change (a.activate.1.cursor = some id ↔ _) ∧ (a.activate.1.pointed = some id ↔ _)
    rcases a.activate_cases with ⟨handler, hb⟩ | ⟨-, tree, -, -, -, hb⟩ <;> rw [hb] at live ⊢
    · exact ⟨Iff.rfl, Iff.rfl⟩
    · exact hadopt tree live

/-! ## Runs that leave nothing behind -/

/-- What is remembered is live. -/
def Settled (a : Adapter) : Prop :=
  ∀ id, a.cursor = some id ∨ a.pointed = some id → a.tree.contains id = true

theorem settled_adopt (a : Adapter) (tree : Tree) : (a.adopt tree).Settled := fun id hid => by
  rcases hid with hid | hid <;> exact (Option.filter_eq_some_iff.1 hid).2

theorem Settled.observe (h : a.Settled) (frame : HostFrame) : (a.observe frame).1.Settled := by
  rw [observe_eq]
  rcases a.activate_cases with ⟨handler, hb⟩ | ⟨-, tree, -, -, -, hb⟩ <;> rw [hb]
  · exact h
  · exact a.settled_adopt tree

theorem Settled.carryOut (h : a.Settled) (live : a.tree.contains id = true) :
    (a.carryOut id effect).1.Settled := by
  cases effect with
  | takeAccessibilityFocus =>
    intro x hx
    rcases hx with hx | hx
    · exact Option.some.inj hx ▸ live
    · exact h x (.inr hx)
  | dropAccessibilityFocus => exact fun x hx => h x (.inr (hx.resolve_left nofun))
  | setValue text => exact fun x hx => Tree.contains_mapNode.trans (h x hx)
  | none | takeInputFocus | dropInputFocus => exact h

theorem Settled.pointAt {target : Option NodeId} (h : a.Settled)
    (live : ∀ x, target = some x → a.tree.contains x = true) : (a.pointAt target).1.Settled :=
  fun x hx => hx.elim (fun hc => h x (.inl hc)) (live x)

theorem contains_of_nodeAt (h : a.tree.Reachable) (hit : a.nodeAt p = some x) :
    a.tree.contains x = true := by
  unfold nodeAt at hit
  split at hit
  · cases hit
  · exact h.contains_of_hitTest hit

/-- An edit spares the nodes that hold accessibility focus and hover if they are live after it. -/
def Spares (a : Adapter) : Call → Prop
  | .edit e => ∀ id, a.accessibilityFocus = some id ∨ a.hovered = some id →
      (a.tree.step e).contains id = true
  | _ => True

/-- The adapters that a new one becomes when every edit spares the nodes that hold accessibility
    focus and hover at the time. -/
inductive Spared : Adapter → Prop where
  | ofTree {t : Tree} (h : t.Reachable) : Spared (ofTree t)
  | call {a : Adapter} (h : Spared a) (c : Call) (spares : a.Spares c) : Spared (a.call c).1

theorem Spared.reachable (h : a.Spared) : a.Reachable := by
  induction h with
  | ofTree h => exact .ofTree h
  | call _ c _ ih => exact .call ih c

theorem Settled.call (h : a.Settled) (ht : a.tree.Reachable) (c : Call) (spares : a.Spares c) :
    (a.call c).1.Settled := by
  cases c with
  | edit e =>
    -- The tree changes below what is remembered, so it takes the condition on the edit.
    intro id hid
    refine spares id (hid.imp (fun hc => ?_) fun hp => ?_)
    · exact accessibilityFocus_eq_some.2 ⟨hc, h id (.inl hc)⟩
    · exact hovered_eq_some.2 ⟨hp, h id (.inr hp)⟩
  | setActivationHandler handler =>
    change (a.setActivationHandler handler).Settled
    unfold setActivationHandler
    split <;> exact h
  | setActionHandler name => exact h
  | update u =>
    change (a.updateIfActive u).state.Settled
    rcases a.updateIfActive_cases u with hb | ⟨tree, -, -, -, hb⟩ <;> rw [hb]
    · exact h
    · exact a.settled_adopt tree
  | nodeInfo frame | findFocus frame | hitTest frame => exact h.observe frame
  | perform frame v action =>
    change (a.perform frame v action).state.Settled
    rcases a.perform_cases frame v action with hb | ⟨id, r, live, hb⟩ <;> rw [hb]
    · exact h.observe frame
    · exact (h.observe frame).carryOut live
  | hover frame motion p =>
    change (a.hover frame motion p).state.Settled
    rcases a.hover_cases frame motion p with hb | hb | hb <;> rw [hb]
    · exact h.observe frame
    · exact (h.observe frame).pointAt nofun
    · exact (h.observe frame).pointAt fun x hx =>
        contains_of_nodeAt (reachable_tree_observe ht frame) hx

theorem Spared.settled (h : a.Spared) : a.Settled := by
  induction h with
  | ofTree => exact fun id hid => by rcases hid with hid | hid <;> cases hid
  | call h c spares ih => exact ih.call h.reachable.tree c spares

/-! ## What a new node holds -/

/-- **What a node holds that has just come into existence.** After an edit of the tree, an update or
    an activation, a live node holds accessibility focus, or hover, just in case its id was
    remembered for it before, no matter of which node. In a run whose edits spare the nodes that
    hold either, a node that comes into existence holds neither. -/
theorem held_after_change (a : Adapter) (c : Change)
    (live : (a.change c).tree.contains id = true) :
    ((a.change c).accessibilityFocus = some id ↔ a.cursor = some id) ∧
      ((a.change c).hovered = some id ↔ a.pointed = some id) ∧
      (a.Spared → ¬ a.tree.contains id = true →
        (a.change c).accessibilityFocus ≠ some id ∧ (a.change c).hovered ≠ some id) := by
  obtain ⟨hcursor, hpointed⟩ := change_remembers c live
  have hfocus : (a.change c).accessibilityFocus = some id ↔ a.cursor = some id := by
    rw [accessibilityFocus_eq_some, hcursor, and_iff_left live]
  have hhover : (a.change c).hovered = some id ↔ a.pointed = some id := by
    rw [hovered_eq_some, hpointed, and_iff_left live]
  refine ⟨hfocus, hhover, fun hspared new => ⟨fun hheld => new ?_, fun hheld => new ?_⟩⟩
  · exact hspared.settled id (.inl (hfocus.1 hheld))
  · exact hspared.settled id (.inr (hhover.1 hheld))

/-- A node inserted beside the one that holds accessibility focus does not hold it. -/
theorem held_after_change_beside :
    let t := (Tree.ofRoot {}).step (.insert ⟨0⟩ ⟨1⟩ {})
    let a := ((ofTree t).call (.perform {} 1 { kind := .accessibilityFocus })).1
    let c := Change.edit (.insert ⟨0⟩ ⟨2⟩ {})
    a.Spared ∧ a.accessibilityFocus = some ⟨1⟩ ∧ ¬ a.tree.contains ⟨2⟩ = true ∧
      (a.change c).tree.contains ⟨2⟩ = true ∧ (a.change c).accessibilityFocus ≠ some ⟨2⟩ := by
  intro t a c
  have ht : t.Reachable := (Tree.Reachable.ofRoot {}).step _
  have ha : a.Spared := .call (.ofTree ht) _ trivial
  have hholder : a.accessibilityFocus = some ⟨1⟩ := by decide +kernel
  have new : ¬ a.tree.contains ⟨2⟩ = true := by decide +kernel
  have live : (a.change c).tree.contains ⟨2⟩ = true := by decide +kernel
  obtain ⟨-, -, hspared⟩ := held_after_change a c live
  exact ⟨ha, hholder, new, live, (hspared ha new).1⟩

/-- A node takes accessibility focus and is removed; the node that is then inserted under its id
    holds accessibility focus at once. -/
theorem not_forall_new_not_held :
    ¬ ∀ (a : Adapter) (c : Change) (id : NodeId), a.Reachable → ¬ a.tree.contains id = true →
      (a.change c).tree.contains id = true →
      (a.change c).accessibilityFocus ≠ some id ∧ (a.change c).hovered ≠ some id := by
  intro hall
  let t := (Tree.ofRoot {}).step (.insert ⟨0⟩ ⟨1⟩ {})
  let a := (((ofTree t).call (.perform {} 1 { kind := .accessibilityFocus })).1.call
    (.edit (.remove ⟨1⟩))).1
  let c := Change.edit (.insert ⟨0⟩ ⟨1⟩ {})
  have ht : t.Reachable := (Tree.Reachable.ofRoot {}).step _
  have ha : a.Reachable := .call (.call (.ofTree ht) _) _
  have new : ¬ a.tree.contains ⟨1⟩ = true := by decide +kernel
  have live : (a.change c).tree.contains ⟨1⟩ = true := by decide +kernel
  have hheld : (a.change c).accessibilityFocus = some ⟨1⟩ := by decide +kernel
  exact (hall a c ⟨1⟩ ha new live).1 hheld

end Adapter

end AccessBridge
