import AccessBridge.Proofs.Adapter.Records
import AccessBridge.Proofs.Adapter.Turns
import Mathlib.Data.List.Forall2

/-!
# The numbers that a host is given

A host gets numbers in answers and in events, and uses them in questions later on. Right after the
call that gives it a number, the number stands for a live node, and for the one that it was given
for (`Reachable.issued_numbers_mean`): an event is built from the ids that are live after its call.
-/

namespace AccessBridge.Adapter

/-- A number stands for a live node, and is the one that the node goes by: the host view's for the
    root, and otherwise that of the node's id. -/
structure Means (a : Adapter) (v : VirtualId) (id : NodeId) : Prop where
  live : a.tree.contains id = true
  decodes : a.tree.nodeIdOf? v = some id
  number : v = if id = a.tree.root then hostView else (id.val : Int)

/-- The numbers in a description stand for the node, its parent and its children. -/
structure Describes (a : Adapter) (info : NodeInfo) (id : NodeId) : Prop where
  own : a.Means info.virtualId id
  parent : Option.Rel a.Means info.parent (a.tree.parent? id)
  children : List.Forall₂ a.Means info.children ((a.tree.children? id).getD [])

/-- The node that the host means in a call. -/
def Call.meant? (a : Adapter) : Call → Option NodeId
  | .nodeInfo _ v | .perform _ v _ => a.tree.nodeIdOf? v
  | _ => none

/-- The node that an event is about which is raised by a call that makes `b` of `a`: the one that
    holds afterwards, or held when the call was answered, what the event tells of, and for a click
    or a new text the one that the host means. -/
def subject? (a b : Adapter) (c : Call) : Event → Option NodeId
  | .contentChanged _ => some b.tree.root
  | .focused _ => b.tree.focus
  | .clicked _ | .textChanged .. => c.meant? a.activate.1
  | .accessibilityFocused _ => b.accessibilityFocus
  | .accessibilityFocusCleared _ => a.activate.1.accessibilityFocus
  | .hoverEnter _ => b.hovered
  | .hoverExit _ => a.activate.1.hovered

variable {a b : Adapter} {c : Call} {e : Event} {es : List Event} {id : NodeId} {n : Node}

/-! ## Numbers of live nodes -/

theorem virtualIdOf_eq_number (ht : a.tree.Reachable) (live : a.tree.contains id = true) :
    a.tree.virtualIdOf id = if id = a.tree.root then hostView else (id.val : Int) := by
  rw [Tree.virtualIdOf, if_pos (ht.inRange live)]

theorem means_virtualIdOf (ht : a.tree.Reachable) (live : a.tree.contains id = true) :
    a.Means (a.tree.virtualIdOf id) id :=
  ⟨live, Tree.nodeIdOf?_virtualIdOf (ht.inRange live), virtualIdOf_eq_number ht live⟩

theorem Means.unique {v : VirtualId} {id' : NodeId} (h : a.Means v id) (h' : a.Means v id') :
    id = id' :=
  Option.some.inj (h.decodes.symm.trans h'.decodes)

theorem rel_map_virtualIdOf (ht : a.tree.Reachable) {o : Option NodeId}
    (live : ∀ x, o = some x → a.tree.contains x = true) :
    Option.Rel a.Means (o.map a.tree.virtualIdOf) o := by
  cases o with
  | none => exact .none
  | some x => exact .some (means_virtualIdOf ht (live x rfl))

/-! ## Answers -/

theorem describes_ofNode (ht : a.tree.Reachable) (hn : a.tree.node? id = some n)
    (frame : HostFrame) (cursor : Option NodeId) :
    a.Describes (.ofNode a.tree frame cursor id n) id := by
  obtain ⟨l, hl⟩ := ht.arranged
  have live : a.tree.contains id = true := Tree.contains_iff_node?.2 ⟨n, hn⟩
  refine ⟨means_virtualIdOf ht live, ?_, ?_⟩
  · change Option.Rel a.Means (if id = a.tree.root then none
      else (a.tree.parent? id).map a.tree.virtualIdOf) _
    by_cases hr : id = a.tree.root
    · rw [if_pos hr, hr, hl.parent?_root]
      exact .none
    · rw [if_neg hr]
      refine rel_map_virtualIdOf ht fun p hp => (hl.live p).1 ?_
      exact (hl.mem_of_isChild ((hl.parent p id).1 hp)).1
  · change List.Forall₂ a.Means ((a.tree.liveChildren id).map a.tree.virtualIdOf) _
    obtain ⟨cs, known⟩ := Tree.contains_iff_children?.1 live
    rw [liveChildren_eq hl known, known, Option.getD_some]
    refine List.forall₂_map_left_iff.2 (List.forall₂_same.2 fun x hx => means_virtualIdOf ht ?_)
    exact (hl.live x).1 (hl.mem_of_isChild ⟨cs, known, hx⟩).2

/-- A description is given just of a live node. -/
theorem rel_describe (ht : a.tree.Reachable) (frame : HostFrame) (o : Option NodeId) :
    Option.Rel a.Describes (o.bind (a.describe frame)) (o.filter a.tree.contains) := by
  cases o with
  | none => exact .none
  | some id =>
    rw [Option.bind_some, describe]
    cases hn : a.tree.node? id with
    | none =>
      have hdead : ¬ a.tree.contains id = true := fun hlive => by
        obtain ⟨n, hn'⟩ := Tree.contains_iff_node?.1 hlive
        cases hn.symm.trans hn'
      rw [Option.filter_some_neg (Bool.not_eq_true _ ▸ hdead)]
      exact .none
    | some n =>
      rw [Option.filter_some_pos (Tree.contains_iff_node?.2 ⟨n, hn⟩)]
      exact .some (describes_ofNode ht hn _ _)

theorem contains_of_focus (ht : a.tree.Reachable) (hf : a.tree.focus = some id) :
    a.tree.contains id = true := by
  obtain ⟨l, hl⟩ := ht.arranged
  exact (hl.live id).1 (hl.focus id hf)

theorem filter_focusHolder (ht : a.tree.Reachable) (kind : FocusKind) :
    (a.focusHolder kind).filter a.tree.contains = a.focusHolder kind := by
  cases hid : a.focusHolder kind with
  | none => rfl
  | some id =>
    refine Option.filter_some_pos ?_
    cases kind with
    | input => exact contains_of_focus ht hid
    | accessibility => exact (accessibilityFocus_eq_some.1 hid).2

/-! ## Events -/

theorem Turn.means (turn : a.Turn c b es) (hb : b.tree.Reachable) (he : e ∈ es) :
    ∃ id, subject? a b c e = some id ∧ b.Means e.virtualId id := by
  cases turn with
  | silent => cases he
  | @updated u tree summary active ok =>
    rcases mem_updateEvents he with rfl | ⟨id, hnew, rfl⟩
    · obtain ⟨l, hl⟩ := hb.arranged
      exact ⟨tree.root, rfl, means_virtualIdOf hb ((hl.live _).1 hl.root_mem)⟩
    · have hfocus : tree.focus = some id := (Tree.newFocus_of_update ok).symm.trans hnew
      exact ⟨id, hfocus, means_virtualIdOf hb (contains_of_focus hb hfocus)⟩
  | @performed frame v action id r meant live applies =>
    rcases List.mem_append.1 he with he | he
    · have announces := announces_of_mem_carryOut he
      have held := accessibilityFocus_of_drop applies
      generalize r.effect = effect at announces held hb
      cases announces with
      | focused => exact ⟨id, rfl, means_virtualIdOf hb live⟩
      | @lost x holder =>
        exact ⟨x, holder, means_virtualIdOf hb (accessibilityFocus_eq_some.1 holder).2⟩
      | taken => exact ⟨id, Option.filter_some_pos live, means_virtualIdOf hb live⟩
      | dropped => exact ⟨id, held rfl, means_virtualIdOf hb live⟩
      | textChanged => exact ⟨id, meant, means_virtualIdOf hb (Tree.contains_mapNode.trans live)⟩
    · obtain rfl := mem_clickEvents he
      refine ⟨id, meant, ?_⟩
      rw [Event.virtualId, Tree.virtualIdOf_congr root_carryOut.symm]
      exact means_virtualIdOf hb (contains_carryOut.trans live)
  | @pointed frame motion p target live =>
    rcases mem_hoverEvents he with ⟨x, hx, rfl⟩ | ⟨x, hx, rfl⟩
    · exact ⟨x, hx, means_virtualIdOf hb (hovered_eq_some.1 hx).2⟩
    · exact ⟨x, (hovered_pointAt live).trans hx, means_virtualIdOf hb (live x hx)⟩

/-- **Every number that a host is given stands for a live node**, the one that it was given for. For
    every reachable adapter and every call, right after the call:

    * The description that answers a question about a number is one of the live node meant by it,
      and the description of what holds focus is one of the holder: its numbers stand for the node,
      its parent and its children. The answer to a hit test stands for the node under the point.
    * The number that an event bears stands for the node that the event is about.
    * Live nodes go by numbers of their own, which are those of their ids or, for the root, the
      host view's. -/
theorem Reachable.issued_numbers_mean (h : a.Reachable) :
    (∀ frame v, let reply := a.nodeInfo frame v
      Option.Rel reply.state.Describes reply.answer
        ((reply.state.tree.nodeIdOf? v).filter reply.state.tree.contains)) ∧
    (∀ frame kind, let reply := a.findFocus frame kind
      Option.Rel reply.state.Describes reply.answer (reply.state.focusHolder kind)) ∧
    (∀ frame p, let reply := a.hitTest frame p
      Option.Rel reply.state.Means reply.answer (reply.state.nodeAt p)) ∧
    (∀ c e, Signal.event e ∈ (a.call c).2 →
      ∃ id, subject? a (a.call c).1 c e = some id ∧ (a.call c).1.Means e.virtualId id) ∧
    ∀ id, a.tree.contains id = true →
      a.tree.nodeIdOf? (a.tree.virtualIdOf id) = some id ∧
      a.tree.virtualIdOf id = (if id = a.tree.root then hostView else (id.val : Int)) ∧
      ∀ id', a.tree.contains id' = true → a.tree.virtualIdOf id' = a.tree.virtualIdOf id →
        id' = id := by
  have hobserve : ∀ frame, (a.observe frame).1.tree.Reachable := fun frame =>
    reachable_tree_observe h.tree frame
  refine ⟨fun frame v => ?_, fun frame kind => ?_, fun frame p => ?_, fun c e he => ?_,
    fun id live => ?_⟩
  · exact rel_describe (hobserve frame) frame _
  · have hrel := rel_describe (hobserve frame) frame ((a.observe frame).1.focusHolder kind)
    rw [filter_focusHolder (hobserve frame)] at hrel
    exact hrel
  · exact rel_map_virtualIdOf (hobserve frame) fun x hx => contains_of_nodeAt (hobserve frame) hx
  · exact (turn_call h.tree c).means (reachable_tree_call h.tree c) (mem_raised.2 he)
  · have hmeans := means_virtualIdOf h.tree live
    refine ⟨hmeans.decodes, hmeans.number, fun id' live' heq => ?_⟩
    exact Means.unique (heq ▸ means_virtualIdOf h.tree live') hmeans

/-- Accessibility focus moves from a node that has become the root to the one that was the root
    before, which now goes by its own number. -/
theorem issued_numbers_mean_rerooted :
    let t := (Tree.ofRoot {}).step (.insert ⟨0⟩ ⟨1⟩ {})
    let a := (ofTree t).after [.perform {} 1 { kind := .accessibilityFocus },
      .update
        { nodes := [(⟨1⟩, { role := "Window", children := [⟨0⟩] }), (⟨0⟩, { role := "Label" })]
          info := some { root := ⟨1⟩ }
          focus := ⟨1⟩ }]
    let c : Call := .perform {} 0 { kind := .accessibilityFocus }
    a.Reachable ∧
      raised (a.call c).2 = [.accessibilityFocusCleared (-1), .accessibilityFocused 0] ∧
      (a.call c).1.Means (-1) ⟨1⟩ ∧ (a.call c).1.Means 0 ⟨0⟩ := by
  intro t a c
  have ha : a.Reachable := Reachable.after (.ofTree ((Tree.Reachable.ofRoot {}).step _))
  have hraised : raised (a.call c).2 =
      [.accessibilityFocusCleared (-1), .accessibilityFocused 0] := by decide +kernel
  have holder : subject? a (a.call c).1 c (.accessibilityFocusCleared (-1)) = some ⟨1⟩ := by
    decide +kernel
  have taker : subject? a (a.call c).1 c (.accessibilityFocused 0) = some ⟨0⟩ := by decide +kernel
  obtain ⟨-, -, -, hevents, -⟩ := Reachable.issued_numbers_mean ha
  obtain ⟨x, hx, hmeans⟩ := hevents c (.accessibilityFocusCleared (-1))
    (mem_raised.1 (hraised ▸ List.mem_cons_self))
  obtain ⟨y, hy, hmeans'⟩ := hevents c (.accessibilityFocused 0)
    (mem_raised.1 (hraised ▸ List.mem_cons_of_mem _ List.mem_cons_self))
  obtain rfl := Option.some.inj (hx.symm.trans holder)
  obtain rfl := Option.some.inj (hy.symm.trans taker)
  exact ⟨ha, hraised, hmeans, hmeans'⟩

end AccessBridge.Adapter
