import AccessBridge.Proofs.Adapter.Turns

/-!
# Events in pairs

Two kinds of events open something for a node and close it again: a pointer comes over the node and
leaves it, the node takes accessibility focus and loses it. A `Bracket` is such a pair of kinds
together with the id that the adapter remembers in between. A run never closes what the latest event
of the pair did not open for the same node, and it remembers an id only while that event is its
opening (`Bracket.Paired.run`). The host knows nodes by their numbers; a node has another number
while it is the root, so the two numbers of a pair agree unless the root has changed to or from the
node (`cursor_events_pair`), and always do in a run that keeps the root (`hover_events_pair`).
-/

namespace AccessBridge

namespace Event

/-- Whether a hovering pointer comes or leaves. -/
def isHover : Event → Bool
  | hoverEnter _ | hoverExit _ => true
  | _ => false

/-- Whether accessibility focus is taken or lost. -/
def isCursor : Event → Bool
  | accessibilityFocused _ | accessibilityFocusCleared _ => true
  | _ => false

theorem hoverExit_ne_hoverEnter (v w : VirtualId) : hoverExit v ≠ hoverEnter w := nofun

theorem accessibilityFocusCleared_ne_accessibilityFocused (v w : VirtualId) :
    accessibilityFocusCleared v ≠ accessibilityFocused w := nofun

end Event

namespace Tree

variable {t t' : Tree} {id : NodeId}

/-- A node has the same number in two trees just if it is the root of both or of neither. -/
theorem virtualIdOf_eq_iff (h : id.InRange) :
    t.virtualIdOf id = t'.virtualIdOf id ↔ (id = t.root ↔ id = t'.root) := by
  have hneg : (id.val : Int) ≠ hostView := by
    simp only [hostView]
    omega
  rw [virtualIdOf, virtualIdOf, if_pos h]
  by_cases hr : id = t.root <;> by_cases hr' : id = t'.root
  · rw [if_pos hr, if_pos hr']
    exact iff_of_true rfl (iff_of_true hr hr')
  · rw [if_pos hr, if_neg hr']
    exact iff_of_false hneg.symm fun hiff => hr' (hiff.1 hr)
  · rw [if_neg hr, if_pos hr']
    exact iff_of_false hneg fun hiff => hr (hiff.2 hr')
  · rw [if_neg hr, if_neg hr']
    exact iff_of_true rfl (iff_of_false hr hr')

end Tree

/-! ## Brackets -/

/-- A pair of kinds of events, and what an adapter remembers from the first to the second. -/
structure Bracket where
  /-- Whether an event is of one of the kinds. -/
  sort : Event → Bool
  opening : VirtualId → Event
  closing : VirtualId → Event
  holder : Adapter → Option NodeId
  sort_opening : ∀ v, sort (opening v) = true
  sort_closing : ∀ v, sort (closing v) = true
  closing_inj : ∀ v w, closing v = closing w → v = w
  closing_ne_opening : ∀ v w, closing v ≠ opening w

namespace Bracket

/-- A pointer over a node. -/
def hover : Bracket where
  sort := Event.isHover
  opening := .hoverEnter
  closing := .hoverExit
  holder := Adapter.pointed
  sort_opening _ := rfl
  sort_closing _ := rfl
  closing_inj _ _ := Event.hoverExit.inj
  closing_ne_opening := Event.hoverExit_ne_hoverEnter

/-- Accessibility focus on a node. -/
def cursor : Bracket where
  sort := Event.isCursor
  opening := .accessibilityFocused
  closing := .accessibilityFocusCleared
  holder := Adapter.cursor
  sort_opening _ := rfl
  sort_closing _ := rfl
  closing_inj _ _ := Event.accessibilityFocusCleared.inj
  closing_ne_opening := Event.accessibilityFocusCleared_ne_accessibilityFocused

variable {k : Bracket} {told : List (Event × Tree)} {a b : Adapter} {es : List Event}
  {closed opened : Option NodeId} {id : NodeId}

/-- The latest event of the bracket, with the tree at the time. -/
def latest? (k : Bracket) (told : List (Event × Tree)) : Option (Event × Tree) :=
  (told.filter (k.sort ·.1)).getLast?

/-- The latest event of the bracket is the opening for the node, which was live at the time and went
    by the number that the event bears. -/
def OpenFor (k : Bracket) (told : List (Event × Tree)) (id : NodeId) : Prop :=
  ∃ tree : Tree, k.latest? told = some (k.opening (tree.virtualIdOf id), tree) ∧
    tree.Reachable ∧ tree.contains id = true

/-- The events of the bracket are paired, and the adapter remembers what is open. -/
structure Paired (k : Bracket) (told : List (Event × Tree)) (a : Adapter) : Prop where
  closing : ∀ before v tree later, told = before ++ (k.closing v, tree) :: later →
    ∃ id, k.OpenFor before id ∧ tree.contains id = true ∧ v = tree.virtualIdOf id
  holder : ∀ id, k.holder a = some id → k.OpenFor told id

/-- The events of a bracket that one call raises: it may close what was open, and may then open
    something for another node. What it remembers afterwards it has opened, or has left open. -/
structure Span (k : Bracket) (a b : Adapter) (es : List Event) (closed opened : Option NodeId) :
    Prop where
  events : es.filter k.sort =
    (closed.map fun id => k.closing (b.tree.virtualIdOf id)).toList ++
      (opened.map fun id => k.opening (b.tree.virtualIdOf id)).toList
  wasHeld : ∀ id, closed = some id → k.holder a = some id
  liveStill : ∀ id, closed = some id → b.tree.contains id = true
  live : ∀ id, opened = some id → b.tree.contains id = true
  holds : ∀ id, k.holder b = some id →
    opened = some id ∨ closed = none ∧ opened = none ∧ k.holder a = some id

/-! ## What a turn does to a bracket -/

theorem latest?_append (tree : Tree) : k.latest? (told ++ es.map (·, tree)) =
    ((es.filter k.sort).getLast?.map (·, tree)).or (k.latest? told) := by
  have hfilter : (es.map (·, tree)).filter (k.sort ·.1) = (es.filter k.sort).map (·, tree) :=
    List.filter_map
  rw [latest?, List.filter_append, hfilter, List.getLast?_append, List.getLast?_map, latest?]

/-- A call may raise no event of the bracket, and open nothing. -/
theorem Span.quiet (other : ∀ e ∈ es, k.sort e = false)
    (kept : ∀ id, k.holder b = some id → k.holder a = some id) : k.Span a b es none none where
  events := List.filter_eq_nil_iff.2 fun e he => Bool.not_eq_true _ ▸ other e he
  wasHeld := nofun
  liveStill := nofun
  live := nofun
  holds id hid := .inr ⟨rfl, rfl, kept id hid⟩

/-- What is not remembered at the start of a call may be forgotten before it. -/
theorem Span.mono {a' : Adapter} (span : k.Span a' b es closed opened)
    (kept : ∀ id, k.holder a' = some id → k.holder a = some id) :
    k.Span a b es closed opened where
  events := span.events
  wasHeld id hid := kept id (span.wasHeld id hid)
  liveStill := span.liveStill
  live := span.live
  holds id hid := (span.holds id hid).imp_right fun ⟨hc, ho, held⟩ => ⟨hc, ho, kept id held⟩

theorem Span.append {es' : List Event} (span : k.Span a b es closed opened)
    (other : ∀ e ∈ es', k.sort e = false) : k.Span a b (es ++ es') closed opened where
  events := by
    have hother : es'.filter k.sort = [] :=
      List.filter_eq_nil_iff.2 fun e he => Bool.not_eq_true _ ▸ other e he
    rw [List.filter_append, hother, List.append_nil, span.events]
  wasHeld := span.wasHeld
  liveStill := span.liveStill
  live := span.live
  holds := span.holds

/-- If a call closes something, its closing is the first event of the bracket that it raises. -/
theorem Span.closed_of_mem {v : VirtualId} {es' es'' : List Event}
    (span : k.Span a b (es' ++ k.closing v :: es'') closed opened) :
    es'.filter k.sort = [] ∧ ∃ id, closed = some id ∧ v = b.tree.virtualIdOf id := by
  have hevents := span.events
  rw [List.filter_append, List.filter_cons_of_pos (k.sort_closing v)] at hevents
  have hother : k.closing v ∉ (opened.map fun id => k.opening (b.tree.virtualIdOf id)).toList := by
    intro hmem
    obtain ⟨y, -, hy⟩ := Option.map_eq_some_iff.1 (Option.mem_toList.1 hmem)
    exact k.closing_ne_opening _ _ hy.symm
  cases closed with
  | none =>
    rw [Option.map_none, Option.toList_none, List.nil_append] at hevents
    rw [← hevents] at hother
    simp at hother
  | some x =>
    rw [Option.map_some, Option.toList_some, List.singleton_append] at hevents
    rcases List.append_eq_cons_iff.1 hevents with ⟨hnil, hcons⟩ | ⟨zs, -, hrest⟩
    · have hv := (List.cons.inj hcons).1
      exact ⟨hnil, x, rfl, k.closing_inj _ _ hv⟩
    · rw [hrest] at hother
      simp at hother

/-- A turn closes for a node only what is open for the node. -/
theorem Paired.openFor_of_closing {mid later : List (Event × Tree)} {v : VirtualId} {tree : Tree}
    (h : k.Paired told a) (span : k.Span a b es closed opened)
    (heq : es.map (·, b.tree) = mid ++ (k.closing v, tree) :: later) :
    ∃ id, k.OpenFor (told ++ mid) id ∧ tree.contains id = true ∧ v = tree.virtualIdOf id := by
  obtain ⟨es', es₁, rfl, rfl, hes₁⟩ := List.map_eq_append_iff.1 heq
  obtain ⟨e, es'', rfl, he, rfl⟩ := List.map_eq_cons_iff.1 hes₁
  obtain ⟨rfl, rfl⟩ := Prod.mk.inj he
  obtain ⟨hnil, id, rfl, hv⟩ := span.closed_of_mem
  obtain ⟨tree, hlatest, hopen⟩ := h.holder id (span.wasHeld id rfl)
  refine ⟨id, ⟨tree, ?_, hopen⟩, span.liveStill id rfl, hv⟩
  rw [latest?_append, hnil]
  exact hlatest

/-- A turn keeps the events of a bracket paired. -/
theorem Paired.span (h : k.Paired told a) (span : k.Span a b es closed opened)
    (hb : b.tree.Reachable) :
    k.Paired (told ++ es.map (·, b.tree)) b where
  closing before v tree later heq := by
    rcases List.append_eq_append_iff.1 heq with ⟨mid, rfl, hmid⟩ | ⟨mid, rfl, hmid⟩
    · exact h.openFor_of_closing span hmid
    · cases mid with
      | nil =>
        have hcall : es.map (·, b.tree) = [] ++ (k.closing v, tree) :: later := hmid.symm
        simpa using h.openFor_of_closing span hcall
      | cons p mid =>
        obtain ⟨rfl, -⟩ := List.cons.inj hmid
        exact h.closing before v tree mid rfl
  holder id hid := by
    rcases span.holds id hid with rfl | ⟨rfl, rfl, hold⟩
    · refine ⟨b.tree, ?_, hb, span.live id rfl⟩
      rw [latest?_append, span.events]
      simp
    · obtain ⟨tree, hlatest, hopen⟩ := h.holder id hold
      refine ⟨tree, ?_, hopen⟩
      rw [latest?_append, span.events]
      exact hlatest

/-- What every turn does to a bracket, a run does. -/
theorem Paired.run (turns : ∀ (a b : Adapter) c es, a.Turn c b es →
      ∃ closed opened, k.Span a b es closed opened) (ht : a.tree.Reachable)
    (h : k.Paired told a) (cs : List Adapter.Call) :
    k.Paired (told ++ a.told cs) (a.after cs) := by
  induction cs generalizing a told with
  | nil =>
    rw [Adapter.told, List.append_nil]
    exact h
  | cons c cs ih =>
    obtain ⟨closed, opened, span⟩ := turns a _ c _ (Adapter.turn_call ht c)
    rw [Adapter.told, ← List.append_assoc]
    have hb := Adapter.reachable_tree_call ht c
    exact ih hb (h.span span hb)

/-- Nothing is open at the start. -/
theorem paired_nil (start : k.holder a = none) : k.Paired [] a where
  closing before v tree later heq := by cases before <;> cases heq
  holder id hid := by cases start.symm.trans hid

/-! ## Runs that keep the root -/

section

variable {t : Tree} (keeps : ∀ e tree, (e, tree) ∈ told → tree.root = t.root)

include keeps

/-- While the root stays, the opening bears the number that the node still has. -/
theorem OpenFor.latest_event (h : k.OpenFor told id) :
    ((told.map (·.1)).filter k.sort).getLast? = some (k.opening (t.virtualIdOf id)) := by
  obtain ⟨tree, hlatest, -, -⟩ := h
  have hroot := keeps _ _ (List.mem_filter.1 (List.mem_of_getLast? hlatest)).1
  rw [List.filter_map, List.getLast?_map, Tree.virtualIdOf_congr hroot.symm]
  exact congrArg (Option.map _) hlatest

/-- While the root stays, a closing bears the number that its opening bore. -/
theorem Paired.latest_event {before later : List Event} {v : VirtualId} (h : k.Paired told a)
    (heq : told.map (·.1) = before ++ k.closing v :: later) :
    (before.filter k.sort).getLast? = some (k.opening v) := by
  obtain ⟨before, rest, rfl, rfl, hrest⟩ := List.map_eq_append_iff.1 heq
  obtain ⟨⟨_, tree⟩, later, rfl, rfl, rfl⟩ := List.map_eq_cons_iff.1 hrest
  obtain ⟨id, hopen, -, rfl⟩ := h.closing before v tree later rfl
  have hroot := keeps _ tree (List.mem_append_right before List.mem_cons_self)
  rw [hopen.latest_event fun e tree hmem => keeps e tree (List.mem_append_left _ hmem),
    Tree.virtualIdOf_congr hroot]

end

end Bracket

/-! ## The two brackets of an adapter -/

namespace Adapter

variable {a b : Adapter} {c : Call} {es : List Event} {t : Tree} {e : Event} {id : NodeId}
  {frame : HostFrame} {effect : Effect} {target : Option NodeId}

theorem Announces.isHover (h : a.Announces id effect e) : e.isHover = false := by
  cases h <;> rfl

/-- A turn closes hover over the node that was remembered, and opens it over the one that is. -/
theorem Turn.hover_span (turn : a.Turn c b es) :
    ∃ closed opened, Bracket.hover.Span a b es closed opened := by
  cases turn with
  | silent forgets => exact ⟨none, none, .quiet nofun forgets.pointed⟩
  | @updated u tree summary =>
    refine ⟨none, none, .quiet (fun e he => ?_) (a.forgets_adopt tree).pointed⟩
    rcases mem_updateEvents he with rfl | ⟨id, -, rfl⟩ <;> rfl
  | @performed frame v action id r meant live applies =>
    refine ⟨none, none, .quiet (fun e he => ?_) fun x hx => ?_⟩
    · rcases List.mem_append.1 he with he | he
      · exact (announces_of_mem_carryOut he).isHover
      · obtain rfl := mem_clickEvents he
        rfl
    · have hsame : ((a.observe frame).1.carryOut id r.effect).1.pointed =
          (a.observe frame).1.pointed := by
        cases r.effect <;> rfl
      exact (a.forgets_observe frame).pointed x (hsame.symm.trans hx)
  | @pointed frame motion p target live =>
    have hwas : ∀ x, (a.observe frame).1.hovered = some x → a.pointed = some x := fun x hx =>
      (a.forgets_observe frame).pointed x (hovered_eq_some.1 hx).1
    by_cases hsame : (a.observe frame).1.hovered = target
    · refine ⟨none, none, .quiet (fun e he => ?_) fun x hx => hwas x (hsame.trans hx)⟩
      rw [pointAt, hoverEvents, if_pos hsame] at he
      cases he
    · refine ⟨(a.observe frame).1.hovered, target, ?_, hwas, fun x hx => ?_, fun x hx => ?_,
        fun x hx => .inl hx⟩
      · have hsort : ∀ e ∈ hoverEvents (a.observe frame).1.tree (a.observe frame).1.hovered target,
            e.isHover = true := by
          intro e he
          rcases mem_hoverEvents he with ⟨x, -, rfl⟩ | ⟨x, -, rfl⟩ <;> rfl
        refine (List.filter_eq_self.2 hsort).trans ?_
        rw [hoverEvents, if_neg hsame]
        rfl
      · exact (hovered_eq_some.1 hx).2
      · exact live x hx

/-- An action takes accessibility focus from its holder, if that is another node, or from the node
    itself, which must hold it. -/
theorem cursor_span_carryOut (live : a.tree.contains id = true)
    (held : effect = .dropAccessibilityFocus → a.accessibilityFocus = some id) :
    ∃ closed opened,
      Bracket.cursor.Span a (a.carryOut id effect).1 (a.carryOut id effect).2 closed opened := by
  cases effect with
  | none | takeInputFocus | dropInputFocus | setValue text =>
    refine ⟨none, none, .quiet (fun e he => ?_) fun x hx => hx⟩
    cases announces_of_mem_carryOut he <;> rfl
  | takeAccessibilityFocus =>
    have hwas : ∀ x, a.accessibilityFocus.filter (· ≠ id) = some x →
        a.cursor = some x ∧ a.tree.contains x = true := fun x hx =>
      accessibilityFocus_eq_some.1 (Option.filter_eq_some_iff.1 hx).1
    refine ⟨a.accessibilityFocus.filter (· ≠ id), some id, ?_, fun x hx => (hwas x hx).1,
      fun x hx => (hwas x hx).2, fun x hx => ?_, fun x hx => .inl hx⟩
    · refine Eq.trans (List.filter_eq_self.2 fun e he => ?_) events_takeAccessibilityFocus
      cases announces_of_mem_carryOut he <;> rfl
    · exact Option.some.inj hx ▸ live
  | dropAccessibilityFocus =>
    have hwas : ∀ x, some id = some x → a.cursor = some x ∧ a.tree.contains x = true := fun x hx =>
      accessibilityFocus_eq_some.1 ((held rfl).trans hx)
    exact ⟨some id, none, rfl, fun x hx => (hwas x hx).1, fun x hx => (hwas x hx).2, nofun, nofun⟩

/-- A turn takes accessibility focus from the node that was remembered, and gives it to the one that
    is. -/
theorem Turn.cursor_span (turn : a.Turn c b es) :
    ∃ closed opened, Bracket.cursor.Span a b es closed opened := by
  cases turn with
  | silent forgets => exact ⟨none, none, .quiet nofun forgets.cursor⟩
  | @updated u tree summary =>
    refine ⟨none, none, .quiet (fun e he => ?_) (a.forgets_adopt tree).cursor⟩
    rcases mem_updateEvents he with rfl | ⟨id, -, rfl⟩ <;> rfl
  | @performed frame v action id r meant live applies =>
    obtain ⟨closed, opened, span⟩ :=
      cursor_span_carryOut live (accessibilityFocus_of_drop applies)
    have hclick : ∀ e ∈ clickEvents (a.observe frame).1.tree id action.kind,
        e.isCursor = false := by
      intro e he
      obtain rfl := mem_clickEvents he
      rfl
    exact ⟨closed, opened, (span.mono (a.forgets_observe frame).cursor).append hclick⟩
  | @pointed frame motion p target live =>
    refine ⟨none, none, .quiet (fun e he => ?_) (a.forgets_observe frame).cursor⟩
    rcases mem_hoverEvents he with ⟨x, -, rfl⟩ | ⟨x, -, rfl⟩ <;> rfl

/-! ## Hover -/

/-- Whether the updates that calls try leave the root in its place. -/
def keepsRoot (a : Adapter) : List Call → Bool
  | [] => true
  | c :: cs => decide ((a.tree.given (c.update? a)).root = a.tree.root) && keepsRoot (a.call c).1 cs

/-- Such calls leave the root in its place, each of them. -/
theorem roots_of_keepsRoot {cs : List Call} (keeps : a.keepsRoot cs = true) :
    (∀ e tree, (e, tree) ∈ a.told cs → tree.root = a.tree.root) ∧
      (a.after cs).tree.root = a.tree.root := by
  induction cs generalizing a with
  | nil => exact ⟨nofun, rfl⟩
  | cons c cs ih =>
    obtain ⟨hroot, hrest⟩ := Bool.and_eq_true_iff.1 keeps
    have hcall : (a.call c).1.tree.root = a.tree.root := root_call.trans (of_decide_eq_true hroot)
    obtain ⟨htold, hafter⟩ := ih hrest
    refine ⟨fun e tree h => ?_, hafter.trans hcall⟩
    rcases List.mem_append.1 h with h | h
    · obtain ⟨e', -, he⟩ := List.mem_map.1 h
      obtain ⟨-, rfl⟩ := Prod.mk.inj he
      exact hcall
    · exact (htold e tree h).trans hcall

theorem hover_paired (ht : t.Reachable) (cs : List Call) :
    Bracket.hover.Paired ((ofTree t).told cs) ((ofTree t).after cs) :=
  (Bracket.paired_nil rfl).run (fun _ _ _ _ turn => turn.hover_span) ht cs

/-- A pointer that moves comes to be over the node under it. -/
theorem hovered_hover (ht : a.tree.Reachable) {motion : HoverMotion} (moves : motion ≠ .exit)
    (p : Point) :
    (a.hover frame (some motion) p).state.hovered = (a.observe frame).1.nodeAt p := by
  have hpoint : (a.hover frame (some motion) p).state =
      ((a.observe frame).1.pointAt ((a.observe frame).1.nodeAt p)).1 := by
    cases motion with
    | exit => exact absurd rfl moves
    | move | enter => rfl
  rw [hpoint]
  exact hovered_pointAt fun x hx => contains_of_nodeAt (reachable_tree_observe ht frame) hx

/-- The host is answered whether it was told of anything. -/
theorem answer_hover {motion : Option HoverMotion} {p : Point} :
    (a.hover frame motion p).answer = true ↔ raised (a.hover frame motion p).signals ≠ [] := by
  unfold hover
  dsimp only
  rw [raised_append, raised_observe, raised_raise, List.nil_append, Bool.not_eq_true',
    List.isEmpty_eq_false_iff]

/-- **Hover is paired.** For every run of a new adapter:

    * If its updates keep the root, the latest event of the hovering pointer before it leaves a
      number is that it came over the number; and while a live node is remembered, the latest one is
      that the pointer came over the node's number.
    * A pointer that moves, from here on, is over the node that is hit at its place under the
      transform of the call, which is the answer to the question what is hit there. One that leaves
      is over no node. The host is answered whether an event was raised. -/
theorem hover_events_pair (ht : t.Reachable) (cs : List Call) :
    ((ofTree t).keepsRoot cs = true →
      (∀ before v later, raised ((ofTree t).sent cs) = before ++ .hoverExit v :: later →
        (before.filter Event.isHover).getLast? = some (.hoverEnter v)) ∧
      ∀ id, ((ofTree t).after cs).hovered = some id →
        ((raised ((ofTree t).sent cs)).filter Event.isHover).getLast? =
          some (.hoverEnter (((ofTree t).after cs).tree.virtualIdOf id))) ∧
    ∀ frame p, let a := (ofTree t).after cs
      (∀ motion ≠ .exit, let now := (a.hover frame (some motion) p).state
        now.hovered = (if frame.transform.isSingular then none
          else now.tree.hitTest (frame.transform.inverse.apply p)) ∧
        (a.hitTest frame p).answer = now.hovered.map now.tree.virtualIdOf) ∧
      (a.hover frame (some .exit) p).state.hovered = none ∧
      ∀ motion, (a.hover frame motion p).answer = true ↔
        raised (a.hover frame motion p).signals ≠ [] := by
  have hpaired := hover_paired ht cs
  have hreach : ((ofTree t).after cs).tree.Reachable := (Reachable.after (.ofTree ht)).tree
  refine ⟨fun keeps => ⟨fun before v later heq => ?_, fun id hid => ?_⟩,
    fun frame p => ⟨fun motion moves => ⟨?_, ?_⟩, rfl, fun motion => answer_hover⟩⟩
  · exact hpaired.latest_event (roots_of_keepsRoot keeps).1 (map_fst_told.trans heq)
  · obtain ⟨htold, hafter⟩ := roots_of_keepsRoot keeps
    rw [← map_fst_told, Tree.virtualIdOf_congr hafter]
    exact (hpaired.holder id (hovered_eq_some.1 hid).1).latest_event htold
  · rw [hovered_hover hreach moves, tree_hover]
    rfl
  · rw [hovered_hover hreach moves, tree_hover]
    rfl

/-- A pointer comes over a node, which is taken out and put in again before the pointer leaves. -/
theorem hover_events_pair_reinserted :
    let t := (Tree.ofRoot {}).step (.insert ⟨0⟩ ⟨1⟩ { bounds := some ⟨0, 0, 10, 10⟩ })
    let cs : List Call := [.hover {} (some .enter) ⟨5, 5⟩,
      .update { nodes := [(⟨0⟩, { role := "Window", children := [⟨1⟩] })], focus := ⟨1⟩ },
      .edit (.remove ⟨1⟩), .edit (.insert ⟨0⟩ ⟨1⟩ {}), .hover {} (some .exit) ⟨5, 5⟩]
    t.Reachable ∧ (ofTree t).keepsRoot cs = true ∧
      raised ((ofTree t).sent cs) =
        [.hoverEnter 1, .contentChanged (-1), .focused 1] ++ .hoverExit 1 :: [] ∧
      ([.hoverEnter 1, .contentChanged (-1), .focused 1].filter Event.isHover).getLast? =
        some (.hoverEnter 1) := by
  intro t cs
  have ht : t.Reachable := (Tree.Reachable.ofRoot {}).step _
  have keeps : (ofTree t).keepsRoot cs = true := by decide +kernel
  have hraised : raised ((ofTree t).sent cs) =
      [.hoverEnter 1, .contentChanged (-1), .focused 1] ++ .hoverExit 1 :: [] := by
    decide +kernel
  obtain ⟨hpair, -⟩ := hover_events_pair ht cs
  exact ⟨ht, keeps, hraised, (hpair keeps).1 _ 1 [] hraised⟩

/-! ## Accessibility focus -/

theorem cursor_paired (ht : t.Reachable) (cs : List Call) :
    Bracket.cursor.Paired ((ofTree t).told cs) ((ofTree t).after cs) :=
  (Bracket.paired_nil rfl).run (fun _ _ _ _ turn => turn.cursor_span) ht cs

/-- **Accessibility focus is paired.** For every run of a new adapter, whether its updates change
    the root or not:

    * The latest event of accessibility focus before a node loses it is that the same node took it.
      The node was live at the time of either event, which bears the number that it had then. The
      two numbers are the same unless the node was the root at one of the two moments and not at the
      other.
    * While a live node holds accessibility focus, the latest event is that it took it, under the
      number that it had at the time. -/
theorem cursor_events_pair (ht : t.Reachable) (cs : List Call) :
    (∀ before v tree later,
      (ofTree t).told cs = before ++ (.accessibilityFocusCleared v, tree) :: later →
      ∃ id w tree', (before.filter (·.1.isCursor)).getLast? =
          some (.accessibilityFocused w, tree') ∧
        tree'.contains id = true ∧ w = tree'.virtualIdOf id ∧
        tree.contains id = true ∧ v = tree.virtualIdOf id ∧
        (w = v ↔ (id = tree'.root ↔ id = tree.root))) ∧
    ∀ id, ((ofTree t).after cs).accessibilityFocus = some id →
      ∃ tree, (((ofTree t).told cs).filter (·.1.isCursor)).getLast? =
        some (.accessibilityFocused (tree.virtualIdOf id), tree) ∧ tree.contains id = true := by
  have hpaired := cursor_paired ht cs
  refine ⟨fun before v tree later heq => ?_, fun id hid => ?_⟩
  · obtain ⟨id, ⟨tree', hlatest, hreach, live⟩, still, rfl⟩ :=
      hpaired.closing before v tree later heq
    refine ⟨id, _, tree', hlatest, live, rfl, still, rfl, ?_⟩
    exact Tree.virtualIdOf_eq_iff (hreach.inRange live)
  · obtain ⟨tree, hlatest, -, live⟩ := hpaired.holder id (accessibilityFocus_eq_some.1 hid).1
    exact ⟨tree, hlatest, live⟩

/-- A node takes accessibility focus, and loses it as the root. -/
theorem cursor_events_pair_rerooted :
    let t := (Tree.ofRoot {}).step (.insert ⟨0⟩ ⟨1⟩ {})
    let cs : List Call := [.perform {} 1 { kind := .accessibilityFocus },
      .update
        { nodes := [(⟨1⟩, { role := "Window" })], info := some { root := ⟨1⟩ }, focus := ⟨1⟩ },
      .perform {} hostView { kind := .clearAccessibilityFocus }]
    t.Reachable ∧ ∃ before tree later id w tree',
      (ofTree t).told cs = before ++ (.accessibilityFocusCleared (-1), tree) :: later ∧
      before.map (·.1) = [.accessibilityFocused 1, .contentChanged (-1)] ∧
      (before.filter (·.1.isCursor)).getLast? = some (.accessibilityFocused w, tree') ∧
      tree'.contains id = true ∧ w = tree'.virtualIdOf id ∧
      tree.contains id = true ∧ -1 = tree.virtualIdOf id ∧
      (w = -1 ↔ (id = tree'.root ↔ id = tree.root)) := by
  intro t cs
  have ht : t.Reachable := (Tree.Reachable.ofRoot {}).step _
  have hevents : ((ofTree t).told cs).map (·.1) =
      [.accessibilityFocused 1, .contentChanged (-1)] ++ [.accessibilityFocusCleared (-1)] := by
    decide +kernel
  obtain ⟨before, rest, heq, hbefore, hrest⟩ := List.map_eq_append_iff.1 hevents
  obtain ⟨⟨_, tree⟩, later, rfl, rfl, -⟩ := List.map_eq_cons_iff.1 hrest
  obtain ⟨hpair, -⟩ := cursor_events_pair ht cs
  obtain ⟨id, w, tree', hfacts⟩ := hpair before (-1) tree later heq
  exact ⟨ht, before, tree, later, id, w, tree', heq, hbefore, hfacts⟩

/-- The number of a node that becomes the root in between is not the one under which it took
    accessibility focus. -/
theorem not_forall_cleared_same_number :
    ¬ ∀ (t : Tree) (cs : List Call), t.Reachable → ∀ before v later,
      raised ((ofTree t).sent cs) = before ++ .accessibilityFocusCleared v :: later →
      (before.filter Event.isCursor).getLast? = some (.accessibilityFocused v) := by
  intro hall
  let t := (Tree.ofRoot {}).step (.insert ⟨0⟩ ⟨1⟩ {})
  let cs : List Call := [.perform {} 1 { kind := .accessibilityFocus },
    .update
      { nodes := [(⟨1⟩, { role := "Window" })], info := some { root := ⟨1⟩ }, focus := ⟨1⟩ },
    .perform {} hostView { kind := .clearAccessibilityFocus }]
  have ht : t.Reachable := (Tree.Reachable.ofRoot {}).step _
  have hraised : raised ((ofTree t).sent cs) =
      [.accessibilityFocused 1, .contentChanged (-1)] ++ [.accessibilityFocusCleared (-1)] := by
    decide +kernel
  cases hall t cs ht _ (-1) [] hraised

end Adapter

end AccessBridge
