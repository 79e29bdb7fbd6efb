import AccessBridge.Proofs.Adapter.Turns

/-!
# Updates of a surface

What a call that updates a surface comes to: nothing before the host has asked anything, nothing
but the error if the update is refused, and otherwise a new tree, the events `UpdateTold` and the
pointers of the adapter as `Carried` has them (`Reachable.updateIfActive_outcome`). An update does
not touch what a pointer holds unless the node is gone afterwards; but a pointer that shows nothing
may hold the id of a node that an edit took away, and shows a node again once an update gives that
id to one (`not_forall_update_leaves_unheld`).
-/

namespace AccessBridge

variable {t t' : Tree} {u : TreeUpdate} {s : UpdateSummary} {id : NodeId}

namespace Tree

/-- What focus a tree has after an update is on a node that the host knows by its own number. -/
theorem Reachable.virtualIdOf_focus_update (h : t.Reachable) (hu : t.update u = .ok (t', s))
    (hf : t'.focus = some id) : t'.virtualIdOf id = id.val := by
  have ht' := Adapter.reachable_of_update h hu
  obtain ⟨-, ps, hps, rfl, -⟩ := update_eq_ok hu
  rw [(updatedBy_replaced hps).focus] at hf
  split at hf
  · rename_i hlive
    obtain rfl := Option.some.inj hf
    exact virtualIdOf_of_ne hlive.1 (ht'.inRange hlive.2)
  · cases hf

end Tree

namespace Adapter

variable {a b : Adapter}

/-! ## What the host is told -/

/-- What the host is told of an update by which `t` became `t'`. -/
inductive UpdateTold (t t' : Tree) : List Event → Prop where
  /-- A node holds input focus that did not hold it before. -/
  | focused {id : NodeId} (now : t'.focus = some id) (before : t.focus ≠ some id)
      (number : t'.virtualIdOf id = id.val) :
      UpdateTold t t' [.contentChanged hostView, .focused (t'.virtualIdOf id)]
  | changed (kept : ∀ id, t'.focus = some id → t.focus = some id) :
      UpdateTold t t' [.contentChanged hostView]

theorem updateTold_updateEvents (h : t.Reachable) (hu : t.update u = .ok (t', s)) :
    UpdateTold t t' (updateEvents t' s) := by
  have hold : s.oldFocus = t.focus := Tree.oldFocus_of_update hu
  have hnew : s.newFocus = t'.focus := Tree.newFocus_of_update hu
  unfold updateEvents
  rw [Tree.virtualIdOf_root, hnew, UpdateSummary.focusChanged, hold, hnew]
  cases hf : t'.focus with
  | none => exact .changed fun id hid => by rw [hf] at hid; cases hid
  | some id =>
    dsimp only
    by_cases hsame : t.focus = some id
    · rw [if_neg (by simpa using hsame)]
      exact .changed fun x hx => by rw [← hx, hf, hsame]
    · rw [if_pos (by simpa using hsame)]
      exact .focused hf hsame (h.virtualIdOf_focus_update hu hf)

/-! ## What becomes of the pointers -/

/-- `after` is what a pointer with the id `stored` shows in `t'` that showed `before` in `t`. -/
structure Carried (t t' : Tree) (stored before after : Option NodeId) : Prop where
  shown : ∀ id, before = some id → after = if t'.contains id = true then some id else none
  /-- A pointer that showed nothing shows its id if that is live again. -/
  hidden : before = none → ∀ id,
    after = some id ↔ stored = some id ∧ ¬ t.contains id = true ∧ t'.contains id = true

/-- An update forgets what is stored of nodes that are gone, which does not show. -/
theorem carried_filter (t t' : Tree) (stored : Option NodeId) :
    Carried t t' stored (stored.filter t.contains)
      ((stored.filter t'.contains).filter t'.contains) := by
  have hfilter : (stored.filter t'.contains).filter t'.contains = stored.filter t'.contains := by
    simp [Option.filter_filter]
  rw [hfilter]
  constructor
  case shown =>
    intro id hid
    obtain ⟨rfl, -⟩ := Option.filter_eq_some_iff.1 hid
    rfl
  case hidden =>
    intro hnone id
    rw [Option.filter_eq_some_iff]
    refine and_congr_right fun hid => (and_iff_right ?_).symm
    exact Option.filter_eq_none_iff.1 hnone id hid

/-- A pointer whose id is live goes on showing nothing if it shows nothing. -/
theorem Carried.eq_none {stored before after : Option NodeId} (h : Carried t t' stored before after)
    (live : ∀ id, stored = some id → t.contains id = true) (hnone : before = none) :
    after = none := by
  refine Option.eq_none_iff_forall_ne_some.2 fun id hid => ?_
  obtain ⟨hstored, hdead, -⟩ := (h.hidden hnone id).1 hid
  exact hdead (live id hstored)

/-- `b` is `a` with the tree `t'` after an update: nothing but the tree and the pointers differ. -/
structure Refreshed (a : Adapter) (t' : Tree) (b : Adapter) : Prop where
  rest : b = { a with tree := t', cursor := b.cursor, pointed := b.pointed }
  accessibilityFocus : Carried a.tree t' a.cursor a.accessibilityFocus b.accessibilityFocus
  hovered : Carried a.tree t' a.pointed a.hovered b.hovered

theorem refreshed_adopt (a : Adapter) (t' : Tree) : a.Refreshed t' (a.adopt t') where
  rest := rfl
  accessibilityFocus := carried_filter a.tree t' a.cursor
  hovered := carried_filter a.tree t' a.pointed

/-- In a run whose edits spare what the pointers show, a pointer that shows nothing goes on doing
    so. -/
theorem Refreshed.hidden_of_spared (h : a.Refreshed t' b) (spared : a.Spared) :
    (a.accessibilityFocus = none → b.accessibilityFocus = none) ∧
      (a.hovered = none → b.hovered = none) :=
  ⟨h.accessibilityFocus.eq_none fun id hid => spared.settled id (.inl hid),
    h.hovered.eq_none fun id hid => spared.settled id (.inr hid)⟩

/-! ## The outcome -/

/-- **What an update of a surface comes to.** Before the host has asked anything, nothing happens
    and the update is not even built. A refused update leaves the adapter as it is and tells the
    host nothing. An accepted one brings in its tree, tells the host what is due, and touches
    nothing else but the two pointers: one that showed a live node shows it as long as it is live,
    and one that showed nothing shows a node that has come back to life under the id that the
    pointer still holds, which takes an edit that removed what the pointer showed. -/
theorem Reachable.updateIfActive_outcome (h : a.Reachable) (u : TreeUpdate) :
    (a.phase = .created → a.updateIfActive u = ⟨.ok false, a, []⟩) ∧
    (a.phase = .active →
      (∀ e, a.tree.update u = .error e → a.updateIfActive u = ⟨.error e, a, [.updateBuilt]⟩) ∧
      ∀ t' s, a.tree.update u = .ok (t', s) →
        ∃ b events, a.updateIfActive u = ⟨.ok true, b, .updateBuilt :: raise events⟩ ∧
          UpdateTold a.tree t' events ∧ a.Refreshed t' b ∧
          (a.Spared → (a.accessibilityFocus = none → b.accessibilityFocus = none) ∧
            (a.hovered = none → b.hovered = none))) := by
  refine ⟨fun created => ?_, fun active => ⟨fun e he => ?_, fun t' s hu => ?_⟩⟩
  · have hidle : ¬ a.isActive = true := fun hactive => by
      rw [isActive_iff.1 hactive] at created
      cases created
    rw [updateIfActive, if_neg hidle]
  · rw [updateIfActive, if_pos (isActive_iff.2 active), applyUpdate_of_error he]
  · refine ⟨a.adopt t', updateEvents t' s, ?_, updateTold_updateEvents h.tree hu,
      a.refreshed_adopt t', (a.refreshed_adopt t').hidden_of_spared⟩
    rw [updateIfActive, if_pos (isActive_iff.2 active), applyUpdate_of_ok hu]

/-- The update takes away the node that held accessibility focus, hangs the old root below a new one
    and moves input focus. -/
theorem updateIfActive_outcome_rerooted :
    let t := ((Tree.ofRoot {}).step (.insert ⟨0⟩ ⟨1⟩ {})).step (.insert ⟨0⟩ ⟨2⟩ {})
    let a := ((ofTree t).call (.perform {} 1 { kind := .accessibilityFocus })).1
    let u : TreeUpdate :=
      { nodes := [(⟨5⟩, { role := "Window", children := [⟨0⟩] }),
          (⟨0⟩, { role := "Group", children := [⟨2⟩] })]
        info := some { root := ⟨5⟩ }
        focus := ⟨2⟩ }
    a.Spared ∧ a.phase = .active ∧ a.accessibilityFocus = some ⟨1⟩ ∧ a.hovered = none ∧
      ∃ b, a.updateIfActive u =
          ⟨.ok true, b, .updateBuilt :: raise [.contentChanged hostView, .focused 2]⟩ ∧
        b.accessibilityFocus = none ∧ b.hovered = none := by
  intro t a u
  have ht : t.Reachable := ((Tree.Reachable.ofRoot {}).step _).step _
  have ha : a.Spared := .call (.ofTree ht) _ trivial
  have active : a.phase = .active := by decide +kernel
  have hheld : a.accessibilityFocus = some ⟨1⟩ := by decide +kernel
  have hnone : a.hovered = none := by decide +kernel
  have hfocus : a.tree.focus = none := by decide +kernel
  have hrun : (a.tree.update u).map (fun r => (r.1.focus, r.1.contains ⟨1⟩)) =
      .ok (some ⟨2⟩, false) := by decide +kernel
  obtain ⟨⟨t', s⟩, hu, hpair⟩ := Except.map_eq_ok hrun
  obtain ⟨hnow, hdead⟩ : t'.focus = some ⟨2⟩ ∧ t'.contains ⟨1⟩ = false := Prod.mk.inj hpair.symm
  obtain ⟨b, events, hb, htold, hrefreshed, hspared⟩ :=
    ((Reachable.updateIfActive_outcome ha.reachable u).2 active).2 t' s hu
  have hevents : events = [.contentChanged hostView, .focused 2] := by
    cases htold with
    | focused now before number =>
      rw [number, Option.some.inj (now.symm.trans hnow)]
      rfl
    | changed kept => exact absurd (kept _ hnow) (by rw [hfocus]; nofun)
  refine ⟨ha, active, hheld, hnone, b, hevents ▸ hb, ?_, (hspared ha).2 hnone⟩
  rw [hrefreshed.accessibilityFocus.shown _ hheld, hdead]
  rfl

/-- What `Carried.hidden` says of a pointer that shows nothing cannot be strengthened to: it goes on
    showing nothing. A node takes accessibility focus and is removed by an edit, and the adapter
    holds its id all the while; an update that describes a node under this id shows it again. -/
theorem not_forall_update_leaves_unheld :
    ¬ ∀ (a : Adapter) (u : TreeUpdate) (t' : Tree) (s : UpdateSummary), a.Reachable →
      a.phase = .active → a.tree.update u = .ok (t', s) → a.accessibilityFocus = none →
      (a.updateIfActive u).state.accessibilityFocus = none := by
  intro hall
  let t := (Tree.ofRoot {}).step (.insert ⟨0⟩ ⟨1⟩ {})
  let a := (((ofTree t).call (.perform {} 1 { kind := .accessibilityFocus })).1.call
    (.edit (.remove ⟨1⟩))).1
  let u : TreeUpdate :=
    { nodes := [(⟨0⟩, { role := "Window", children := [⟨1⟩] }), (⟨1⟩, { role := "Label" })]
      focus := ⟨0⟩ }
  have ha : a.Reachable := .call (.call (.ofTree ((Tree.Reachable.ofRoot {}).step _)) _) _
  have active : a.phase = .active := by decide +kernel
  have hnone : a.accessibilityFocus = none := by decide +kernel
  have hrun : (a.tree.update u).map (fun _ => ()) = .ok () := by decide +kernel
  obtain ⟨⟨t', s⟩, hu, -⟩ := Except.map_eq_ok hrun
  have hheld : (a.updateIfActive u).state.accessibilityFocus = some ⟨1⟩ := by decide +kernel
  rw [hall a u t' s ha active hu hnone] at hheld
  cases hheld

end Adapter

end AccessBridge
