import AccessBridge.Proofs.Tree.Unfolding

/-!
# What an accepted update makes of a tree

`UpdatedBy` says what a tree is after an update, field by field and for every id: which ids are
live, what each of them keeps or takes from the update, who is whose parent, and where the focus
is. An accepted update leaves the one tree of which that is true. The tree is arranged again.
-/

namespace AccessBridge

open Std (ExtTreeMap ExtTreeSet)
open Relation

namespace Tree

/-- `t'` is what the update `u` makes of `t`. -/
structure UpdatedBy (t : Tree) (u : TreeUpdate) (t' : Tree) : Prop where
  root : t'.root = match u.info with
    | some info => info.root
    | none => t.root
  live : ∀ x, t'.contains x = true ↔ ReflTransGen (IsChild (t.mergedChildren? u)) t'.root x
  described : ∀ x n, t'.contains x = true → u.last? x = some n →
    t'.node? x = some n.toNode ∧ t'.children? x = some n.children
  kept : ∀ x, t'.contains x = true → u.last? x = none →
    t.contains x = true ∧ t'.node? x = t.node? x ∧ t'.children? x = t.children? x
  parent : ∀ p c, t'.parent? c = some p ↔ IsChild t'.children? p c
  parent_root : t'.parent? t'.root = none
  focus : t'.focus =
    if u.focus ≠ t'.root ∧ t'.contains u.focus = true then some u.focus else none
  toolkit : t'.toolkit = match u.info with
    | some info => info.toolkit
    | none => t.toolkit

variable {t t' t₁ t₂ : Tree} {u : TreeUpdate} {ps : List Placement} {l : List NodeId}
  {p c x : NodeId} {s : UpdateSummary}

/-! ## The tree that placements describe -/

/-- The entries of the new tree, as one insertion of many. -/
theorem entries_replaced : (t.replaced u ps).entries =
    (∅ : ExtTreeMap NodeId Entry).insertMany (ps.map fun q =>
      (q.id, (⟨t.attributesAfter u.described q.id, q.parent, q.children⟩ : Entry))) := by
  rw [ExtTreeMap.insertMany_list_eq_foldl, List.foldl_map]
  rfl

theorem getElem?_replaced (nd : (ps.map (·.id)).Nodup) {q : Placement} (hq : q ∈ ps) :
    (t.replaced u ps).entries[q.id]? =
      some ⟨t.attributesAfter u.described q.id, q.parent, q.children⟩ := by
  rw [entries_replaced]
  refine ExtTreeMap.getElem?_insertMany_list_of_mem Std.compare_self ?_ (List.mem_map_of_mem hq)
  refine List.pairwise_map.2 ((List.pairwise_map.1 nd).imp fun hne he => hne ?_)
  exact NodeId.compare_eq_iff.1 he

theorem getElem?_replaced_of_not_mem (h : x ∉ ps.map (·.id)) :
    (t.replaced u ps).entries[x]? = none := by
  rw [entries_replaced, ExtTreeMap.getElem?_insertMany_list_of_contains_eq_false,
    ExtTreeMap.getElem?_empty]
  rw [List.map_map, List.contains_eq_mem]
  exact decide_eq_false h

section Replaced

variable (h : Unfolds (t.mergedChildren? u) (u.newRoot t) ps)

include h

theorem contains_replaced : (t.replaced u ps).contains x = true ↔ x ∈ ps.map (·.id) := by
  rw [contains_iff]
  constructor
  · rintro ⟨e, he⟩
    by_contra hx
    rw [getElem?_replaced_of_not_mem hx] at he
    cases he
  · intro hx
    obtain ⟨q, hq, rfl⟩ := List.mem_map.1 hx
    exact ⟨_, getElem?_replaced h.nodup hq⟩

theorem contains_reached : (Placement.reached ps).contains x = (t.replaced u ps).contains x := by
  rw [Bool.eq_iff_iff, contains_replaced h, Placement.reached, ExtTreeSet.contains_ofList,
    List.contains_iff_mem]

theorem children?_replaced (hx : x ∈ ps.map (·.id)) :
    (t.replaced u ps).children? x = t.mergedChildren? u x := by
  obtain ⟨q, hq, rfl⟩ := List.mem_map.1 hx
  rw [children?, getElem?_replaced h.nodup hq, h.children q hq]
  rfl

theorem isChild_replaced : IsChild (t.replaced u ps).children? p c ↔
    p ∈ ps.map (·.id) ∧ IsChild (t.mergedChildren? u) p c := by
  constructor
  · intro hc
    have hp := (contains_replaced h).1 (contains_of_isChild hc)
    rw [IsChild, children?_replaced h hp] at hc
    exact ⟨hp, hc⟩
  · rintro ⟨hp, hc⟩
    rwa [IsChild, children?_replaced h hp]

/-- The parent under which an id was met is the one that lists it. -/
theorem parent?_replaced :
    (t.replaced u ps).parent? c = some p ↔ IsChild (t.replaced u ps).children? p c := by
  rw [isChild_replaced h]
  constructor
  · intro hp
    have hc : c ∈ ps.map (·.id) := by
      rw [← contains_replaced h, contains_iff]
      obtain ⟨e, he, -⟩ := Option.bind_eq_some_iff.1 hp
      exact ⟨e, he⟩
    obtain ⟨q, hq, rfl⟩ := List.mem_map.1 hc
    have hqp : q.parent = some p := by
      simpa [parent?, getElem?_replaced h.nodup hq] using hp
    rcases h.parent q hq with ⟨hnone, -⟩ | ⟨r, hr, hsome, hmem⟩
    · cases hnone.symm.trans hqp
    · obtain rfl := Option.some.inj (hsome.symm.trans hqp)
      exact ⟨List.mem_map_of_mem hr, _, h.children r hr, hmem⟩
  · rintro ⟨hp, hc⟩
    have hcm : c ∈ ps.map (·.id) := h.layout.mem_of_isChild hp hc
    obtain ⟨q, hq, rfl⟩ := List.mem_map.1 hcm
    rw [parent?, getElem?_replaced h.nodup hq, Option.bind_some]
    rcases h.parent q hq with ⟨-, hroot⟩ | ⟨r, hr, hsome, hmem⟩
    · refine absurd hc (h.layout.not_isChild_of_mem_stack h.nodup ?_ hp)
      exact hroot ▸ List.mem_cons_self
    · have hrc : IsChild (t.mergedChildren? u) r.id q.id := ⟨_, h.children r hr, hmem⟩
      have he := h.layout.parent_unique h.nodup (List.mem_map_of_mem hr) hp hrc hc
      rw [hsome, he]

theorem node?_replaced (hx : x ∈ ps.map (·.id)) :
    (t.replaced u ps).node? x = some (t.attributesAfter u.described x) := by
  obtain ⟨q, hq, rfl⟩ := List.mem_map.1 hx
  rw [node?, getElem?_replaced h.nodup hq]
  rfl

theorem layout_replaced :
    Layout (t.replaced u ps).children? [(t.replaced u ps).root] (ps.map (·.id)) :=
  h.layout.congr fun _ hx => children?_replaced h hx

end Replaced

/-! ## Accepted updates -/

/-- An update whose ids are in range is decided by the unfolding of the merged graph. -/
theorem update_eq_map (hr : ∀ id ∈ u.ids, id.InRange) :
    t.update u = ((u.mergedGraph t).unfoldFrom (u.newRoot t)).map fun ps =>
      (t.replaced u ps, t.summary u ps) := by
  rw [update, tryUpdate, TreeUpdate.find?_out_of_range_eq_none_iff.2 hr]
  cases (u.mergedGraph t).unfoldFrom (u.newRoot t) <;> rfl

/-- All that an accepted update passed, and all that it did. -/
theorem update_eq_ok (h : t.update u = .ok (t', s)) :
    (∀ id ∈ u.ids, id.InRange) ∧ ∃ ps, Unfolds (t.mergedChildren? u) (u.newRoot t) ps ∧
      t' = t.replaced u ps ∧ s = t.summary u ps := by
  unfold update tryUpdate at h
  split at h
  · cases h
  · rename_i hrange
    split at h
    · cases h
    · rename_i ps hps
      obtain ⟨rfl, rfl⟩ := Prod.mk.inj (Except.ok.inj h)
      refine ⟨TreeUpdate.find?_out_of_range_eq_none_iff.1 hrange, ps, ?_, rfl, rfl⟩
      exact TreeUpdate.mergedGraph_eq ▸ ChildGraph.unfoldFrom_ok hps

theorem oldFocus_of_update (h : t.update u = .ok (t', s)) : s.oldFocus = t.focus := by
  obtain ⟨-, ps, -, -, rfl⟩ := update_eq_ok h
  rfl

theorem newFocus_of_update (h : t.update u = .ok (t', s)) : s.newFocus = t'.focus := by
  obtain ⟨-, ps, -, rfl, rfl⟩ := update_eq_ok h
  rfl

theorem updatedBy_replaced (h : Unfolds (t.mergedChildren? u) (u.newRoot t) ps) :
    t.UpdatedBy u (t.replaced u ps) where
  root := TreeUpdate.newRoot_eq
  live x := by
    rw [contains_replaced h]
    exact h.layout.mem_singleton_iff
  described x n hx hn := by
    have hx := (contains_replaced h).1 hx
    rw [node?_replaced h hx, children?_replaced h hx, attributesAfter,
      TreeUpdate.getElem?_described, mergedChildren?, hn]
    exact ⟨rfl, rfl⟩
  kept x hx hn := by
    have hx := (contains_replaced h).1 hx
    have hc : t.mergedChildren? u x = t.children? x := by rw [mergedChildren?, hn]
    obtain ⟨cs, known⟩ := h.layout.known_of_mem hx
    have hlive : t.contains x = true := contains_iff_children?.2 ⟨cs, hc ▸ known⟩
    obtain ⟨n, hnode⟩ := contains_iff_node?.1 hlive
    refine ⟨hlive, ?_, (children?_replaced h hx).trans hc⟩
    rw [node?_replaced h hx, attributesAfter, TreeUpdate.getElem?_described, hn, hnode]
    rfl
  parent p c := parent?_replaced h
  parent_root := by
    refine Option.eq_none_iff_forall_ne_some.2 fun p hp => ?_
    obtain ⟨hmem, hc⟩ := (isChild_replaced h).1 ((parent?_replaced h).1 hp)
    exact h.layout.not_isChild_of_mem_stack h.nodup List.mem_cons_self hmem hc
  focus := rfl
  toolkit := TreeUpdate.newToolkit_eq

/-- An update says all about the tree that it leaves. -/
theorem UpdatedBy.unique (h₁ : t.UpdatedBy u t₁) (h₂ : t.UpdatedBy u t₂) : t₁ = t₂ := by
  have hroot : t₁.root = t₂.root := h₁.root.trans h₂.root.symm
  have hlive : ∀ x, t₁.contains x = t₂.contains x := fun x => by
    rw [Bool.eq_iff_iff, h₁.live, h₂.live, hroot]
  have hentry : ∀ x, t₁.node? x = t₂.node? x ∧ t₁.children? x = t₂.children? x := fun x => by
    by_cases hx : t₁.contains x = true
    · have hx₂ := hlive x ▸ hx
      cases hl : u.last? x with
      | some n =>
        obtain ⟨hn₁, hc₁⟩ := h₁.described x n hx hl
        obtain ⟨hn₂, hc₂⟩ := h₂.described x n hx₂ hl
        exact ⟨hn₁.trans hn₂.symm, hc₁.trans hc₂.symm⟩
      | none =>
        obtain ⟨-, hn₁, hc₁⟩ := h₁.kept x hx hl
        obtain ⟨-, hn₂, hc₂⟩ := h₂.kept x hx₂ hl
        exact ⟨hn₁.trans hn₂.symm, hc₁.trans hc₂.symm⟩
    · have he₁ := getElem?_eq_none_of_not_contains hx
      have he₂ := getElem?_eq_none_of_not_contains (hlive x ▸ hx)
      simp only [node?, children?, he₁, he₂, and_self]
  have hparent : ∀ x, t₁.parent? x = t₂.parent? x := fun x => by
    have hc : t₁.children? = t₂.children? := funext fun x => (hentry x).2
    refine Option.ext fun p => ?_
    rw [h₁.parent, h₂.parent, hc]
  refine eq_of_views (fun x => (hentry x).1) hparent (fun x => (hentry x).2) hroot ?_
    (h₁.toolkit.trans h₂.toolkit.symm)
  rw [h₁.focus, h₂.focus, hroot, hlive]

/-- **An accepted update** leaves exactly the tree that the update and the old tree describe. -/
theorem update_eq_ok_updatedBy (h : t.update u = .ok (t', s)) :
    t.UpdatedBy u t' ∧ ∀ t'', t.UpdatedBy u t'' → t'' = t' := by
  obtain ⟨-, ps, hps, rfl, -⟩ := update_eq_ok h
  have hu := updatedBy_replaced hps
  exact ⟨hu, fun t'' h'' => h''.unique hu⟩

/-- The last description of the new root counts, a node that it does not lead to is dropped. -/
theorem updatedBy_above_root :
    let t := ofRoot {}
    let u : TreeUpdate :=
      { nodes := [(⟨5⟩, { role := "Label", children := [⟨9⟩] }), (⟨7⟩, { role := "Button" }),
          (⟨5⟩, { role := "Window", children := [⟨0⟩] })]
        info := some { root := ⟨5⟩ }
        focus := ⟨0⟩ }
    ∃ t' s, t.update u = .ok (t', s) ∧ t'.preorder = [⟨5⟩, ⟨0⟩] ∧ t.UpdatedBy u t' ∧
      ∀ t'', t.UpdatedBy u t'' → t'' = t' := by
  intro t u
  let ps : List Placement := [⟨⟨5⟩, none, [⟨0⟩]⟩, ⟨⟨0⟩, some ⟨5⟩, []⟩]
  have hrange : ∀ id ∈ u.ids, id.InRange := by decide
  have hplaces : (u.mergedGraph t).unfoldFrom (u.newRoot t) = .ok ps := by decide +kernel
  have h : t.update u = .ok (t.replaced u ps, t.summary u ps) := by
    rw [update_eq_map hrange, hplaces]
    rfl
  obtain ⟨hu, hunique⟩ := update_eq_ok_updatedBy h
  exact ⟨_, _, h, by decide +kernel, hu, hunique⟩

/-- An arranged tree is arranged again by every update that it accepts. -/
theorem Arranged.update (h : t.Arranged l) (hu : t.update u = .ok (t', s)) :
    ∃ l', t'.Arranged l' := by
  obtain ⟨hrange, ps, hps, rfl, -⟩ := update_eq_ok hu
  have hup := updatedBy_replaced hps
  refine ⟨ps.map (·.id), layout_replaced hps, hps.nodup, fun x => (contains_replaced hps).symm,
    hup.parent, fun x hx => ?_, fun x hx => ?_⟩
  · cases hl : u.last? x with
    | some n => exact hrange x (TreeUpdate.mem_ids_of_last? hl)
    | none =>
      have hk := hup.kept x ((contains_replaced hps).2 hx) hl
      exact h.inRange x ((h.live x).2 hk.1)
  · rw [hup.focus] at hx
    split at hx
    · rename_i hf
      exact (contains_replaced hps).1 (Option.some.inj hx ▸ hf.2)
    · cases hx

end Tree

end AccessBridge
