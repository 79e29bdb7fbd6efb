import AccessBridge.Proofs.Tree.Arrangement
import AccessBridge.Tree.Update

/-!
# Unfolding the merged graph

What an update and a tree say together, without maps and without order: `TreeUpdate.last?` is the
description that counts for an id and `Tree.mergedChildren?` the child list. An unfolding that
succeeds is a layout of that graph without repetition, in which each placement names the parent
under which it was met (`Unfolds`).
-/

namespace AccessBridge

open Std (ExtTreeMap)

/-! ## The merged graph -/

/-- The description that the update gives to an id in the last place where it describes it. -/
def TreeUpdate.last? (u : TreeUpdate) (id : NodeId) : Option ToolkitNode :=
  (u.nodes.findRev? (·.1 = id)).map (·.2)

/-- The children of an id according to an update, or else to the tree that it is applied to. -/
def Tree.mergedChildren? (t : Tree) (u : TreeUpdate) (id : NodeId) : Option (List NodeId) :=
  match u.last? id with
  | some n => some n.children
  | none => t.children? id

variable {t : Tree} {u : TreeUpdate} {id x : NodeId}

theorem TreeUpdate.getElem?_described : u.described[id]? = u.last? id := by
  rw [described, ← ExtTreeMap.insertMany_list_eq_foldl, ExtTreeMap.getElem?_insertMany_list,
    ExtTreeMap.getElem?_empty, Option.or_none, last?]
  induction u.nodes with
  | nil => rfl
  | cons p nodes ih =>
    rw [List.findSomeRev?, List.findRev?, ih]
    cases nodes.findRev? (·.1 = id) with
    | some q => rfl
    | none =>
      by_cases hp : p.1 = id <;> simp [hp]

theorem TreeUpdate.newRoot_eq : u.newRoot t = match u.info with
    | some info => info.root
    | none => t.root := by
  unfold newRoot
  cases u.info <;> rfl

theorem TreeUpdate.newToolkit_eq : u.newToolkit t = match u.info with
    | some info => info.toolkit
    | none => t.toolkit := by
  unfold newToolkit
  cases u.info <;> rfl

theorem TreeUpdate.mem_nodes_of_last? {n : ToolkitNode} (h : u.last? id = some n) :
    (id, n) ∈ u.nodes := by
  obtain ⟨p, hp, rfl⟩ := Option.map_eq_some_iff.1 h
  rw [List.findRev?_eq_find?_reverse] at hp
  obtain rfl : p.1 = id := by simpa using List.find?_some hp
  exact List.mem_reverse.1 (List.mem_of_find?_eq_some hp)

theorem TreeUpdate.mem_ids_of_last? {n : ToolkitNode} (h : u.last? id = some n) : id ∈ u.ids :=
  List.mem_map_of_mem (mem_nodes_of_last? h)

theorem TreeUpdate.last?_eq_none_iff : u.last? id = none ↔ id ∉ u.ids := by
  rw [last?, Option.map_eq_none_iff, List.findRev?_eq_find?_reverse, List.find?_eq_none, ids,
    List.mem_map]
  simp only [List.mem_reverse, decide_eq_true_eq, not_exists, not_and]

theorem TreeUpdate.getElem?_mergedGraph :
    (u.mergedGraph t)[id]? = t.mergedChildren? u id := by
  have hm : u.mergedGraph t = (t.entries.map fun _ e => e.children).insertMany
      (u.described.toList.map fun p => (p.1, p.2.children)) := by
    rw [mergedGraph, ExtTreeMap.foldl_eq_foldl_toList, ExtTreeMap.insertMany_list_eq_foldl,
      List.foldl_map]
  have hd : (u.described.toList.map fun p => (p.1, p.2.children)).Pairwise
      fun a b => ¬ compare a.1 b.1 = .eq :=
    List.pairwise_map.2 ExtTreeMap.distinct_keys_toList
  rw [hm, Tree.mergedChildren?, ← getElem?_described]
  cases hn : u.described[id]? with
  | some n =>
    refine ExtTreeMap.getElem?_insertMany_list_of_mem (Std.compare_self) hd (List.mem_map.2 ?_)
    exact ⟨(id, n), ExtTreeMap.mem_toList_iff_getElem?_eq_some.2 hn, rfl⟩
  | none =>
    rw [ExtTreeMap.getElem?_insertMany_list_of_contains_eq_false, ExtTreeMap.getElem?_map]
    · rfl
    · rw [List.map_map]
      change (u.described.toList.map Prod.fst).contains id = false
      rw [ExtTreeMap.map_fst_toList_eq_keys, ExtTreeMap.contains_keys,
        ← ExtTreeMap.isSome_getElem?_eq_contains, hn]
      rfl

theorem TreeUpdate.mergedGraph_eq : (fun x => (u.mergedGraph t)[x]?) = t.mergedChildren? u :=
  funext fun _ => getElem?_mergedGraph

theorem TreeUpdate.find?_out_of_range_eq_none_iff :
    u.ids.find? (fun id => ¬ id.InRange) = none ↔ ∀ id ∈ u.ids, id.InRange := by
  simp only [List.find?_eq_none, decide_eq_true_eq, not_not]

/-! ## Unfolding -/

/-- The placements give its only place to each id that the graph has at or below `root`. -/
structure Unfolds (g : NodeId → Option (List NodeId)) (root : NodeId) (ps : List Placement) :
    Prop where
  layout : Layout g [root] (ps.map (·.id))
  nodup : (ps.map (·.id)).Nodup
  children : ∀ p ∈ ps, g p.id = some p.children
  parent : ∀ p ∈ ps, (p.parent = none ∧ p.id = root) ∨
    ∃ q ∈ ps, p.parent = some q.id ∧ p.id ∈ q.children

theorem Except.map_eq_ok {ε α β : Type} {f : α → β} {r : Except ε α} {b : β}
    (h : r.map f = .ok b) : ∃ a, r = .ok a ∧ b = f a := by
  cases r with
  | error e => cases h
  | ok a => exact ⟨a, rfl, (Except.ok.inj h).symm⟩

theorem Except.map_eq_error {ε α β : Type} {f : α → β} {r : Except ε α} {e : ε}
    (h : r.map f = .error e) : r = .error e := by
  cases r with
  | error e' => exact congrArg _ (Except.error.inj h)
  | ok a => cases h

namespace ChildGraph

variable {graph rest : ChildGraph} {stack : List (Option NodeId × NodeId)} {ps : List Placement}

/-- Induction along the walk: an id is met while it is in `rest`, or the walk ends. -/
theorem unfold_induction {motive : ChildGraph → List (Option NodeId × NodeId) → Prop}
    (nil : ∀ rest, motive rest [])
    (unplaced : ∀ (rest : ChildGraph) parent (id : NodeId) stack, rest[id]? = none →
      motive rest ((parent, id) :: stack))
    (placed : ∀ (rest : ChildGraph) parent (id : NodeId) stack children,
      rest[id]? = some children →
      motive (rest.erase id) (children.map (some id, ·) ++ stack) →
      motive rest ((parent, id) :: stack)) (rest : ChildGraph) (stack) : motive rest stack := by
  induction rest, stack using ChildGraph.unfold.induct with
  | case1 rest => exact nil rest
  | case2 rest parent id stack h => exact unplaced rest parent id stack h
  | case3 rest parent id stack children h _ ih =>
    refine placed rest parent id stack children h ?_
    have hm : children.attach.map (fun x => ((some id, x.1) : Option NodeId × NodeId)) =
        children.map (some id, ·) := List.attach_map_val
    exact hm ▸ ih

theorem unfold_placed {parent : Option NodeId} {children : List NodeId}
    (h : rest[id]? = some children) :
    graph.unfold rest ((parent, id) :: stack) =
      (graph.unfold (rest.erase id) (children.map (some id, ·) ++ stack)).map
        (⟨id, parent, children⟩ :: ·) := by
  rw [unfold]
  split
  · rename_i hn
    cases hn.symm.trans h
  · rename_i cs hcs
    obtain rfl := Option.some.inj (hcs.symm.trans h)
    rfl

theorem unfold_unplaced {parent : Option NodeId} (h : rest[id]? = none) :
    graph.unfold rest ((parent, id) :: stack) =
      .error (if graph.contains id then .cycle id else .unknownNode id) := by
  rw [unfold]
  split
  · rfl
  · rename_i cs hcs
    cases hcs.symm.trans h

/-- The walk that consumes the graph. What is still in `rest` has no place yet, so no id gets two
    places; the stack is laid out in pre-order. -/
theorem unfold_ok (hs : ∀ (x : NodeId) cs, rest[x]? = some cs → graph[x]? = some cs)
    (h : graph.unfold rest stack = .ok ps) :
    Layout (fun x => graph[x]?) (stack.map (·.2)) (ps.map (·.id)) ∧ (ps.map (·.id)).Nodup ∧
      (∀ p ∈ ps, rest[p.id]? = some p.children) ∧
      ∀ p ∈ ps, (p.parent, p.id) ∈ stack ∨ ∃ q ∈ ps, p.parent = some q.id ∧ p.id ∈ q.children := by
  induction rest, stack using unfold_induction generalizing ps with
  | nil rest =>
    rw [unfold] at h
    obtain rfl := Except.ok.inj h
    exact ⟨.nil, .nil, by simp, by simp⟩
  | unplaced rest parent id stack unknown =>
    rw [unfold_unplaced unknown] at h
    cases h
  | placed rest parent id stack children known ih =>
    rw [unfold_placed known] at h
    obtain ⟨ps', hok, rfl⟩ := Except.map_eq_ok h
    have hs' : ∀ (x : NodeId) cs, (rest.erase id)[x]? = some cs → rest[x]? = some cs := by
      intro x cs hx
      rw [ExtTreeMap.getElem?_erase] at hx
      split at hx
      · cases hx
      · exact hx
    obtain ⟨hl, hn, hc, hp⟩ := ih (fun x cs hx => hs x cs (hs' x cs hx)) hok
    have hnew : id ∉ ps'.map (·.id) := fun hmem => by
      obtain ⟨q, hq, rfl⟩ := List.mem_map.1 hmem
      have hq' := hc q hq
      rw [ExtTreeMap.getElem?_erase_self] at hq'
      cases hq'
    refine ⟨?_, List.nodup_cons.2 ⟨hnew, hn⟩, ?_, ?_⟩
    · rw [List.map_append, List.map_map] at hl
      obtain ⟨below, right, he, hdown, hright⟩ := hl.of_append
      rw [List.map_cons, List.map_cons, he]
      refine .cons (hs id children known) ?_ hright
      simpa [Function.comp_def] using hdown
    · intro p hmem
      rcases List.mem_cons.1 hmem with rfl | hmem
      · exact known
      · exact hs' _ _ (hc p hmem)
    · intro p hmem
      rcases List.mem_cons.1 hmem with rfl | hmem
      · exact .inl List.mem_cons_self
      · rcases hp p hmem with hst | ⟨q, hq, hpq⟩
        · rcases List.mem_append.1 hst with hch | hst
          · obtain ⟨c, hcm, heq⟩ := List.mem_map.1 hch
            obtain ⟨hpar, rfl⟩ := Prod.mk.inj heq
            exact .inr ⟨_, List.mem_cons_self, hpar.symm, hcm⟩
          · exact .inl (List.mem_cons_of_mem _ hst)
        · exact .inr ⟨q, List.mem_cons_of_mem _ hq, hpq⟩

/-- An unfolding that succeeds places everything at or below its root once. -/
theorem unfoldFrom_ok {root : NodeId} (h : graph.unfoldFrom root = .ok ps) :
    Unfolds (fun x => graph[x]?) root ps := by
  obtain ⟨hl, hn, hc, hp⟩ := unfold_ok (fun _ _ h => h) h
  refine ⟨hl, hn, hc, fun p hmem => (hp p hmem).imp_left fun hst => ?_⟩
  exact Prod.mk.inj (List.mem_singleton.1 hst)

/-- A stack that has a layout without repetition is unfolded, as long as the graph still has all
    that the layout lists. -/
theorem exists_unfold_eq_ok {l : List NodeId}
    (h : Layout (fun x => graph[x]?) (stack.map (·.2)) l) (nd : l.Nodup)
    (hs : ∀ x ∈ l, rest[x]? = graph[x]?) : ∃ ps, graph.unfold rest stack = .ok ps := by
  induction rest, stack using unfold_induction generalizing l with
  | nil rest => exact ⟨[], by rw [unfold]⟩
  | unplaced rest parent id stack unknown =>
    have hid : id ∈ l := h.stack_subset List.mem_cons_self
    obtain ⟨cs, known⟩ := h.known_of_mem hid
    rw [← hs id hid, unknown] at known
    cases known
  | placed rest parent id stack children known ih =>
    have hid : id ∈ l := h.stack_subset List.mem_cons_self
    rw [hs id hid] at known
    cases h with
    | @cons _ cs _ below right known' down across =>
      obtain rfl := Option.some.inj (known.symm.trans known')
      obtain ⟨hnew, nd'⟩ := List.nodup_cons.1 nd
      have hlayout : Layout (fun x => graph[x]?)
          ((children.map (some id, ·) ++ stack).map (·.2)) (below ++ right) := by
        rw [List.map_append, List.map_map]
        refine .append ?_ across
        simpa [Function.comp_def] using down
      obtain ⟨ps, hps⟩ := ih hlayout nd' fun x hx => by
        have hne : id ≠ x := fun he => hnew (he ▸ hx)
        rw [ExtTreeMap.getElem?_erase, if_neg (by simpa using hne)]
        exact hs x (List.mem_cons_of_mem id hx)
      rw [unfold_placed ((hs id hid).trans known), hps]
      exact ⟨_, rfl⟩

end ChildGraph

end AccessBridge
