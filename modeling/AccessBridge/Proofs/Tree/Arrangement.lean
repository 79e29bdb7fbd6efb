import AccessBridge.Proofs.Layout
import AccessBridge.Tree.Basic

/-!
# Arranged trees

What the tree store keeps true of itself. A tree is arranged by `l` when its child lists unfold
from the root to `l`, `l` names each live node once, and the parent links, the id range and the
focus agree with that. The local facts (who has which parent, how often a node is listed) and the
global ones (reachability, no cycle) are all read off `l`.
-/

namespace AccessBridge.Tree

open Std (ExtTreeMap)
open Relation

/-- The tree's child lists unfold from its root to `l`, which lists the live nodes. -/
structure Arranged (t : Tree) (l : List NodeId) : Prop where
  layout : Layout t.children? [t.root] l
  nodup : l.Nodup
  live : ∀ x, x ∈ l ↔ t.contains x = true
  parent : ∀ p c, t.parent? c = some p ↔ IsChild t.children? p c
  inRange : ∀ x ∈ l, x.InRange
  focus : ∀ x, t.focus = some x → x ∈ l

variable {t t' : Tree} {l : List NodeId} {a c p q x : NodeId}

/-! ## Views of an entry -/

theorem contains_iff_children? : t.contains x = true ↔ ∃ cs, t.children? x = some cs := by
  rw [contains_iff]
  constructor
  · rintro ⟨e, he⟩
    exact ⟨e.children, by rw [children?, he]; rfl⟩
  · rintro ⟨cs, hcs⟩
    obtain ⟨e, he, -⟩ := Option.map_eq_some_iff.1 hcs
    exact ⟨e, he⟩

theorem getElem?_eq_none_of_not_contains (h : ¬ t.contains x = true) : t.entries[x]? = none := by
  rw [contains_iff] at h
  exact Option.eq_none_iff_forall_ne_some.2 fun e he => h ⟨e, he⟩

theorem not_contains_of_getElem?_eq_none (h : t.entries[x]? = none) : ¬ t.contains x = true := by
  intro hlive
  obtain ⟨e, he⟩ := contains_iff.1 hlive
  exact Option.some_ne_none e (he.symm.trans h)

theorem parent?_eq_none_of_not_contains (h : ¬ t.contains x = true) : t.parent? x = none := by
  rw [parent?, getElem?_eq_none_of_not_contains h, Option.bind_none]

theorem children?_of_map {f : Entry → Entry} {k : List NodeId → List NodeId}
    (h : t'.entries[x]? = t.entries[x]?.map f) (hf : ∀ e, (f e).children = k e.children) :
    t'.children? x = (t.children? x).map k := by
  rw [children?, h, Option.map_map, children?, Option.map_map]
  exact Option.map_congr fun e _ => hf e

theorem parent?_of_map {f : Entry → Entry} (h : t'.entries[x]? = t.entries[x]?.map f)
    (hf : ∀ e, (f e).parent = e.parent) : t'.parent? x = t.parent? x := by
  rw [parent?, h, Option.bind_map]
  exact Option.bind_congr fun e _ => hf e

theorem node?_of_map {f : Entry → Entry} (h : t'.entries[x]? = t.entries[x]?.map f)
    (hf : ∀ e, (f e).node = e.node) : t'.node? x = t.node? x := by
  rw [node?, h, Option.map_map, node?]
  exact Option.map_congr fun e _ => hf e

/-- An entry is its node, its parent and its children. -/
theorem getElem?_eq_of_views (hn : t.node? x = t'.node? x)
    (hp : t.parent? x = t'.parent? x) (hc : t.children? x = t'.children? x) :
    t.entries[x]? = t'.entries[x]? := by
  unfold node? at hn
  unfold parent? at hp
  unfold children? at hc
  cases he : t.entries[x]? with
  | none =>
    cases he' : t'.entries[x]? with
    | none => rfl
    | some e' => simp [he, he'] at hn
  | some e =>
    cases he' : t'.entries[x]? with
    | none => simp [he, he'] at hn
    | some e' =>
      obtain ⟨_, _, _⟩ := e
      obtain ⟨_, _, _⟩ := e'
      simp_all

/-- A tree is what it says about each node, its root, its focus and its toolkit. -/
theorem eq_of_views (hn : ∀ x, t.node? x = t'.node? x) (hp : ∀ x, t.parent? x = t'.parent? x)
    (hc : ∀ x, t.children? x = t'.children? x) (hr : t.root = t'.root) (hf : t.focus = t'.focus)
    (hk : t.toolkit = t'.toolkit) : t = t' :=
  Tree.ext (fun x => getElem?_eq_of_views (hn x) (hp x) (hc x)) hr hf hk

theorem contains_of_isChild (h : IsChild t.children? p c) : t.contains p = true := by
  obtain ⟨cs, known, -⟩ := h
  exact contains_iff_children?.2 ⟨cs, known⟩

/-! ## Reading an arrangement -/

namespace Arranged

theorem root_mem (h : t.Arranged l) : t.root ∈ l :=
  h.layout.stack_subset List.mem_cons_self

theorem mem_iff (h : t.Arranged l) : x ∈ l ↔ ReflTransGen (IsChild t.children?) t.root x :=
  h.layout.mem_singleton_iff

theorem mem_of_isChild (h : t.Arranged l) (hc : IsChild t.children? p c) : p ∈ l ∧ c ∈ l := by
  have hp := (h.live p).2 (contains_of_isChild hc)
  exact ⟨hp, h.layout.mem_of_isChild hp hc⟩

/-- What is above a node of the arrangement is part of it. -/
theorem mem_of_reach (h : t.Arranged l) (hx : x ∈ l)
    (hr : ReflTransGen (IsChild t.children?) a x) : a ∈ l := by
  rcases hr.cases_head with rfl | ⟨c, hc, -⟩
  · exact hx
  · exact (h.mem_of_isChild hc).1

/-- No node is below its child. -/
theorem not_reach_parent (h : t.Arranged l) (hc : IsChild t.children? p c) :
    ¬ ReflTransGen (IsChild t.children?) c p := fun hr =>
  h.layout.irrefl (h.mem_of_isChild hc).2 (.tail' hr hc)

theorem parent?_root (h : t.Arranged l) : t.parent? t.root = none := by
  refine Option.eq_none_iff_forall_ne_some.2 fun p hp => ?_
  have hc := (h.parent p t.root).1 hp
  exact h.layout.not_isChild_of_mem_stack h.nodup List.mem_cons_self (h.mem_of_isChild hc).1 hc

theorem exists_parent (h : t.Arranged l) (hx : x ∈ l) (hr : x ≠ t.root) :
    ∃ p, t.parent? x = some p := by
  obtain ⟨p, -, hc⟩ := h.layout.exists_parent hx (by simpa using hr)
  exact ⟨p, (h.parent p x).2 hc⟩

/-- As many ids are listed as nodes are live. -/
theorem size_eq (h : t.Arranged l) : t.size = l.length := by
  have hk : t.entries.keys.Nodup := ExtTreeMap.nodup_keys
  have hp : t.entries.keys.Perm l :=
    (List.perm_ext_iff_of_nodup hk h.nodup).2 fun x => by
      rw [ExtTreeMap.mem_keys, h.live x]
      rfl
  rw [← hp.length_eq, ExtTreeMap.length_keys]
  rfl

/-- No block is longer than the whole layout. -/
theorem block_length_le {b : List NodeId} (h : t.Arranged l) (hx : x ∈ l)
    (hb : Layout t.children? [x] b) : b.length ≤ t.size := by
  obtain ⟨b', hb', hi⟩ := h.layout.exists_block hx
  rw [h.size_eq, hb.unique hb']
  exact hi.length_le

end Arranged

end AccessBridge.Tree
