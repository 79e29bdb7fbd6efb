import AccessBridge.Proofs.Tree.Invariant

/-!
# Taking a subtree out

A node that is removed takes along what is below it and nothing else. `Tree.CutOut` says what that
leaves: the pre-order without one block, one child list without one entry, and every other node as
it was. A live node other than the root is always removed, with that outcome
(`Reachable.remove_cuts_out`).
-/

namespace AccessBridge.Tree

open Relation

variable {t t' : Tree} {l removed : List NodeId} {id x : NodeId}

/-- `t'` is `t` without the subtree of `id`, whose nodes are `removed`, descendants first. -/
structure CutOut (t : Tree) (id : NodeId) (removed : List NodeId) (t' : Tree) : Prop where
  once : removed.Nodup
  subtree : ∀ x, x ∈ removed ↔ ReflTransGen (IsChild t.children?) id x
  /-- No node is listed before one that is below it. -/
  below_first : removed.Pairwise fun x y => ¬ TransGen (IsChild t.children?) x y
  head : removed.reverse.head? = some id
  block : ∃ A C, t.preorder = A ++ removed.reverse ++ C ∧ t'.preorder = A ++ C
  live : ∀ x, t'.contains x = true ↔ t.contains x = true ∧ x ∉ removed
  /-- The former parent stays, and its other children keep their order. -/
  parent : ∃ p cs ds, t.parent? id = some p ∧ t'.contains p = true ∧ id ∉ cs ++ ds ∧
    t.children? p = some (cs ++ id :: ds) ∧ t'.children? p = some (cs ++ ds)
  kept : ∀ x, t'.contains x = true → t'.node? x = t.node? x ∧ t'.parent? x = t.parent? x ∧
    (t.parent? id ≠ some x → t'.children? x = t.children? x)
  root : t'.root = t.root
  focus : t'.focus = t.focus.filter (· ∉ removed)
  toolkit : t'.toolkit = t.toolkit

theorem exists_remove_eq_ok (live : t.contains id = true) (hr : id ≠ t.root) :
    ∃ r, t.remove id = .ok r := by
  obtain ⟨e, he⟩ := contains_iff.1 live
  unfold remove tryRemove
  rw [if_neg hr, he]
  exact ⟨_, rfl⟩

/-- Focus is lost just in case its holder is taken out. -/
theorem Arranged.focus_remove (h : t.Arranged l) (hok : t.remove id = .ok (removed, t')) :
    t'.focus = t.focus.filter (· ∉ removed) := by
  obtain ⟨-, -, -, -, -, hfocus, -⟩ := remove_eq_ok hok
  rw [hfocus]
  cases hf : t.focus with
  | none => rfl
  | some x =>
    have live := (h.live x).1 (h.focus x hf)
    have hx : t'.contains x = decide (x ∉ removed) := by
      rw [Bool.eq_iff_iff, contains_remove hok, decide_eq_true_iff, and_iff_right live]
    rw [Option.filter_some, Option.filter_some, hx]

theorem Arranged.cutOut (h : t.Arranged l) (hok : t.remove id = .ok (removed, t')) :
    t.CutOut id removed t' := by
  obtain ⟨hr, live, -, -, hroot, -, htoolkit⟩ := remove_eq_ok hok
  obtain ⟨q, cs, ds, b', hg⟩ := h.hangs ((h.live id).2 live) hr
  obtain ⟨A, b, C, rfl, hb, rfl, h'⟩ := h.remove hok
  obtain rfl := hb.unique hg.block
  have nd : b.Nodup := (List.nodup_append'.1 (List.nodup_append'.1 h.nodup).1).2.1
  have hq : q ∉ b.reverse := fun hq => hg.parent_outside (List.mem_reverse.1 hq)
  constructor
  case once => exact List.nodup_reverse.2 nd
  case subtree =>
    intro x
    rw [List.mem_reverse, hb.mem_singleton_iff]
  case below_first => exact List.pairwise_reverse.2 (hb.pairwise_not_below nd)
  case head =>
    obtain ⟨_, below, -, -, rfl⟩ := Layout.singleton_iff.1 hb
    simp
  case block => exact ⟨A, C, by rw [h.preorder_eq, List.reverse_reverse], h'.preorder_eq⟩
  case live => exact fun x => contains_remove hok
  case parent =>
    refine ⟨q, cs, ds, hg.parent, ?_, hg.notMem_siblings, hg.listed, ?_⟩
    · exact (contains_remove hok).2 ⟨(h.live q).1 hg.parent_mem, hq⟩
    · rw [children?_remove hok, if_neg hq, hg.unlinked_parent]
  case kept =>
    intro x hx
    have hout : x ∉ b.reverse := ((contains_remove hok).1 hx).2
    rw [node?_remove hok, parent?_remove hok, children?_remove hok, if_neg hout, if_neg hout,
      if_neg hout]
    exact ⟨rfl, rfl, fun hne => hg.unlinked_of_ne fun he => hne (he ▸ hg.parent)⟩
  case root => exact hroot
  case focus => exact h.focus_remove hok
  case toolkit => exact htoolkit

/-- **A removal takes out one subtree.** Every live node of a reachable tree but the root is removed
    when that is asked for; it leaves with its subtree as one block of the pre-order, listed
    backwards, and nothing else changes but the child list that it was in and the focus of the
    nodes that left. -/
theorem Reachable.remove_cuts_out (h : t.Reachable) (live : t.contains id = true)
    (hr : id ≠ t.root) :
    ∃ removed t', t.remove id = .ok (removed, t') ∧ t.CutOut id removed t' := by
  obtain ⟨l, hl⟩ := h.arranged
  obtain ⟨⟨removed, t'⟩, hok⟩ := exists_remove_eq_ok live hr
  exact ⟨removed, t', hok, hl.cutOut hok⟩

/-- The frontmost child of a removed node holds focus; the node leaves a sibling behind. -/
theorem remove_cuts_out_focused :
    let t := (((((ofRoot {}).step (.insert ⟨0⟩ ⟨1⟩ {})).step (.insert ⟨0⟩ ⟨2⟩ {})).step
      (.insert ⟨1⟩ ⟨3⟩ {})).step (.insert ⟨1⟩ ⟨4⟩ {})).step (.setFocus (some ⟨4⟩))
    t.Reachable ∧ t.contains ⟨1⟩ = true ∧ ⟨1⟩ ≠ t.root ∧
      ∃ t', t.remove ⟨1⟩ = .ok ([⟨4⟩, ⟨3⟩, ⟨1⟩], t') ∧ t'.preorder = [⟨0⟩, ⟨2⟩] ∧
        t'.focus = none ∧ t.CutOut ⟨1⟩ [⟨4⟩, ⟨3⟩, ⟨1⟩] t' := by
  intro t
  have ht : t.Reachable := (((((Reachable.ofRoot {}).step _).step _).step _).step _).step _
  have live : t.contains ⟨1⟩ = true := by decide +kernel
  have hr : (⟨1⟩ : NodeId) ≠ t.root := by decide +kernel
  have hrun : (t.remove ⟨1⟩).map (fun r => (r.1, r.2.preorder, r.2.focus)) =
      .ok ([⟨4⟩, ⟨3⟩, ⟨1⟩], [⟨0⟩, ⟨2⟩], none) := by decide +kernel
  obtain ⟨removed, t', hok, hcut⟩ := ht.remove_cuts_out live hr
  rw [hok] at hrun
  obtain ⟨rfl, hpre, hfocus⟩ : removed = [⟨4⟩, ⟨3⟩, ⟨1⟩] ∧ t'.preorder = [⟨0⟩, ⟨2⟩] ∧
      t'.focus = none := by simpa [Except.map] using hrun
  exact ⟨ht, live, hr, t', hok, hpre, hfocus, hcut⟩

end AccessBridge.Tree
