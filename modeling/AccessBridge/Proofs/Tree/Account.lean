import AccessBridge.Proofs.Tree.Invariant
import Mathlib.Data.List.Sort

/-!
# The account of an update

Whoever applies an update is told by its summary what to look at again. `Tree.Accounts` is what a
summary owes: the ids that went, the described ids that are live, in the order in which the update
first comes to them, and the rest of the change; a node that it does not name is as it was. No two
summaries of one change owe less than the other (`Accounts.unique`).

The summary is made up while the tree changes: from the walk, from the descriptions as they are
taken one after the other, and from the root that is installed. The walk has reached just what is
live afterwards (`Tree.contains_reached`), and each description is taken once, where its id occurs
first (`TreeUpdate.pairwise_takeDescribed`); so an accepted update gives such a summary
(`update_accounts`).
-/

namespace AccessBridge

open Std (ExtTreeMap ExtTreeSet)
open scoped List

/-! ## Descriptions as they are taken -/

namespace TreeUpdate

variable {reached : ExtTreeSet NodeId} {incoming : ExtTreeMap NodeId ToolkitNode}
  {order : List NodeId} {x : NodeId}

theorem mem_takeDescribed : x ∈ takeDescribed reached incoming order ↔
    x ∈ order ∧ incoming.contains x = true ∧ reached.contains x = true := by
  induction order generalizing incoming with
  | nil => simp [takeDescribed]
  | cons id order ih =>
    rw [takeDescribed]
    split
    · rename_i hin
      have hrest : x ∈ takeDescribed reached (incoming.erase id) order ↔
          x ∈ order ∧ (x ≠ id ∧ incoming.contains x = true) ∧ reached.contains x = true := by
        rw [ih]
        simp [ne_comm]
      by_cases hx : x = id
      · subst hx
        dsimp only
        split <;> rename_i hreached <;> simp [hrest, hin, hreached]
      · dsimp only
        split <;> simp [hrest, hx]
    · rename_i hout
      rw [ih, List.mem_cons]
      constructor
      · exact fun h => ⟨.inr h.1, h.2⟩
      · rintro ⟨rfl | hmem, hin, hreached⟩
        · exact absurd hin hout
        · exact ⟨hmem, hin, hreached⟩

/-- An id takes its description where it occurs first. -/
theorem pairwise_takeDescribed : (takeDescribed reached incoming order).Pairwise
    fun x y => order.idxOf x < order.idxOf y := by
  induction order generalizing incoming with
  | nil => exact .nil
  | cons id order ih =>
    -- Behind an id whose description is gone, everything comes one place later.
    have hlater : ∀ incoming : ExtTreeMap NodeId ToolkitNode, incoming.contains id = false →
        (takeDescribed reached incoming order).Pairwise
          (fun x y => (id :: order).idxOf x < (id :: order).idxOf y) ∧
        ∀ y ∈ takeDescribed reached incoming order,
          (id :: order).idxOf id < (id :: order).idxOf y := by
      intro incoming gone
      have hidx : ∀ y ∈ takeDescribed reached incoming order,
          (id :: order).idxOf y = order.idxOf y + 1 := by
        intro y hy
        apply List.idxOf_cons_ne
        rintro rfl
        cases gone.symm.trans (mem_takeDescribed.1 hy).2.1
      constructor
      · refine ih.imp_of_mem fun hx hy hlt => ?_
        rw [hidx _ hx, hidx _ hy]
        exact Nat.succ_lt_succ hlt
      · intro y hy
        rw [hidx y hy, List.idxOf_cons_self]
        exact Nat.succ_pos _
    rw [takeDescribed]
    split
    · obtain ⟨hrest, hfirst⟩ := hlater (incoming.erase id) (by simp)
      dsimp only
      split
      · exact .cons hfirst hrest
      · exact hrest
    · rename_i hout
      exact (hlater incoming (Bool.eq_false_iff.2 hout)).1

theorem contains_described {u : TreeUpdate} : u.described.contains x = true ↔ x ∈ u.ids := by
  rw [ExtTreeMap.contains_eq_isSome_getElem?, getElem?_described, ← not_iff_not,
    Option.not_isSome_iff_eq_none, last?_eq_none_iff]

end TreeUpdate

namespace Tree

variable {t t' : Tree} {u : TreeUpdate} {ps : List Placement} {s s' : UpdateSummary} {x : NodeId}

/-- `s` accounts for all that the update `u` did when it made `t'` of `t`. -/
structure Accounts (t : Tree) (u : TreeUpdate) (s : UpdateSummary) (t' : Tree) : Prop where
  removed_once : s.removed.Nodup
  removed : ∀ x, x ∈ s.removed ↔ t.contains x = true ∧ ¬ t'.contains x = true
  updated_once : s.updated.Nodup
  updated : ∀ x, x ∈ s.updated ↔ x ∈ u.ids ∧ t'.contains x = true
  /-- What is named earlier is described earlier for the first time. -/
  updated_order : s.updated.Pairwise fun x y => u.ids.idxOf x < u.ids.idxOf y
  /-- What is live all the time and not named has its attributes and children still. -/
  kept : ∀ x, t.contains x = true → t'.contains x = true → x ∉ s.updated →
    t'.node? x = t.node? x ∧ t'.children? x = t.children? x
  oldFocus : s.oldFocus = t.focus
  newFocus : s.newFocus = t'.focus
  rootChanged : s.rootChanged = true ↔ t'.root ≠ t.root

theorem mem_updated (h : Unfolds (t.mergedChildren? u) (u.newRoot t) ps) :
    x ∈ (t.summary u ps).updated ↔ x ∈ u.ids ∧ (t.replaced u ps).contains x = true := by
  rw [summary, TreeUpdate.mem_takeDescribed, TreeUpdate.contains_described, contains_reached h,
    and_self_left]

theorem mem_removed (h : Unfolds (t.mergedChildren? u) (u.newRoot t) ps) :
    x ∈ (t.summary u ps).removed ↔
      t.contains x = true ∧ ¬ (t.replaced u ps).contains x = true := by
  rw [summary, List.mem_filter, ExtTreeMap.mem_keys, contains_reached h, Bool.not_eq_true',
    Bool.not_eq_true]
  rfl

/-- What the walk, the descriptions taken and the new root have told accounts for the change. -/
theorem accounts_summary (h : Unfolds (t.mergedChildren? u) (u.newRoot t) ps) :
    t.Accounts u (t.summary u ps) (t.replaced u ps) := by
  have horder : (t.summary u ps).updated.Pairwise fun x y => u.ids.idxOf x < u.ids.idxOf y :=
    TreeUpdate.pairwise_takeDescribed
  have hkeys : t.entries.keys.Nodup := ExtTreeMap.nodup_keys
  constructor
  case removed_once => exact hkeys.filter _
  case removed => exact fun x => mem_removed h
  case updated_once => exact horder.imp fun {x y} hlt (he : x = y) => Nat.lt_irrefl _ (he ▸ hlt)
  case updated => exact fun x => mem_updated h
  case updated_order => exact horder
  case kept =>
    intro x _ hx hn
    cases hl : u.last? x with
    | some n => exact absurd ((mem_updated h).2 ⟨TreeUpdate.mem_ids_of_last? hl, hx⟩) hn
    | none => exact ((updatedBy_replaced h).kept x hx hl).2
  case oldFocus => rfl
  case newFocus => rfl
  case rootChanged => exact decide_eq_true_iff

/-- Which descriptions have been put to use, and in which order, depends on the update and on the
    tree that it leaves. -/
theorem Accounts.updated_eq {t₁ : Tree} (h : t₁.Accounts u s' t') (h' : t.Accounts u s t') :
    s'.updated = s.updated := by
  have : Std.Antisymm fun x y => u.ids.idxOf x < u.ids.idxOf y :=
    ⟨fun _ _ hlt hgt => absurd hlt (Nat.lt_asymm hgt)⟩
  have : Std.Irrefl fun x y => u.ids.idxOf x < u.ids.idxOf y := ⟨fun _ => Nat.lt_irrefl _⟩
  refine h.updated_order.eq_of_mem_iff h'.updated_order fun x => ?_
  rw [h.updated, h'.updated]

/-- An account leaves nothing open but the order in which the removed ids are listed. -/
theorem Accounts.unique (h : t.Accounts u s t') (h' : t.Accounts u s' t') :
    s'.updated = s.updated ∧ s'.removed ~ s.removed ∧ s'.oldFocus = s.oldFocus ∧
      s'.newFocus = s.newFocus ∧ s'.rootChanged = s.rootChanged := by
  refine ⟨h'.updated_eq h, ?_, h'.oldFocus.trans h.oldFocus.symm,
    h'.newFocus.trans h.newFocus.symm, ?_⟩
  · refine (List.perm_ext_iff_of_nodup h'.removed_once h.removed_once).2 fun x => ?_
    rw [h'.removed, h.removed]
  · rw [Bool.eq_iff_iff, h'.rootChanged, h.rootChanged]

/-- **The summary of an update accounts for the change.** Whatever an accepted update describes, how
    often and in which order, its summary is right about what came of it, and no other summary
    is. -/
theorem update_accounts (h : t.update u = .ok (t', s)) :
    t.Accounts u s t' ∧ ∀ s', t.Accounts u s' t' →
      s'.updated = s.updated ∧ s'.removed ~ s.removed ∧ s'.oldFocus = s.oldFocus ∧
        s'.newFocus = s.newFocus ∧ s'.rootChanged = s.rootChanged := by
  obtain ⟨-, ps, hps, rfl, rfl⟩ := update_eq_ok h
  have hs := accounts_summary hps
  exact ⟨hs, fun s' hs' => hs.unique hs'⟩

/-- The new root is described twice, another node hangs nowhere, one is only listed as a child, and
    the node that held focus is dropped. -/
theorem update_accounts_rerooted :
    let t := (((ofRoot {}).step (.insert ⟨0⟩ ⟨1⟩ {})).step (.insert ⟨0⟩ ⟨2⟩ {})).step
      (.setFocus (some ⟨1⟩))
    let u : TreeUpdate :=
      { nodes := [(⟨5⟩, { role := "Label", children := [⟨9⟩] }), (⟨7⟩, { role := "Button" }),
          (⟨0⟩, { role := "Group" }), (⟨5⟩, { role := "Window", children := [⟨2⟩, ⟨0⟩] })]
        info := some { root := ⟨5⟩ }
        focus := ⟨2⟩ }
    let s : UpdateSummary :=
      { updated := [⟨5⟩, ⟨0⟩], removed := [⟨1⟩], oldFocus := some ⟨1⟩, newFocus := some ⟨2⟩,
        rootChanged := true }
    ∃ t', t.update u = .ok (t', s) ∧ t.Accounts u s t' := by
  intro t u s
  have hrun : (t.update u).map (·.2) = .ok s := by decide +kernel
  obtain ⟨⟨t', s'⟩, hok, rfl⟩ := Except.map_eq_ok hrun
  exact ⟨t', hok, (update_accounts hok).1⟩

end Tree

end AccessBridge
