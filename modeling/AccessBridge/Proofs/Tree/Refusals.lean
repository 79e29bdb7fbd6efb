import AccessBridge.Proofs.Tree.Acceptance
import AccessBridge.Proofs.Tree.Raising

/-!
# What refusals say

A refused change names a node and says what is wrong with it. `Tree.Justified` is what makes that
true: an unknown node is needed and missing, a duplicate is to be inserted and live, an id out of
range is to be inserted or described and too large, the root is the root and to be removed, and a
node in a cycle would be below itself or in two places if the change were carried out. On a
reachable tree every refusal is justified but one: who raises the root is told that it is unknown,
although it is live. And what would justify a refusal leads to one (`Reachable.refusals_justified`).

The guard of a move climbs parent links in the tree as it is. That the move would close a cycle is
a fact about the child lists that it would leave (`relinked`): the way down from the node to its new
parent is still there when the node has left its old place, because no step of it leads back to the
node.
-/

namespace AccessBridge.Tree

open Relation

variable {t t' : Tree} {l : List NodeId} {id parent newParent p c x : NodeId} {index : Nat}
  {at? : Option Nat} {node : Node} {u : TreeUpdate} {e : Edit} {err : TreeError}

/-! ## Justified refusals -/

/-- The child lists that a move leaves, whether it is allowed or not. -/
def relinked (t : Tree) (id newParent : NodeId) (at? : Option Nat) (x : NodeId) :
    Option (List NodeId) :=
  (t.unlinked id x).map fun cs =>
    if x = newParent then cs.insertIdx (min (at?.getD cs.length) cs.length) id else cs

/-- The change describes `x` anew. -/
def Edit.Describes : Edit → NodeId → Prop
  | .update u, x => x ∈ u.ids
  | _, _ => False

/-- The change inserts `x`. -/
def Edit.Inserts : Edit → NodeId → Prop
  | .insert _ id _, x | .insertAt _ _ id _, x => x = id
  | _, _ => False

/-- The change takes `x` for a node of the tree. An update does so with all ids that the child
    lists lead to from the new root. -/
def Needs (t : Tree) : Edit → NodeId → Prop
  | .insert parent _ _, x | .insertAt parent _ _ _, x => x = parent
  | .remove id, x | .raise id, x => x = id
  | .move id newParent _, x => x = id ∨ x = newParent
  | .setFocus focus, x => focus = some x
  | .update u, x => ∃ q, idAt (t.mergedChildren? u) (u.newRoot t) q = some x
  | _, _ => False

/-- The change would put `x` below itself, or in two places of the unfolding from the root. -/
inductive Tangles (t : Tree) : Edit → NodeId → Prop where
  | below {x newParent : NodeId} {at? : Option Nat}
      (cycle : TransGen (IsChild (t.relinked x newParent at?)) x x) :
      Tangles t (.move x newParent at?) x
  | twice {u : TreeUpdate} {x : NodeId} {q r : List Nat} (apart : q ≠ r)
      (first : idAt (t.mergedChildren? u) (u.newRoot t) q = some x)
      (second : idAt (t.mergedChildren? u) (u.newRoot t) r = some x) : Tangles t (.update u) x

/-- What a refusal says of the tree and the change is true. -/
def Justified (t : Tree) (e : Edit) : TreeError → Prop
  | .unknownNode x => t.Needs e x ∧ ¬ t.contains x = true ∧ ¬ e.Describes x
  | .duplicateId x => e.Inserts x ∧ t.contains x = true
  | .idOutOfRange x => (e.Inserts x ∨ e.Describes x) ∧ NodeId.maxVal < x.val
  | .cycle x => t.Tangles e x
  | .rootRemoval x => e = .remove x ∧ x = t.root

/-! ## Inserting, removing and focusing -/

theorem insertAt_eq_error (h : t.insertAt parent index id node = .error err) :
    (err = .idOutOfRange id ∧ NodeId.maxVal < id.val) ∨
      (err = .duplicateId id ∧ t.contains id = true) ∨
      (err = .unknownNode parent ∧ ¬ t.contains parent = true) := by
  unfold insertAt tryInsertAt at h
  split at h
  · rename_i hout
    exact .inl ⟨(Except.error.inj h).symm, Nat.lt_of_not_le hout⟩
  · split at h
    · rename_i hlive
      exact .inr (.inl ⟨(Except.error.inj h).symm, hlive⟩)
    · split at h
      · rename_i hnone
        exact .inr (.inr ⟨(Except.error.inj h).symm, not_contains_of_getElem?_eq_none hnone⟩)
      · cases h

/-- Both ways to insert a node are refused for the same reasons. -/
theorem justified_insertAt (hinserts : e.Inserts id) (hneeds : t.Needs e parent)
    (hnew : ¬ e.Describes parent) (h : t.insertAt parent index id node = .error err) :
    t.Justified e err := by
  rcases insertAt_eq_error h with ⟨rfl, hout⟩ | ⟨rfl, hlive⟩ | ⟨rfl, hdead⟩
  · exact ⟨.inl hinserts, hout⟩
  · exact ⟨hinserts, hlive⟩
  · exact ⟨hneeds, hdead, hnew⟩

theorem justified_remove (h : t.remove id = .error err) : t.Justified (.remove id) err := by
  unfold remove tryRemove at h
  split at h
  · rename_i hroot
    obtain rfl := Except.error.inj h
    exact ⟨rfl, hroot⟩
  · split at h
    · rename_i hnone
      obtain rfl := Except.error.inj h
      exact ⟨rfl, not_contains_of_getElem?_eq_none hnone, not_false⟩
    · cases h

theorem justified_setFocus {focus : Option NodeId} (h : t.setFocus focus = .error err) :
    t.Justified (.setFocus focus) err := by
  unfold setFocus trySetFocus at h
  split at h
  · cases h
  · split at h
    · cases h
    · rename_i hdead
      obtain rfl := Except.error.inj h
      exact ⟨rfl, hdead, not_false⟩

/-! ## Moving and raising -/

/-- A move that is carried out leaves these child lists. -/
theorem children?_eq_relinked (hok : t.move id newParent at? = .ok t') :
    t'.children? = t.relinked id newParent at? :=
  funext fun _ => children?_move hok

/-- The node leaves its parent and becomes a child of its new one. -/
theorem isChild_relinked_iff : IsChild (t.relinked id newParent at?) p c ↔
    (t.contains p = true ∧ p = newParent ∧ c = id) ∨
      (IsChild t.children? p c ∧ ¬ (t.parent? id = some p ∧ c = id)) := by
  rw [IsChild, IsChild, relinked, unlinked, contains_iff_children?]
  cases t.children? p with
  | none => simp
  | some cs =>
    simp only [Option.map_some, Option.some.injEq, exists_eq_left', exists_eq', true_and]
    have hleft : (c ∈ if t.parent? id = some p then cs.filter (· != id) else cs) ↔
        c ∈ cs ∧ ¬ (t.parent? id = some p ∧ c = id) := by
      split <;> simp [*]
    split
    · rw [List.mem_insertIdx (Nat.min_le_right _ _), hleft]
      simp [*]
    · rw [hleft]
      simp [*]

/-- To go below a node of its own subtree is to go below itself. -/
theorem Arranged.relinked_cycle (h : t.Arranged l) (hid : id ∈ l)
    (hr : ReflTransGen (IsChild t.children?) id newParent) :
    TransGen (IsChild (t.relinked id newParent at?)) id id := by
  have hdown : ∀ y, ReflTransGen (IsChild t.children?) id y →
      ReflTransGen (IsChild (t.relinked id newParent at?)) id y := by
    intro y hy
    induction hy with
    | refl => exact .refl
    | tail hup hc ih =>
      refine ih.tail (isChild_relinked_iff.2 (.inr ⟨hc, ?_⟩))
      rintro ⟨-, rfl⟩
      exact h.layout.irrefl hid (.tail' hup hc)
  have hlive := (h.live newParent).1 (h.layout.mem_of_reach hid hr)
  exact .tail' (hdown newParent hr) (isChild_relinked_iff.2 (.inl ⟨hlive, rfl, rfl⟩))

theorem Arranged.justified_move (h : t.Arranged l)
    (herr : t.move id newParent at? = .error err) : t.Justified (.move id newParent at?) err := by
  unfold Tree.move tryMove at herr
  split at herr
  · rename_i hdead
    obtain rfl := Except.error.inj herr
    exact ⟨.inl rfl, hdead, not_false⟩
  · rename_i hid
    split at herr
    · rename_i hdead
      obtain rfl := Except.error.inj herr
      exact ⟨.inr rfl, hdead, not_false⟩
    · rename_i hparent
      split at herr
      · rename_i hcycle
        obtain rfl := Except.error.inj herr
        have hid := (h.live id).2 (not_not.1 hid)
        have hparent := (h.live newParent).2 (not_not.1 hparent)
        refine .below (h.relinked_cycle hid ?_)
        rcases hcycle with hroot | hanc
        · exact hroot ▸ h.mem_iff.1 hparent
        · exact (h.isAncestorOrSelf_iff hid hparent).1 hanc
      · cases herr

/-- Raising fails for nodes without a parent only: those that are not live, and the root. -/
theorem Arranged.raise_eq_error (h : t.Arranged l) (herr : t.raise id = .error err) :
    err = .unknownNode id ∧ (id = t.root ∨ ¬ t.contains id = true) := by
  by_cases hroot : id = t.root
  · have herr' := raise_of_parent_eq_none (hroot ▸ h.parent?_root)
    exact ⟨Except.error.inj (herr.symm.trans herr'), .inl hroot⟩
  · have hdead : ¬ t.contains id = true := by
      intro hlive
      obtain ⟨t', hok⟩ := h.exists_raise_eq_ok ((h.live id).2 hlive) hroot
      cases herr.symm.trans hok
    have herr' := raise_of_parent_eq_none (parent?_eq_none_of_not_contains hdead)
    exact ⟨Except.error.inj (herr.symm.trans herr'), .inr hdead⟩

/-! ## Updates -/

/-- Only ids that neither the update nor the tree has are unknown to both together. -/
theorem mergedChildren?_eq_none_iff :
    t.mergedChildren? u x = none ↔ x ∉ u.ids ∧ ¬ t.contains x = true := by
  rw [← TreeUpdate.last?_eq_none_iff, contains_iff_children?, ← Option.ne_none_iff_exists',
    not_not, mergedChildren?]
  cases u.last? x <;> simp

theorem justified_update (h : t.update u = .error err) : t.Justified (.update u) err := by
  by_cases hr : ∀ id ∈ u.ids, id.InRange
  · rcases update_of_inRange hr with ⟨-, r, hok⟩ | ⟨q, x, err', hfirst, hrep, herr⟩
    · cases hok.symm.trans h
    · obtain rfl : err' = err := Except.error.inj (herr.symm.trans h)
      have hx : idAt (t.mergedChildren? u) (u.newRoot t) q = some x := hfirst.1.1
      rcases hrep with ⟨hnone, rfl⟩ | ⟨⟨r, hrq, hagain⟩, rfl⟩
      · obtain ⟨hids, hdead⟩ := mergedChildren?_eq_none_iff.1 hnone
        exact ⟨⟨q, hx⟩, hdead, hids⟩
      · exact .twice hrq.ne hagain hx
  · obtain ⟨A, id, B, hids, hin, hout⟩ := exists_first_out_of_range hr
    obtain rfl := Except.error.inj ((update_of_out_of_range hids hin hout).symm.trans h)
    refine ⟨.inr ?_, Nat.lt_of_not_le hout⟩
    change id ∈ u.ids
    simp [hids]

theorem isTree_of_update_ok {r : Tree × UpdateSummary} (hok : t.update u = .ok r) :
    (∀ id ∈ u.ids, id.InRange) ∧ IsTree (t.mergedChildren? u) (u.newRoot t) := by
  have hr : ∀ id ∈ u.ids, id.InRange := (update_eq_ok hok).1
  rcases update_of_inRange hr with ⟨htree, -⟩ | ⟨q, x, err, -, -, herr⟩
  · exact ⟨hr, htree⟩
  · cases hok.symm.trans herr

/-! ## What is carried out -/

theorem contains_of_needs (hok : t.apply e = .ok t') (hneeds : t.Needs e x) :
    t.contains x = true ∨ e.Describes x := by
  cases e with
  | insert parent id node | insertAt parent index id node =>
    obtain ⟨-, -, en, hen, -⟩ := insertAt_eq_ok hok
    obtain rfl : x = parent := hneeds
    exact .inl (contains_iff.2 ⟨en, hen⟩)
  | remove id =>
    obtain ⟨⟨removed, t''⟩, hrem, -⟩ := Except.map_eq_ok hok
    obtain ⟨-, hlive, -⟩ := remove_eq_ok hrem
    obtain rfl : x = id := hneeds
    exact .inl hlive
  | move id newParent at? =>
    obtain ⟨hid, hparent, -⟩ := move_eq_ok hok
    rcases hneeds with rfl | rfl
    · exact .inl hid
    · exact .inl hparent
  | raise id =>
    obtain ⟨q, -, hmove⟩ := raise_eq_ok hok
    obtain rfl : x = id := hneeds
    exact .inl (move_eq_ok hmove).1
  | setFocus focus =>
    obtain rfl : focus = some x := hneeds
    refine .inl (not_not.1 fun hdead => ?_)
    rw [apply, setFocus, trySetFocus, if_neg hdead] at hok
    cases hok
  | clearFocus | setToolkit toolkit | mapNode id f => exact hneeds.elim
  | update u =>
    obtain ⟨r, hu, -⟩ := Except.map_eq_ok hok
    obtain ⟨q, hq⟩ := hneeds
    have hknown := (isTree_of_update_ok hu).2.known q x hq
    rw [ne_eq, mergedChildren?_eq_none_iff, not_and_or, not_not, not_not] at hknown
    exact hknown.symm

theorem new_of_inserts (hok : t.apply e = .ok t') (hinserts : e.Inserts x) :
    x.InRange ∧ ¬ t.contains x = true := by
  cases e with
  | insert parent id node | insertAt parent index id node =>
    obtain ⟨hrange, hnew, -⟩ := insertAt_eq_ok hok
    obtain rfl : x = id := hinserts
    exact ⟨hrange, hnew⟩
  | remove | move | raise | setFocus | clearFocus | setToolkit | mapNode | update =>
    exact hinserts.elim

theorem inRange_of_describes (hok : t.apply e = .ok t') (hdescribes : e.Describes x) :
    x.InRange := by
  cases e with
  | update u =>
    obtain ⟨r, hu, -⟩ := Except.map_eq_ok hok
    exact (isTree_of_update_ok hu).1 x hdescribes
  | insert | insertAt | remove | move | raise | setFocus | clearFocus | setToolkit | mapNode =>
    exact hdescribes.elim

/-- A move that is carried out leaves an arranged tree, and its child lists are the ones by which
    it would have been refused. -/
theorem Arranged.not_tangles (h : t.Arranged l) (hok : t.apply e = .ok t') : ¬ t.Tangles e x := by
  intro htangles
  obtain ⟨l', h'⟩ := h.apply hok
  cases htangles with
  | below cycle =>
    rw [← children?_eq_relinked hok] at cycle
    obtain ⟨c, hc, -⟩ := TransGen.head'_iff.1 cycle
    exact h'.layout.irrefl (h'.mem_of_isChild hc).1 cycle
  | twice apart first second =>
    obtain ⟨r, hu, -⟩ := Except.map_eq_ok hok
    exact apart ((isTree_of_update_ok hu).2.once _ _ _ first second)

theorem Arranged.not_justified (h : t.Arranged l) (hok : t.apply e = .ok t') :
    ¬ t.Justified e err := by
  cases err with
  | unknownNode x =>
    rintro ⟨hneeds, hdead, hnew⟩
    exact (contains_of_needs hok hneeds).elim hdead hnew
  | duplicateId x =>
    rintro ⟨hinserts, hlive⟩
    exact (new_of_inserts hok hinserts).2 hlive
  | idOutOfRange x =>
    rintro ⟨hinserts | hdescribes, hout⟩
    · exact Nat.not_le_of_lt hout (new_of_inserts hok hinserts).1
    · exact Nat.not_le_of_lt hout (inRange_of_describes hok hdescribes)
  | cycle x => exact h.not_tangles hok
  | rootRemoval x =>
    rintro ⟨rfl, hroot⟩
    obtain ⟨⟨removed, t''⟩, hrem, -⟩ := Except.map_eq_ok hok
    exact (remove_eq_ok hrem).1 hroot

/-! ## All changes -/

/-- **Refusals tell the truth.** Whatever change of a reachable tree is refused, what the refusal
    says of the tree and the change is true, unless the root was to be raised: then the refusal
    says that the root is unknown. No change is carried out of which a refusal would be true. -/
theorem Reachable.refusals_justified (h : t.Reachable) :
    (∀ e err, t.apply e = .error err → (t.Justified e err ↔ e ≠ .raise t.root)) ∧
      t.apply (.raise t.root) = .error (.unknownNode t.root) ∧
      ∀ e err, t.Justified e err → ∃ err', t.apply e = .error err' := by
  obtain ⟨l, hl⟩ := h.arranged
  have hlive : t.contains t.root = true := (hl.live _).1 hl.root_mem
  have hraise : t.apply (.raise t.root) = .error (.unknownNode t.root) :=
    raise_of_parent_eq_none hl.parent?_root
  refine ⟨fun e err herr => ⟨?_, fun hne => ?_⟩, hraise, fun e err hj => ?_⟩
  · rintro hj rfl
    obtain rfl := Except.error.inj (hraise.symm.trans herr)
    exact hj.2.1 hlive
  · cases e with
    | insert parent id node => exact justified_insertAt rfl rfl not_false herr
    | insertAt parent index id node => exact justified_insertAt rfl rfl not_false herr
    | remove id => exact justified_remove (Except.map_eq_error herr)
    | move id newParent at? => exact hl.justified_move herr
    | raise id =>
      obtain ⟨rfl, rfl | hdead⟩ := hl.raise_eq_error herr
      · exact absurd rfl hne
      · exact ⟨rfl, hdead, not_false⟩
    | setFocus focus => exact justified_setFocus herr
    | clearFocus => cases herr
    | setToolkit toolkit => cases herr
    | mapNode id f => cases herr
    | update u => exact justified_update (Except.map_eq_error herr)
  · cases hrun : t.apply e with
    | error err' => exact ⟨err', rfl⟩
    | ok t' => exact absurd hj (hl.not_justified hrun)

/-- A move below the node's own child would close a cycle; the root of the same tree cannot be
    raised. -/
theorem refusals_justified_below_child :
    let t := ((ofRoot {}).step (.insert ⟨0⟩ ⟨1⟩ {})).step (.insert ⟨1⟩ ⟨2⟩ {})
    t.Reachable ∧ t.apply (.move ⟨1⟩ ⟨2⟩ none) = .error (.cycle ⟨1⟩) ∧
      t.Justified (.move ⟨1⟩ ⟨2⟩ none) (.cycle ⟨1⟩) ∧
      t.apply (.raise t.root) = .error (.unknownNode t.root) := by
  intro t
  have ht : t.Reachable := ((Reachable.ofRoot {}).step _).step _
  have hlive : t.contains ⟨1⟩ = true ∧ t.contains ⟨2⟩ = true := by decide +kernel
  have hcycle : t.isAncestorOrSelf ⟨1⟩ ⟨2⟩ = true := by decide +kernel
  have herr : t.apply (.move ⟨1⟩ ⟨2⟩ none) = .error (.cycle ⟨1⟩) :=
    move_of_ancestor hlive.1 hlive.2 hcycle
  have hne : Edit.move ⟨1⟩ ⟨2⟩ none ≠ .raise t.root := by
    intro heq
    cases heq
  obtain ⟨hjust, hraise, -⟩ := Reachable.refusals_justified ht
  exact ⟨ht, herr, (hjust _ _ herr).2 hne, hraise⟩

/-- A live node is refused as unknown: the root of a new tree, when it is raised. -/
theorem not_forall_unknown_not_live :
    ¬ ∀ t e x, Reachable t → t.apply e = .error (.unknownNode x) → ¬ t.contains x = true := by
  intro h
  have hlive : (ofRoot {}).contains ⟨0⟩ = true := by decide +kernel
  have hnone : (ofRoot {}).parent? ⟨0⟩ = none := by decide +kernel
  have herr : (ofRoot {}).apply (.raise ⟨0⟩) = .error (.unknownNode ⟨0⟩) :=
    raise_of_parent_eq_none hnone
  exact h (ofRoot {}) (.raise ⟨0⟩) ⟨0⟩ (.ofRoot {}) herr hlive

end AccessBridge.Tree
