import AccessBridge.Proofs.Tree.Walks
import AccessBridge.Tree.Edit

/-!
# Edits of an arranged tree

For each edit that succeeds: the guards that it passed, every entry that it leaves, and the
arrangement of the tree afterwards. An insertion puts one id into the arrangement, a removal
takes the block of the removed node out, and a move takes it out and puts it in elsewhere.
-/

namespace AccessBridge.Tree

open Std (ExtTreeMap)
open Relation
open scoped List

variable {t t' : Tree} {l : List NodeId} {id parent p q c x : NodeId} {index : Nat} {node : Node}

/-- Inserting at a position splits the list there. -/
theorem exists_split_insertIdx {α : Type} (l : List α) (a : α) {k : Nat} (hk : k ≤ l.length) :
    ∃ cs ds, l = cs ++ ds ∧ cs.length = k ∧ l.insertIdx k a = cs ++ a :: ds := by
  induction l generalizing k with
  | nil =>
    obtain rfl := Nat.le_zero.1 hk
    exact ⟨[], [], rfl, rfl, rfl⟩
  | cons b l ih =>
    cases k with
    | zero => exact ⟨[], b :: l, rfl, rfl, rfl⟩
    | succ k =>
      obtain ⟨cs, ds, rfl, rfl, hi⟩ := ih (Nat.le_of_succ_le_succ hk)
      exact ⟨b :: cs, ds, rfl, rfl, by rw [List.insertIdx_succ_cons, hi]; rfl⟩

/-- Filtering out the only occurrence closes the gap. -/
theorem filter_bne_middle {α : Type} [DecidableEq α] {a : α} {cs ds : List α}
    (ha : a ∉ cs ++ ds) : (cs ++ a :: ds).filter (· != a) = cs ++ ds := by
  rw [List.filter_append, List.filter_cons_of_neg (by simp), ← List.filter_append,
    List.filter_eq_self.2]
  exact fun c hc => bne_iff_ne.2 fun he => ha (he ▸ hc)

theorem getElem?_modify_eq_map (m : ExtTreeMap NodeId Entry) (f : Entry → Entry) :
    (m.modify id f)[x]? = m[x]?.map fun e => if id = x then f e else e := by
  rw [ExtTreeMap.getElem?_modify]
  by_cases hx : id = x
  · subst hx
    simp
  · simp [hx]

/-! ## Inserting -/

theorem insertAt_eq_ok (h : t.insertAt parent index id node = .ok t') :
    id.InRange ∧ ¬ t.contains id = true ∧ ∃ e, t.entries[parent]? = some e ∧
      (∀ x, t'.entries[x]? = if x = id then some ⟨node, some parent, []⟩
        else if x = parent then some (e.addChild index id) else t.entries[x]?) ∧
      t'.root = t.root ∧ t'.focus = t.focus ∧ t'.toolkit = t.toolkit := by
  unfold insertAt tryInsertAt at h
  split at h
  · cases h
  · rename_i hr
    split at h
    · cases h
    · rename_i hc
      split at h
      · cases h
      · rename_i e he
        obtain rfl := Except.ok.inj h
        refine ⟨not_not.1 hr, hc, e, he, fun x => ?_, rfl, rfl, rfl⟩
        simp only [ExtTreeMap.getElem?_insert, NodeId.compare_eq_iff, eq_comm (b := x)]

section Insert

variable (hok : t.insertAt parent index id node = .ok t')

include hok

theorem children?_insertAt : t'.children? x = if x = id then some [] else
    (t.children? x).map fun cs =>
      if x = parent then cs.insertIdx (min index cs.length) id else cs := by
  obtain ⟨-, -, e, he, hentry, -⟩ := insertAt_eq_ok hok
  rw [children?, hentry, children?]
  split
  · rfl
  · split
    · rename_i hx
      rw [hx, he]
      rfl
    · rw [Option.map_map]
      rfl

theorem parent?_insertAt : t'.parent? x = if x = id then some parent else t.parent? x := by
  obtain ⟨-, -, e, he, hentry, -⟩ := insertAt_eq_ok hok
  rw [parent?, hentry]
  split
  · rfl
  · split
    · rename_i hx
      rw [hx, parent?, he]
      rfl
    · rfl

theorem node?_insertAt : t'.node? x = if x = id then some node else t.node? x := by
  obtain ⟨-, -, e, he, hentry, -⟩ := insertAt_eq_ok hok
  rw [node?, hentry]
  split
  · rfl
  · split
    · rename_i hx
      rw [hx, node?, he]
      rfl
    · rfl

theorem contains_insertAt : t'.contains x = true ↔ x = id ∨ t.contains x = true := by
  rw [contains_iff_children?, contains_iff_children?, children?_insertAt hok]
  split
  · simp [*]
  · cases t.children? x <;> simp [*]

end Insert

/-- A node that is inserted takes the place in the arrangement that follows from its position. -/
theorem Arranged.insertAt (h : t.Arranged l) (hok : t.insertAt parent index id node = .ok t') :
    ∃ A C, l = A ++ C ∧ t'.Arranged (A ++ [id] ++ C) := by
  obtain ⟨hrange, hfresh, e, he, -, hroot, hfocus, -⟩ := insertAt_eq_ok hok
  have hid : id ∉ l := fun hm => hfresh ((h.live id).1 hm)
  have hparent : parent ∈ l := (h.live parent).2 (contains_iff.2 ⟨e, he⟩)
  have hne : parent ≠ id := fun heq => hid (heq ▸ hparent)
  have hnil : t'.children? id = some [] := by rw [children?_insertAt hok, if_pos rfl]
  have same : ∀ x, x ≠ id → x ≠ parent → t'.children? x = t.children? x := by
    intro x hx hxp
    simp [children?_insertAt hok, hx, hxp]
  -- The new leaf is grafted into the child list where it is inserted.
  obtain ⟨es, known⟩ := h.layout.known_of_mem hparent
  obtain ⟨cs, ds, rfl, -, hins⟩ := exists_split_insertIdx es id (Nat.min_le_right index es.length)
  have known' : t'.children? parent = some (cs ++ id :: ds) := by
    rw [children?_insertAt hok, if_neg hne, known, Option.map_some, if_pos rfl, hins]
  obtain ⟨A, C, rfl, hl⟩ := h.layout.graft h.nodup hparent known known' (.leaf hnil)
    fun x hx hxp => same x (fun he => hid (he ▸ hx)) hxp
  have hold : ∀ q, ¬ IsChild t.children? q id := fun q hc => hid (h.mem_of_isChild hc).2
  have hchild : ∀ q c, IsChild t'.children? q c ↔
      (q = parent ∧ c = id) ∨ IsChild t.children? q c := by
    intro q c
    refine isChild_graft_iff known known' fun hq => ?_
    by_cases hqid : q = id
    · subst hqid
      refine iff_of_false ?_ fun hc => hid (h.mem_of_isChild hc).1
      rintro ⟨_, hcs, hc⟩
      obtain rfl := Option.some.inj (hnil.symm.trans hcs)
      cases hc
    · rw [IsChild, same q hqid hq, IsChild]
  have hmem : ∀ x, x ∈ A ++ [id] ++ C ↔ x = id ∨ x ∈ A ++ C := by
    intro x
    simp only [List.mem_append, List.mem_singleton]
    tauto
  refine ⟨A, C, rfl, hroot ▸ hl, ?_, ?_, ?_, ?_, ?_⟩
  · rw [List.append_assoc]
    exact List.nodup_middle.2 (List.nodup_cons.2 ⟨hid, h.nodup⟩)
  · intro x
    rw [hmem, h.live, contains_insertAt hok]
  · intro p c
    rw [parent?_insertAt hok, hchild, ← h.parent]
    split
    · rename_i hc
      subst hc
      simp [h.parent, hold, eq_comm]
    · simp [*]
  · intro x hx
    rcases (hmem x).1 hx with rfl | hx
    · exact hrange
    · exact h.inRange x hx
  · intro x hx
    exact (hmem x).2 (.inr (h.focus x (hfocus ▸ hx)))

/-! ## Where a node hangs -/

/-- The child lists after `id` has left its parent. -/
def unlinked (t : Tree) (id x : NodeId) : Option (List NodeId) :=
  (t.children? x).map fun cs => if t.parent? id = some x then cs.filter (· != id) else cs

/-- In a tree arranged by `l`, the node `id` heads the block `b` and hangs below `q`, with the
    siblings `cs` behind it and `ds` in front of it. -/
structure Hangs (t : Tree) (l : List NodeId) (id q : NodeId) (cs ds b : List NodeId) : Prop where
  parent : t.parent? id = some q
  listed : t.children? q = some (cs ++ id :: ds)
  once : (cs ++ id :: ds).Nodup
  block : Layout t.children? [id] b
  part : b <:+: l
  parent_mem : q ∈ l
  parent_outside : q ∉ b

/-- A node other than the root is listed once, by its parent, which is outside its block. -/
theorem Arranged.hangs (h : t.Arranged l) (hid : id ∈ l) (hr : id ≠ t.root) :
    ∃ q cs ds b, t.Hangs l id q cs ds b := by
  obtain ⟨q, hq⟩ := h.exists_parent hid hr
  have hqid : IsChild t.children? q id := (h.parent q id).1 hq
  obtain ⟨b, hb, hbl⟩ := h.layout.exists_block hid
  have hql : q ∈ l := (h.mem_of_isChild hqid).1
  have hqb : q ∉ b := fun hm => h.not_reach_parent hqid (hb.mem_singleton_iff.1 hm)
  obtain ⟨es, known, hmem⟩ := hqid
  obtain ⟨cs, ds, rfl⟩ := List.append_of_mem hmem
  exact ⟨q, cs, ds, b, hq, known, h.layout.nodup_children h.nodup hql known, hb, hbl, hql, hqb⟩

namespace Hangs

variable {cs ds b : List NodeId}

theorem notMem_siblings (h : t.Hangs l id q cs ds b) : id ∉ cs ++ ds :=
  (List.nodup_cons.1 (List.nodup_middle.1 h.once)).1

theorem unlinked_parent (h : t.Hangs l id q cs ds b) : t.unlinked id q = some (cs ++ ds) := by
  rw [unlinked, h.listed, Option.map_some, if_pos h.parent, filter_bne_middle h.notMem_siblings]

theorem unlinked_of_ne (h : t.Hangs l id q cs ds b) (hx : x ≠ q) :
    t.unlinked id x = t.children? x := by
  have hne : ¬ t.parent? id = some x := fun he => hx (Option.some.inj (he.symm.trans h.parent))
  simp [unlinked, hne]

/-- Without its place, the node is nobody's child and all else is as before. -/
theorem isChild_unlinked_iff (h : t.Hangs l id q cs ds b) :
    IsChild (t.unlinked id) p c ↔ IsChild t.children? p c ∧ ¬ (p = q ∧ c = id) :=
  isChild_cut_iff h.listed h.unlinked_parent h.once fun hp => by
    rw [IsChild, h.unlinked_of_ne hp, IsChild]

end Hangs

/-! ## Removing -/

theorem getElem?_foldl_erase {β : Type} (m : ExtTreeMap NodeId β) (xs : List NodeId) :
    (xs.foldl (fun m x => m.erase x) m)[x]? = if x ∈ xs then none else m[x]? := by
  induction xs generalizing m with
  | nil => simp
  | cons y xs ih =>
    rw [List.foldl_cons, ih, ExtTreeMap.getElem?_erase]
    simp only [NodeId.compare_eq_iff, List.mem_cons]
    grind

theorem remove_eq_ok {removed : List NodeId} (h : t.remove id = .ok (removed, t')) :
    id ≠ t.root ∧ t.contains id = true ∧ removed = t.subtreePostorder id ∧
      (∀ x, t'.entries[x]? = if x ∈ removed then none else t.entries[x]?.map fun e =>
        if t.parent? id = some x then e.dropChild id else e) ∧
      t'.root = t.root ∧ t'.focus = t.focus.filter t'.contains ∧ t'.toolkit = t.toolkit := by
  unfold remove tryRemove at h
  split at h
  · cases h
  · rename_i hr
    split at h
    · cases h
    · rename_i e he
      obtain ⟨rfl, rfl⟩ := Prod.mk.inj (Except.ok.inj h)
      refine ⟨hr, contains_iff.2 ⟨e, he⟩, rfl, fun x => ?_, rfl, rfl, rfl⟩
      rw [getElem?_foldl_erase, parent?, he, Option.bind_some]
      cases e.parent with
      | none => simp
      | some p => simp [getElem?_modify_eq_map]

section Remove

variable {removed : List NodeId} (hok : t.remove id = .ok (removed, t'))

include hok

theorem children?_remove : t'.children? x = if x ∈ removed then none else t.unlinked id x := by
  obtain ⟨-, -, -, hentry, -⟩ := remove_eq_ok hok
  split
  · rename_i hx
    rw [children?, hentry, if_pos hx, Option.map_none]
  · rename_i hx
    exact children?_of_map ((hentry x).trans (if_neg hx)) fun e => by split <;> rfl

theorem parent?_remove : t'.parent? x = if x ∈ removed then none else t.parent? x := by
  obtain ⟨-, -, -, hentry, -⟩ := remove_eq_ok hok
  split
  · rename_i hx
    rw [parent?, hentry, if_pos hx, Option.bind_none]
  · rename_i hx
    exact parent?_of_map ((hentry x).trans (if_neg hx)) fun e => by split <;> rfl

theorem node?_remove : t'.node? x = if x ∈ removed then none else t.node? x := by
  obtain ⟨-, -, -, hentry, -⟩ := remove_eq_ok hok
  split
  · rename_i hx
    rw [node?, hentry, if_pos hx, Option.map_none]
  · rename_i hx
    exact node?_of_map ((hentry x).trans (if_neg hx)) fun e => by split <;> rfl

theorem contains_remove : t'.contains x = true ↔ t.contains x = true ∧ x ∉ removed := by
  rw [contains_iff_node?, contains_iff_node?, node?_remove hok]
  split <;> simp [*]

end Remove

/-- Taking a node out takes its block out of the arrangement. -/
theorem Arranged.remove {removed : List NodeId} (h : t.Arranged l)
    (hok : t.remove id = .ok (removed, t')) :
    ∃ A b C, l = A ++ b ++ C ∧ Layout t.children? [id] b ∧ removed = b.reverse ∧
      t'.Arranged (A ++ C) := by
  obtain ⟨hnroot, hlive, hremoved, -, hroot, hfocus, -⟩ := remove_eq_ok hok
  have hid : id ∈ l := (h.live id).2 hlive
  obtain ⟨q, cs, ds, b, hg⟩ := h.hangs hid hnroot
  obtain rfl : removed = b.reverse := hremoved.trans (h.subtreePostorder_eq hid hg.block)
  have hchildren : ∀ x, t'.children? x = if x ∈ b then none else t.unlinked id x := by
    intro x
    simp only [children?_remove hok, List.mem_reverse]
  have hparents : ∀ x, t'.parent? x = if x ∈ b then none else t.parent? x := by
    intro x
    simp only [parent?_remove hok, List.mem_reverse]
  have known : t'.children? q = some (cs ++ ds) := by
    rw [hchildren, if_neg hg.parent_outside, hg.unlinked_parent]
  have hout : ∀ x ∈ l, x ∉ b → x ≠ q → t'.children? x = t.children? x := by
    intro x _ hx hxq
    rw [hchildren, if_neg hx, hg.unlinked_of_ne hxq]
  obtain ⟨A, C, rfl, hl⟩ := h.layout.cut h.nodup hg.parent_mem hg.listed known hg.block hout
  have hmem : ∀ x, x ∈ A ++ C ↔ x ∈ A ++ b ++ C ∧ x ∉ b := by
    intro x
    have := h.nodup
    grind
  have hchild : ∀ p c, IsChild t'.children? p c ↔
      p ∉ b ∧ IsChild t.children? p c ∧ ¬ (p = q ∧ c = id) := by
    intro p c
    rw [← hg.isChild_unlinked_iff, IsChild, hchildren, IsChild]
    split <;> simp [*]
  have hlive : ∀ x, x ∈ A ++ C ↔ t'.contains x = true := by
    intro x
    rw [hmem, h.live, contains_remove hok, List.mem_reverse]
  refine ⟨A, b, C, rfl, hg.block, rfl, hroot ▸ hl, ?_, hlive, ?_, ?_, ?_⟩
  · exact h.nodup.sublist ((List.sublist_append_left A b).append_right C)
  · intro p c
    rw [hparents, hchild, ← h.parent]
    split
    · -- The parent of what is taken out is taken out as well, unless it loses `id`.
      rename_i hc
      refine iff_of_false (by simp) ?_
      rintro ⟨hp, hpc, hne⟩
      by_cases hcid : c = id
      · subst hcid
        exact hne ⟨Option.some.inj (hpc.symm.trans hg.parent), rfl⟩
      · obtain ⟨p', hp', hc'⟩ := hg.block.exists_parent hc (by simpa using hcid)
        obtain rfl := Option.some.inj (((h.parent p' c).2 hc').symm.trans hpc)
        exact hp hp'
    · rename_i hc
      refine ⟨fun hpc => ⟨fun hp => ?_, hpc, ?_⟩, fun hpc => hpc.2.1⟩
      · exact hc (hg.block.mem_of_isChild hp ((h.parent p c).1 hpc))
      · rintro ⟨-, rfl⟩
        exact hc (hg.block.stack_subset List.mem_cons_self)
  · intro x hx
    exact h.inRange x ((hmem x).1 hx).1
  · intro x hx
    rw [hfocus] at hx
    exact (hlive x).2 (Option.filter_eq_some_iff.1 hx).2

/-! ## Moving -/

theorem move_of_ancestor {at? : Option Nat} (hid : t.contains id = true)
    (hparent : t.contains parent = true) (hanc : t.isAncestorOrSelf id parent = true) :
    t.move id parent at? = .error (.cycle id) := by
  rw [move, tryMove, if_neg (not_not.2 hid), if_neg (not_not.2 hparent), if_pos (.inr hanc)]
  rfl

theorem move_eq_ok {at? : Option Nat} (h : t.move id parent at? = .ok t') :
    t.contains id = true ∧ t.contains parent = true ∧ id ≠ t.root ∧
      ¬ t.isAncestorOrSelf id parent = true ∧
      (∀ x, t'.entries[x]? = t.entries[x]?.map fun e =>
        let unlinked := if t.parent? id = some x then e.dropChild id else e
        let linked := if x = parent then
          unlinked.addChild (at?.getD unlinked.children.length) id else unlinked
        if x = id then { linked with parent := some parent } else linked) ∧
      t'.root = t.root ∧ t'.focus = t.focus ∧ t'.toolkit = t.toolkit := by
  unfold move tryMove at h
  split at h
  · cases h
  · rename_i hid
    split at h
    · cases h
    · rename_i hparent
      split at h
      · cases h
      · rename_i hcycle
        obtain ⟨hroot, hanc⟩ := not_or.1 hcycle
        obtain rfl := Except.ok.inj h
        refine ⟨not_not.1 hid, not_not.1 hparent, hroot, hanc, fun x => ?_, rfl, rfl, rfl⟩
        rw [getElem?_modify_eq_map, getElem?_modify_eq_map]
        cases t.parent? id with
        | none => simp [Function.comp_def, eq_comm (b := x)]
        | some q => simp [getElem?_modify_eq_map, Function.comp_def, eq_comm (b := x)]

section Move

variable {at? : Option Nat} (hok : t.move id parent at? = .ok t')

include hok

theorem children?_move : t'.children? x = (t.unlinked id x).map fun cs =>
    if x = parent then cs.insertIdx (min (at?.getD cs.length) cs.length) id else cs := by
  obtain ⟨-, -, -, -, hentry, -⟩ := move_eq_ok hok
  rw [unlinked, Option.map_map]
  refine children?_of_map (hentry x) fun e => ?_
  simp only [Function.comp_apply, Entry.dropChild, Entry.addChild]
  split <;> split <;> split <;> rfl

theorem parent?_move : t'.parent? x = if x = id then some parent else t.parent? x := by
  obtain ⟨hid, -, -, -, hentry, -⟩ := move_eq_ok hok
  by_cases hx : x = id
  · obtain ⟨e, he⟩ := contains_iff.1 hid
    simp [parent?, hentry, hx, he]
  · rw [if_neg hx]
    refine parent?_of_map (hentry x) fun e => ?_
    simp only [if_neg hx, Entry.dropChild, Entry.addChild]
    split <;> split <;> rfl

theorem node?_move : t'.node? x = t.node? x := by
  obtain ⟨-, -, -, -, hentry, -⟩ := move_eq_ok hok
  refine node?_of_map (hentry x) fun e => ?_
  simp only [Entry.dropChild, Entry.addChild]
  split <;> split <;> split <;> rfl

theorem contains_move : t'.contains x = t.contains x := by
  rw [Bool.eq_iff_iff, contains_iff_children?, contains_iff_children?, children?_move hok, unlinked]
  cases t.children? x <;> simp

end Move

/-- A move takes the block of the node out of the arrangement and puts it in again. -/
theorem Arranged.move {at? : Option Nat} (h : t.Arranged l) (hok : t.move id parent at? = .ok t') :
    ∃ A b C A' C', l = A ++ b ++ C ∧ Layout t.children? [id] b ∧ Layout t'.children? [id] b ∧
      A ++ C = A' ++ C' ∧ t'.Arranged (A' ++ b ++ C') := by
  obtain ⟨hid, hparent, hnroot, hanc, -, hroot, hfocus, -⟩ := move_eq_ok hok
  rw [← h.live] at hid hparent
  obtain ⟨q, cs, ds, b, hg⟩ := h.hangs hid hnroot
  have hpb : parent ∉ b := fun hm =>
    hanc ((h.isAncestorOrSelf_iff hid hparent).2 (hg.block.mem_singleton_iff.1 hm))
  have hsame : ∀ x, x ≠ parent → t'.children? x = t.unlinked id x := by
    intro x hx
    simp [children?_move hok, hx]
  -- The block is cut out of the layout of the unlinked child lists, and grafted in from there.
  obtain ⟨A, C, rfl, hcut⟩ := h.layout.cut h.nodup hg.parent_mem hg.listed hg.unlinked_parent
    hg.block fun x _ _ hx => hg.unlinked_of_ne hx
  have hblock : Layout t'.children? [id] b := hg.block.congr fun x hx => by
    rw [hsame x fun he => hpb (he ▸ hx), hg.unlinked_of_ne fun he => hg.parent_outside (he ▸ hx)]
  have hp : parent ∈ A ++ C := by grind
  have nd : (A ++ C).Nodup := h.nodup.sublist ((List.sublist_append_left A b).append_right C)
  obtain ⟨es, known⟩ := hcut.known_of_mem hp
  obtain ⟨cs', ds', rfl, -, hins⟩ :=
    exists_split_insertIdx es id (Nat.min_le_right (at?.getD es.length) es.length)
  have known' : t'.children? parent = some (cs' ++ id :: ds') := by
    rw [children?_move hok, known, Option.map_some, if_pos rfl, hins]
  obtain ⟨A', C', hAC, hl⟩ := hcut.graft nd hp known known' hblock fun x _ hx => hsame x hx
  have hperm : A' ++ b ++ C' ~ A ++ b ++ C :=
    calc A' ++ b ++ C'
      _ ~ b ++ A' ++ C' := List.perm_append_comm.append_right _
      _ = b ++ A ++ C := by rw [List.append_assoc, ← hAC, ← List.append_assoc]
      _ ~ A ++ b ++ C := List.perm_append_comm.append_right _
  refine ⟨A, b, C, A', C', rfl, hg.block, hblock, hAC, hroot ▸ hl, hperm.nodup_iff.2 h.nodup, ?_,
    ?_, ?_, ?_⟩
  · intro x
    rw [hperm.mem_iff, h.live, contains_move hok]
  · intro p c
    have hchild : IsChild t'.children? p c ↔ (p = parent ∧ c = id) ∨
        (IsChild t.children? p c ∧ ¬ (p = q ∧ c = id)) := by
      rw [isChild_graft_iff known known' fun hp => by rw [IsChild, hsame p hp, IsChild],
        hg.isChild_unlinked_iff]
    rw [parent?_move hok, hchild, ← h.parent]
    split
    · rename_i hc
      subst hc
      simp only [hg.parent, Option.some.injEq]
      grind
    · grind
  · intro x hx
    exact h.inRange x (hperm.mem_iff.1 hx)
  · intro x hx
    exact hperm.mem_iff.2 (h.focus x (hfocus ▸ hx))

/-- Raising is moving to the end of the same list. -/
theorem raise_of_parent {q : NodeId} (hq : t.parent? id = some q) :
    t.raise id = t.move id q none := by
  rw [raise, tryRaise, hq]
  rfl

theorem raise_of_parent_eq_none (hq : t.parent? id = none) :
    t.raise id = .error (.unknownNode id) := by
  rw [raise, tryRaise, hq]
  rfl

theorem raise_eq_ok (h : t.raise id = .ok t') :
    ∃ q, t.parent? id = some q ∧ t.move id q none = .ok t' := by
  cases hq : t.parent? id with
  | none => cases (raise_of_parent_eq_none hq).symm.trans h
  | some q => exact ⟨q, rfl, (raise_of_parent hq).symm.trans h⟩

end AccessBridge.Tree
