import AccessBridge.Proofs.Tree.Moving
import AccessBridge.Proofs.Tree.Removal

/-!
# Undoing edits

A new leaf that is removed leaves the tree as it was, and so does a node that moves back to its
old position. Both follow from what a node leaves behind where it is unlinked: child lists that do
not tell where it was (`Arranged.unlinked_insertAt`, `Arranged.unlinked_move`). So the first of two
moves of one node does not count (`Arranged.move_move`), and a move to where the node is changes
nothing (`Arranged.move_stay`).
-/

namespace AccessBridge.Tree

open Relation

variable {t t' u : Tree} {l es cs ds : List NodeId} {id parent p q x : NodeId} {index : Nat}
  {node : Node} {at? to? : Option Nat}

/-- `q` is the parent of `id` and lists it at position `k`. -/
structure PlacedAt (t : Tree) (id q : NodeId) (k : Nat) : Prop where
  parent : t.parent? id = some q
  listed : ∃ cs, t.children? q = some cs ∧ cs[k]? = some id

/-! ## What is left where a node is unlinked -/

theorem filter_bne_insertIdx {k : Nat} (hid : id ∉ es) (hk : k ≤ es.length) :
    (es.insertIdx k id).filter (· != id) = es := by
  obtain ⟨cs, ds, rfl, -, hins⟩ := exists_split_insertIdx es id hk
  rw [hins, filter_bne_middle hid]

theorem Arranged.notMem_unlinked (h : t.Arranged l) (hes : t.unlinked id x = some es) :
    id ∉ es := by
  intro hid
  obtain ⟨cs, hcs, rfl⟩ := Option.map_eq_some_iff.1 hes
  split at hid
  · simpa using List.of_mem_filter hid
  · rename_i hne
    exact hne ((h.parent x id).2 ⟨cs, hcs, hid⟩)

/-- A new leaf leaves the child lists from before it was inserted. -/
theorem Arranged.unlinked_insertAt (h : t.Arranged l)
    (hok : t.insertAt parent index id node = .ok t') (hx : x ≠ id) :
    t'.unlinked id x = t.children? x := by
  have hfresh := (insertAt_eq_ok hok).2.1
  rw [unlinked, parent?_insertAt hok, if_pos rfl, children?_insertAt hok, if_neg hx,
    Option.map_map]
  cases hes : t.children? x with
  | none => rfl
  | some es =>
    have hid : id ∉ es := fun hm => hfresh ((h.live id).1 (h.mem_of_isChild ⟨es, hes, hm⟩).2)
    by_cases hp : x = parent
    · simp [hp, filter_bne_insertIdx hid (Nat.min_le_right index es.length)]
    · simp [hp, Ne.symm hp]

/-- A node leaves the same child lists before and after it has moved. -/
theorem Arranged.unlinked_move (h : t.Arranged l) (hok : t.move id p at? = .ok t') (x : NodeId) :
    t'.unlinked id x = t.unlinked id x := by
  rw [unlinked, parent?_move hok, if_pos rfl, children?_move hok, Option.map_map]
  cases hes : t.unlinked id x with
  | none => rfl
  | some es =>
    by_cases hp : x = p
    · simp [hp, filter_bne_insertIdx (h.notMem_unlinked hes) (Nat.min_le_right _ es.length)]
    · simp [hp, Ne.symm hp]

/-! ## Removing what was inserted -/

theorem Arranged.remove_insertAt (h : t.Arranged l)
    (hok : t.insertAt parent index id node = .ok t') : t'.remove id = .ok ([id], t) := by
  obtain ⟨-, hfresh, e, he, -, hroot, hfocus, htoolkit⟩ := insertAt_eq_ok hok
  obtain ⟨A, C, -, h'⟩ := h.insertAt hok
  have hid : id ∉ l := fun hm => hfresh ((h.live id).1 hm)
  have live : t'.contains id = true := (contains_insertAt hok).2 (.inl rfl)
  have hr : id ≠ t'.root := fun he => hid (he ▸ hroot ▸ h.root_mem)
  obtain ⟨⟨removed, u⟩, hok'⟩ := exists_remove_eq_ok live hr
  obtain rfl : removed = [id] := by
    have hleaf : t'.children? id = some [] := by rw [children?_insertAt hok, if_pos rfl]
    obtain ⟨-, -, hremoved, -⟩ := remove_eq_ok hok'
    rw [hremoved, h'.subtreePostorder_eq ((h'.live id).2 live) (.leaf hleaf)]
    rfl
  have hnone := getElem?_eq_none_of_not_contains hfresh
  obtain ⟨-, -, -, -, hroot', -, htoolkit'⟩ := remove_eq_ok hok'
  have hu : u = t := by
    apply eq_of_views
    case hn =>
      intro x
      rw [node?_remove hok', node?_insertAt hok]
      by_cases hx : x = id
      · simp [hx, node?, hnone]
      · simp [hx]
    case hp =>
      intro x
      rw [parent?_remove hok', parent?_insertAt hok]
      by_cases hx : x = id
      · simp [hx, parent?, hnone]
      · simp [hx]
    case hc =>
      intro x
      rw [children?_remove hok']
      by_cases hx : x = id
      · simp [hx, children?, hnone]
      · simp [hx, h.unlinked_insertAt hok hx]
    case hr => exact hroot'.trans hroot
    case hf =>
      rw [h'.focus_remove hok', hfocus]
      cases hf : t.focus with
      | none => rfl
      | some x =>
        have hx : x ≠ id := fun he => hid (he ▸ h.focus x hf)
        exact Option.filter_some_pos (by simpa using hx)
    case hk => exact htoolkit'.trans htoolkit
  rw [hok', hu]

/-! ## Moving back -/

/-- Of two moves of one node the second alone counts. -/
theorem Arranged.move_move (h : t.Arranged l) (hok : t.move id p at? = .ok t')
    (hok' : t.move id q to? = .ok u) : t'.move id q to? = .ok u := by
  obtain ⟨-, -, -, -, -, hroot, hfocus, htoolkit⟩ := move_eq_ok hok
  obtain ⟨-, -, -, -, -, hroot', hfocus', htoolkit'⟩ := move_eq_ok hok'
  obtain ⟨A, b, C, A', C', -, hb, hb', -, h'⟩ := h.move hok
  have hmov : t'.Movable id q := by
    obtain ⟨live, hq, hr, hout⟩ := h.move_ok_iff_movable.1 ⟨u, hok'⟩
    refine ⟨(contains_move hok).trans live, (contains_move hok).trans hq, hroot ▸ hr, ?_⟩
    rwa [← hb'.mem_singleton_iff, hb.mem_singleton_iff]
  obtain ⟨u', hok''⟩ := h'.move_ok_iff_movable.2 hmov
  obtain ⟨-, -, -, -, -, hroot'', hfocus'', htoolkit''⟩ := move_eq_ok hok''
  have hu : u' = u := by
    apply eq_of_views
    case hn => exact fun x => by rw [node?_move hok'', node?_move hok, node?_move hok']
    case hp =>
      intro x
      rw [parent?_move hok'', parent?_move hok, parent?_move hok']
      split <;> rfl
    case hc =>
      exact fun x => by rw [children?_move hok'', h.unlinked_move hok, children?_move hok']
    case hr => exact hroot''.trans (hroot.trans hroot'.symm)
    case hf => exact hfocus''.trans (hfocus.trans hfocus'.symm)
    case hk => exact htoolkit''.trans (htoolkit.trans htoolkit'.symm)
  rw [hok'', hu]

/-- Below its parent a node can always be moved. -/
theorem Arranged.movable_parent (h : t.Arranged l) (hp : t.parent? id = some q) :
    t.Movable id q := by
  have hc : IsChild t.children? q id := (h.parent q id).1 hp
  obtain ⟨hq, hid⟩ := h.mem_of_isChild hc
  refine ⟨(h.live id).1 hid, (h.live q).1 hq, fun he => ?_, h.not_reach_parent hc⟩
  rw [he, h.parent?_root] at hp
  cases hp

/-- A move to the position that the node has already leaves the tree as it is. -/
theorem Arranged.move_stay (h : t.Arranged l) (hp : t.parent? id = some q)
    (known : t.children? q = some (cs ++ id :: ds)) : t.move id q (some cs.length) = .ok t := by
  have hmov := h.movable_parent hp
  obtain ⟨q', cs', ds', b, hg'⟩ := h.hangs ((h.live id).2 hmov.live) hmov.not_root
  obtain rfl := Option.some.inj (hg'.parent.symm.trans hp)
  -- `hangs` cuts the list somewhere around the node; it is listed once, so here will do as well.
  have hg : t.Hangs l id q' cs ds b :=
    { hg' with listed := known, once := h.layout.nodup_children h.nodup hg'.parent_mem known }
  obtain ⟨u, hok⟩ : ∃ u, t.move id q' (some cs.length) = .ok u := h.move_ok_iff_movable.2 hmov
  obtain ⟨-, -, -, -, -, hroot, hfocus, htoolkit⟩ := move_eq_ok hok
  have hu : u = t := by
    apply eq_of_views
    case hn => exact fun x => node?_move hok
    case hp =>
      intro x
      rw [parent?_move hok]
      split
      · rename_i hx
        rw [hx, hp]
      · rfl
    case hc =>
      intro x
      rw [children?_move hok]
      by_cases hx : x = q'
      · obtain ⟨cs', ds', hsplit, hlen, hins⟩ :=
          exists_split_insertIdx (cs ++ ds) id (k := cs.length) (by simp)
        obtain ⟨rfl, rfl⟩ := List.append_inj hsplit hlen.symm
        simp [hx, hg.unlinked_parent, known, hins]
      · simp [hx, hg.unlinked_of_ne hx]
    case hr => exact hroot
    case hf => exact hfocus
    case hk => exact htoolkit
  rw [hok, hu]

theorem Arranged.exists_placedAt (h : t.Arranged l) (hid : id ∈ l) (hr : id ≠ t.root) :
    ∃ q k, t.PlacedAt id q k := by
  obtain ⟨q, cs, ds, b, hg⟩ := h.hangs hid hr
  exact ⟨q, cs.length, hg.parent, _, hg.listed, by simp⟩

theorem Arranged.move_back {k : Nat} (h : t.Arranged l) (hok : t.move id p at? = .ok t')
    (hk : t.PlacedAt id q k) : t'.move id q (some k) = .ok t := by
  obtain ⟨es, known, hat⟩ := hk.listed
  obtain ⟨hlt, rfl⟩ := List.getElem?_eq_some_iff.1 hat
  rw [← List.take_append_drop k es, List.drop_eq_getElem_cons hlt] at known
  have hstay := h.move_stay hk.parent known
  rw [List.length_take_of_le (Nat.le_of_lt hlt)] at hstay
  exact h.move_move hok hstay

/-- **Edits can be undone.** A node that was inserted into a reachable tree is removed again, alone,
    and the tree is what it was. A node that was moved had a parent and a position among its
    children; it moves back there from wherever it is, and the tree is what it was. -/
theorem Reachable.edits_undone (h : t.Reachable) :
    (∀ parent index id node t', t.insertAt parent index id node = .ok t' →
      t'.remove id = .ok ([id], t)) ∧
    ∀ id newParent index t', t.move id newParent index = .ok t' →
      (∃ q k, t.PlacedAt id q k) ∧ ∀ q k, t.PlacedAt id q k → t'.move id q (some k) = .ok t := by
  obtain ⟨l, hl⟩ := h.arranged
  refine ⟨fun parent index id node t' hok => hl.remove_insertAt hok,
    fun id newParent index t' hok => ⟨?_, fun q k hk => hl.move_back hok hk⟩⟩
  obtain ⟨live, -, hr, -⟩ := move_eq_ok hok
  exact hl.exists_placedAt ((hl.live id).2 live) hr

/-- A leaf behind two siblings, and a subtree that moves to the end of its own list. -/
theorem edits_undone_within_parent :
    let t := ((((ofRoot {}).step (.insert ⟨0⟩ ⟨1⟩ {})).step (.insert ⟨0⟩ ⟨2⟩ {})).step
      (.insert ⟨0⟩ ⟨3⟩ {})).step (.insert ⟨2⟩ ⟨4⟩ {})
    t.Reachable ∧ t.preorder = [⟨0⟩, ⟨1⟩, ⟨2⟩, ⟨4⟩, ⟨3⟩] ∧
      (∃ t', t.insertAt ⟨0⟩ 1 ⟨9⟩ {} = .ok t' ∧ t'.preorder = [⟨0⟩, ⟨1⟩, ⟨9⟩, ⟨2⟩, ⟨4⟩, ⟨3⟩] ∧
        t'.remove ⟨9⟩ = .ok ([⟨9⟩], t)) ∧
      ∃ t', t.move ⟨2⟩ ⟨0⟩ (some 7) = .ok t' ∧ t'.preorder = [⟨0⟩, ⟨1⟩, ⟨3⟩, ⟨2⟩, ⟨4⟩] ∧
        t.PlacedAt ⟨2⟩ ⟨0⟩ 1 ∧ t'.move ⟨2⟩ ⟨0⟩ (some 1) = .ok t := by
  intro t
  have ht : t.Reachable := ((((Reachable.ofRoot {}).step _).step _).step _).step _
  have hins : (t.insertAt ⟨0⟩ 1 ⟨9⟩ {}).map preorder =
      .ok [⟨0⟩, ⟨1⟩, ⟨9⟩, ⟨2⟩, ⟨4⟩, ⟨3⟩] := by decide +kernel
  have hmove : (t.move ⟨2⟩ ⟨0⟩ (some 7)).map preorder =
      .ok [⟨0⟩, ⟨1⟩, ⟨3⟩, ⟨2⟩, ⟨4⟩] := by decide +kernel
  obtain ⟨t₁, hok₁, hpre₁⟩ := Except.map_eq_ok hins
  obtain ⟨t₂, hok₂, hpre₂⟩ := Except.map_eq_ok hmove
  have hplace : t.PlacedAt ⟨2⟩ ⟨0⟩ 1 :=
    ⟨by decide +kernel, [⟨1⟩, ⟨2⟩, ⟨3⟩], by decide +kernel, rfl⟩
  obtain ⟨hundo, hback⟩ := ht.edits_undone
  exact ⟨ht, by decide +kernel, ⟨t₁, hok₁, hpre₁.symm, hundo _ _ _ _ _ hok₁⟩, t₂, hok₂,
    hpre₂.symm, hplace, (hback _ _ _ _ hok₂).2 _ _ hplace⟩

end AccessBridge.Tree
