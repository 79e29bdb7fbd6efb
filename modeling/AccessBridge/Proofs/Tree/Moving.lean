import AccessBridge.Proofs.Tree.Invariant

/-!
# Moving a subtree

A move is refused if a node is missing, if the root is to be moved, or if the new parent is in the
subtree that moves; in no other case (`Arranged.move_ok_iff_movable`). The climb that looks for a
cycle goes by parent links, the subtree by child lists: they agree because the tree is arranged.
`Tree.MovedTo` says what a move leaves, and `Reachable.move_outcome` puts the two together.
-/

namespace AccessBridge.Tree

open Relation

variable {t t' : Tree} {l : List NodeId} {id newParent : NodeId} {index : Option Nat}

/-- Whether a move is possible: both nodes are live, and the new parent, which must not be in the
    subtree of the node, is not the node itself either. -/
structure Movable (t : Tree) (id newParent : NodeId) : Prop where
  live : t.contains id = true
  parent_live : t.contains newParent = true
  not_root : id ≠ t.root
  outside : ¬ ReflTransGen (IsChild t.children?) id newParent

/-- Where a list of `n` elements is entered: at the position that is asked for, or at the end. -/
def entryPoint (n : Nat) : Option Nat → Nat
  | some i => min i n
  | none => n

/-- `t'` is `t` with the subtree of `id` moved below `newParent`. -/
structure MovedTo (t : Tree) (id newParent : NodeId) (index : Option Nat) (t' : Tree) : Prop where
  /-- The node enters the child list of the new parent as it is once the node has left its old
      place. -/
  entered : ∃ cs ds, t.unlinked id newParent = some (cs ++ ds) ∧
    t'.children? newParent = some (cs ++ id :: ds) ∧ cs.length = entryPoint (cs ++ ds).length index
  /-- The old parent loses the node, wherever the node goes. -/
  left : ∃ p cs ds, t.parent? id = some p ∧ id ∉ cs ++ ds ∧ t.children? p = some (cs ++ id :: ds) ∧
    t.unlinked id p = some (cs ++ ds) ∧ (p ≠ newParent → t'.children? p = some (cs ++ ds))
  others : ∀ x, x ≠ newParent → t.parent? id ≠ some x → t'.children? x = t.children? x
  parent : ∀ x, t'.parent? x = if x = id then some newParent else t.parent? x
  node : ∀ x, t'.node? x = t.node? x
  live : ∀ x, t'.contains x = t.contains x
  /-- The subtree keeps its pre-order and goes from one place of the whole pre-order to another. -/
  block : ∃ b, Layout t.children? [id] b ∧ Layout t'.children? [id] b ∧
    ∃ A C A' C', t.preorder = A ++ b ++ C ∧ t'.preorder = A' ++ b ++ C' ∧ A ++ C = A' ++ C'
  root : t'.root = t.root
  focus : t'.focus = t.focus
  toolkit : t'.toolkit = t.toolkit

/-- The guards of a move. -/
theorem move_ok_iff : (∃ t', t.move id newParent index = .ok t') ↔ t.contains id = true ∧
    t.contains newParent = true ∧ id ≠ t.root ∧ ¬ t.isAncestorOrSelf id newParent = true := by
  constructor
  · rintro ⟨t', hok⟩
    obtain ⟨hid, hparent, hr, hanc, -⟩ := move_eq_ok hok
    exact ⟨hid, hparent, hr, hanc⟩
  · rintro ⟨hid, hparent, hr, hanc⟩
    unfold move tryMove
    rw [if_neg (not_not.2 hid), if_neg (not_not.2 hparent), if_neg (not_or.2 ⟨hr, hanc⟩)]
    exact ⟨_, rfl⟩

theorem Arranged.move_ok_iff_movable (h : t.Arranged l) :
    (∃ t', t.move id newParent index = .ok t') ↔ t.Movable id newParent := by
  rw [move_ok_iff]
  constructor
  · rintro ⟨hid, hparent, hr, hanc⟩
    rw [h.isAncestorOrSelf_iff ((h.live _).2 hid) ((h.live _).2 hparent)] at hanc
    exact ⟨hid, hparent, hr, hanc⟩
  · rintro ⟨hid, hparent, hr, hout⟩
    rw [← h.isAncestorOrSelf_iff ((h.live _).2 hid) ((h.live _).2 hparent)] at hout
    exact ⟨hid, hparent, hr, hout⟩

theorem min_getD_eq_entryPoint (n : Nat) (index : Option Nat) :
    min (index.getD n) n = entryPoint n index := by
  cases index with
  | none => exact Nat.min_self n
  | some i => rfl

/-- The place in the child list of the new parent. -/
theorem exists_entered (hok : t.move id newParent index = .ok t') :
    ∃ cs ds, t.unlinked id newParent = some (cs ++ ds) ∧
      t'.children? newParent = some (cs ++ id :: ds) ∧
      cs.length = entryPoint (cs ++ ds).length index := by
  obtain ⟨-, hparent, -⟩ := move_eq_ok hok
  obtain ⟨es, known⟩ := contains_iff_children?.1 ((contains_move hok).trans hparent)
  rw [children?_move hok] at known
  obtain ⟨fs, hfs, -⟩ := Option.map_eq_some_iff.1 known
  obtain ⟨cs, ds, rfl, hlen, hins⟩ :=
    exists_split_insertIdx fs id (Nat.min_le_right (index.getD fs.length) fs.length)
  refine ⟨cs, ds, hfs, ?_, hlen.trans (min_getD_eq_entryPoint _ index)⟩
  rw [children?_move hok, hfs, Option.map_some, if_pos rfl, hins]

theorem Arranged.movedTo (h : t.Arranged l) (hok : t.move id newParent index = .ok t') :
    t.MovedTo id newParent index t' := by
  obtain ⟨hid, -, hr, -, -, hroot, hfocus, htoolkit⟩ := move_eq_ok hok
  obtain ⟨p, cs, ds, b', hg⟩ := h.hangs ((h.live id).2 hid) hr
  obtain ⟨A, b, C, A', C', rfl, hb, hb', hAC, h'⟩ := h.move hok
  have hout : ∀ x, x ≠ newParent → t'.children? x = t.unlinked id x := by
    intro x hx
    simp [children?_move hok, hx]
  constructor
  case entered => exact exists_entered hok
  case left =>
    refine ⟨p, cs, ds, hg.parent, hg.notMem_siblings, hg.listed, hg.unlinked_parent, fun hp => ?_⟩
    rw [hout p hp, hg.unlinked_parent]
  case others =>
    intro x hx hne
    rw [hout x hx, hg.unlinked_of_ne fun he => hne (hg.parent.trans (congrArg some he.symm))]
  case parent => exact fun x => parent?_move hok
  case node => exact fun x => node?_move hok
  case live => exact fun x => contains_move hok
  case block => exact ⟨b, hb, hb', A, C, A', C', h.preorder_eq, h'.preorder_eq, hAC⟩
  case root => exact hroot
  case focus => exact hfocus
  case toolkit => exact htoolkit

/-- **A move takes one subtree elsewhere.** In a reachable tree the possible moves are carried out
    and no others are; the subtree goes as one block below its new parent, and a move that is
    refused leaves the tree as it is. -/
theorem Reachable.move_outcome (h : t.Reachable) (id newParent : NodeId) (index : Option Nat) :
    ((∃ t', t.move id newParent index = .ok t') ↔ t.Movable id newParent) ∧
      (∀ t', t.move id newParent index = .ok t' → t.MovedTo id newParent index t') ∧
      ∀ e, t.move id newParent index = .error e → t.step (.move id newParent index) = t := by
  obtain ⟨l, hl⟩ := h.arranged
  exact ⟨hl.move_ok_iff_movable, fun t' hok => hl.movedTo hok, fun e herr => step_of_error herr⟩

/-- A node that moves within its parent's list leaves it before the position counts. Below its own
    child it does not go. -/
theorem move_outcome_within_parent :
    let t := ((((ofRoot {}).step (.insert ⟨0⟩ ⟨1⟩ {})).step (.insert ⟨0⟩ ⟨2⟩ {})).step
      (.insert ⟨0⟩ ⟨3⟩ {})).step (.insert ⟨1⟩ ⟨4⟩ {})
    t.Reachable ∧ t.preorder = [⟨0⟩, ⟨1⟩, ⟨4⟩, ⟨2⟩, ⟨3⟩] ∧
      (∃ t', t.move ⟨1⟩ ⟨0⟩ (some 1) = .ok t' ∧ t'.preorder = [⟨0⟩, ⟨2⟩, ⟨1⟩, ⟨4⟩, ⟨3⟩] ∧
        t.MovedTo ⟨1⟩ ⟨0⟩ (some 1) t') ∧
      t.move ⟨1⟩ ⟨4⟩ none = .error (.cycle ⟨1⟩) ∧ t.step (.move ⟨1⟩ ⟨4⟩ none) = t := by
  intro t
  have ht : t.Reachable := ((((Reachable.ofRoot {}).step _).step _).step _).step _
  have hrun : (t.move ⟨1⟩ ⟨0⟩ (some 1)).map preorder =
      .ok [⟨0⟩, ⟨2⟩, ⟨1⟩, ⟨4⟩, ⟨3⟩] := by decide +kernel
  obtain ⟨t', hok, hpre⟩ := Except.map_eq_ok hrun
  have hcycle : t.isAncestorOrSelf ⟨1⟩ ⟨4⟩ = true := by decide +kernel
  have hlive : t.contains ⟨1⟩ = true ∧ t.contains ⟨4⟩ = true := by decide +kernel
  have herr : t.move ⟨1⟩ ⟨4⟩ none = .error (.cycle ⟨1⟩) :=
    move_of_ancestor hlive.1 hlive.2 hcycle
  exact ⟨ht, by decide +kernel, ⟨t', hok, hpre.symm, (ht.move_outcome _ _ _).2.1 t' hok⟩, herr,
    (ht.move_outcome _ _ _).2.2 _ herr⟩

end AccessBridge.Tree
