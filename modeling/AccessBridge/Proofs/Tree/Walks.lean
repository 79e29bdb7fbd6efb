import AccessBridge.Proofs.Tree.Arrangement
import AccessBridge.Tree.Traversal

/-!
# The walks of an arranged tree

A worklist whose items have a layout pops exactly that layout. From it, on an arranged tree:
`preorder` is the arrangement, `subtreePostorder` a block of it backwards, and the climb to the
root passes all ancestors. The number of pops that each walk is given is never the reason why it
stops.
-/

namespace AccessBridge

namespace Worklist

variable {α β : Type} {visit : α → Option β × List α} {s ps : List α}

/-- The graph that a worklist follows: an item's children are the items that its visit puts on
    the stack. -/
def work (visit : α → Option β × List α) (a : α) : Option (List α) := some (visit a).2

theorem remaining_layout (h : Layout (work visit) s ps) (n : Nat) (rest : List α) :
    remaining visit (ps.length + n) (s ++ rest) = remaining visit n rest := by
  induction h generalizing n rest with
  | nil => simp
  | @cons a cs stack below right known _ _ ihd ihr =>
    obtain rfl := Option.some.inj known
    rw [List.length_cons, List.length_append, Nat.add_right_comm, List.cons_append, remaining,
      Nat.add_assoc, ihd, ihr]

/-- A worklist pops the layout of its stack, and then what was below it. -/
theorem pops_layout (h : Layout (work visit) s ps) (n : Nat) (rest : List α) :
    pops visit (ps.length + n) (s ++ rest) = ps ++ pops visit n rest := by
  induction h generalizing n rest with
  | nil => simp
  | @cons a cs stack below right known _ _ ihd ihr =>
    obtain rfl := Option.some.inj known
    rw [List.length_cons, List.length_append, Nat.add_right_comm, List.cons_append, pops,
      Nat.add_assoc, ihd, ihr, List.cons_append, List.append_assoc]

/-- A worklist with enough pops yields what its layout yields. -/
theorem run_layout (h : Layout (work visit) s ps) {n : Nat} (hn : ps.length ≤ n) :
    run visit n s = ps.filterMap fun a => (visit a).1 := by
  obtain ⟨k, rfl⟩ := Nat.exists_eq_add_of_le hn
  have hp := pops_layout h k []
  rw [List.append_nil, pops_nil, List.append_nil] at hp
  rw [run_eq_filterMap_pops, hp]

end Worklist

namespace Tree

open Relation Worklist

variable {t : Tree} {l s b : List NodeId} {a c p x y : NodeId}

/-! ## Pre-order -/

theorem preorderVisit_of_children? {cs : List NodeId} (h : t.children? x = some cs) :
    t.preorderVisit x = (some x, cs) := by
  obtain ⟨e, he, rfl⟩ := Option.map_eq_some_iff.1 h
  rw [preorderVisit, he]

/-- The walk follows the child lists. -/
theorem work_preorder (h : Layout t.children? s l) : Layout (work t.preorderVisit) s l :=
  h.congr fun x hx => by
    obtain ⟨cs, known⟩ := h.known_of_mem hx
    rw [work, preorderVisit_of_children? known, known]

theorem preorder_layout (h : Layout t.children? s l) {n : Nat} (hn : l.length ≤ n) :
    Worklist.run t.preorderVisit n s = l := by
  rw [run_layout (work_preorder h) hn]
  refine (List.filterMap_congr fun x hx => ?_).trans List.filterMap_some
  obtain ⟨cs, known⟩ := h.known_of_mem hx
  rw [preorderVisit_of_children? known]

theorem Arranged.preorder_eq (h : t.Arranged l) : t.preorder = l :=
  preorder_layout h.layout (Nat.le_of_eq h.size_eq.symm)

/-! ## Descendants first -/

/-- The walk pops each node of a layout twice and yields the layout backwards. -/
theorem postorder_layout (h : Layout t.children? s l) :
    ∃ ps, Layout (work t.postorderVisit) (s.reverse.map .enter) ps ∧ ps.length = 2 * l.length ∧
      (ps.filterMap fun a => (t.postorderVisit a).1) = l.reverse := by
  induction h with
  | nil => exact ⟨[], .nil, rfl, rfl⟩
  | @cons a cs stack below rest known _ _ ihd ihr =>
    obtain ⟨ps, hd, hdl, hdy⟩ := ihd
    obtain ⟨qs, hr, hrl, hry⟩ := ihr
    have hleave : Layout (work t.postorderVisit) [.leave a] [.leave a] := .leaf rfl
    have henter : Layout (work t.postorderVisit) [.enter a] (.enter a :: (ps ++ [.leave a])) :=
      .block (by rw [work, postorderVisit, known]; rfl) (hd.append hleave)
    refine ⟨qs ++ .enter a :: (ps ++ [.leave a]), ?_, ?_, ?_⟩
    · rw [List.reverse_cons, List.map_append]
      exact hr.append henter
    · simp only [List.length_append, List.length_cons, List.length_nil]
      omega
    · rw [List.filterMap_append, hry, List.filterMap_cons_none rfl, List.filterMap_append, hdy,
        List.reverse_cons, List.reverse_append, List.append_assoc]
      rfl

/-- A subtree is taken out in the opposite order of its pre-order. -/
theorem Arranged.subtreePostorder_eq (h : t.Arranged l) (hx : x ∈ l)
    (hb : Layout t.children? [x] b) : t.subtreePostorder x = b.reverse := by
  obtain ⟨ps, hl, hlen, hy⟩ := postorder_layout hb
  rw [← hy]
  exact run_layout hl (hlen ▸ Nat.mul_le_mul_left 2 (h.block_length_le hx hb))

/-! ## Towards the root -/

theorem mem_climb_self (n : Nat) : x ∈ t.climb n x := by
  cases n <;> exact List.mem_cons_self

theorem reach_of_mem_climb (hp : ∀ p c, t.parent? c = some p → IsChild t.children? p c) {n : Nat}
    (h : a ∈ t.climb n x) : ReflTransGen (IsChild t.children?) a x := by
  induction n generalizing x with
  | zero => rw [List.mem_singleton.1 h]
  | succ n ih =>
    rcases List.mem_cons.1 h with rfl | h
    · exact .refl
    · split at h
      · cases h
      · rename_i hq
        exact (ih h).tail (hp _ _ hq)

/-- A climb of at least as many steps as the block of `a` is longer than the block of `x` passes
    `a`: each step leads to a longer block. -/
theorem mem_climb_of_reach {b' : List NodeId} (h : t.Arranged l)
    (hr : ReflTransGen (IsChild t.children?) a x) (ha : Layout t.children? [a] b)
    (hx : Layout t.children? [x] b') {n : Nat} (hn : b.length ≤ n + b'.length) :
    a ∈ t.climb n x := by
  induction hr generalizing b' n with
  | refl => exact mem_climb_self n
  | @tail y x hr hc ih =>
    obtain ⟨by', hy, -⟩ := h.layout.exists_block (h.mem_of_isChild hc).1
    have hlt : b'.length < by'.length := hy.length_lt_of_isChild hx hc
    have hle : by'.length ≤ b.length := by
      rcases reflTransGen_iff_eq_or_transGen.1 hr with rfl | hr
      · exact Nat.le_of_eq (congrArg _ (hy.unique ha))
      · exact Nat.le_of_lt (ha.length_lt_of_below hy hr)
    obtain ⟨m, rfl⟩ : ∃ m, n = m + 1 := ⟨n - 1, by omega⟩
    rw [climb, (h.parent y x).2 hc]
    exact List.mem_cons_of_mem _ (ih hy (by omega))

/-- The parent climb tells whether a node is in a subtree. -/
theorem Arranged.isAncestorOrSelf_iff (h : t.Arranged l) (ha : a ∈ l) (hx : x ∈ l) :
    t.isAncestorOrSelf a x = true ↔ ReflTransGen (IsChild t.children?) a x := by
  rw [isAncestorOrSelf, List.contains_iff_mem]
  constructor
  · exact reach_of_mem_climb fun p c => (h.parent p c).1
  · intro hr
    obtain ⟨b, hb, -⟩ := h.layout.exists_block ha
    obtain ⟨b', hb', -⟩ := h.layout.exists_block hx
    exact mem_climb_of_reach h hr hb hb' (Nat.le_add_right_of_le (h.block_length_le ha hb))

end Tree

end AccessBridge
