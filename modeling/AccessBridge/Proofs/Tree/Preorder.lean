import AccessBridge.Proofs.Tree.Invariant

/-!
# Pre-order as a recursion

The walk that lists a tree keeps one stack for the siblings of many ancestors. What it lists is
the pre-order as one would define it by recursion: a node, then the pre-orders of its children
(`IsPreorder`). A function with that recursion exists on every reachable tree and is determined
on the live nodes; its value at a node is the block of the node in the pre-order of the whole tree
(`Reachable.preorder_is_recursive`).
-/

namespace AccessBridge

open Relation

variable {α : Type} {g : α → Option (List α)} {f : α → List α} {s l : List α} {x y : α}

/-! ## Layouts by recursion -/

/-- A recursion along the child lists lays a stack out. -/
theorem Layout.eq_flatMap (h : Layout g s l)
    (hf : ∀ x cs, g x = some cs → f x = x :: cs.flatMap f) : l = s.flatMap f := by
  induction h with
  | nil => rfl
  | cons known _ _ ihd ihr => rw [List.flatMap_cons, hf _ _ known, List.cons_append, ← ihd, ← ihr]

/-- The blocks of the ids on a stack, one after the other, lay it out. -/
theorem Layout.eq_flatMap_blocks (h : Layout g s l)
    (hf : ∀ a ∈ s, ∀ b, Layout g [a] b → f a = b) : l = s.flatMap f := by
  induction h with
  | nil => rfl
  | @cons a cs stack below rest known down _ _ ihr =>
    have hblock : f a = a :: below := hf a List.mem_cons_self _ (.block known down)
    rw [List.flatMap_cons, hblock, List.cons_append,
      ← ihr fun b hb => hf b (List.mem_cons_of_mem _ hb)]

/-- In a layout what is below an id comes later. -/
theorem Layout.idxOf_lt [DecidableEq α] (h : Layout g s l) (nd : l.Nodup) (hx : x ∈ l)
    (hr : TransGen (IsChild g) x y) : l.idxOf x < l.idxOf y := by
  have hy : y ∈ l := h.mem_of_reach hx hr.to_reflTransGen
  have hix := List.idxOf_lt_length_of_mem hx
  have hiy := List.idxOf_lt_length_of_mem hy
  by_contra hle
  rcases Nat.lt_or_eq_of_le (Nat.le_of_not_lt hle) with hlt | heq
  · have hno := List.pairwise_iff_getElem.1 (h.pairwise_not_below nd) _ _ hiy hix hlt
    rw [List.getElem_idxOf, List.getElem_idxOf] at hno
    exact hno hr
  · obtain rfl : y = x := (List.idxOf_inj hy).1 heq
    exact h.irrefl hx hr

namespace Tree

variable {t : Tree} {l b : List NodeId} {order : NodeId → List NodeId} {x y : NodeId}

/-- The recursion of the pre-order: a live node, then the pre-orders of its children in the order
    of its child list. -/
def IsPreorder (t : Tree) (order : NodeId → List NodeId) : Prop :=
  ∀ x cs, t.children? x = some cs → order x = x :: cs.flatMap order

/-- The walk that lists the tree, started at a node. -/
def preorderFrom (t : Tree) (x : NodeId) : List NodeId :=
  Worklist.run t.preorderVisit t.size [x]

theorem IsPreorder.eq_block (h : t.IsPreorder order) (hb : Layout t.children? [x] b) :
    order x = b := by
  rw [hb.eq_flatMap h, List.flatMap_singleton]

namespace Arranged

theorem preorderFrom_eq (h : t.Arranged l) (hx : x ∈ l) (hb : Layout t.children? [x] b) :
    t.preorderFrom x = b :=
  preorder_layout hb (h.block_length_le hx hb)

/-- The walk has the recursion, from whatever live node it is started. -/
theorem isPreorder_preorderFrom (h : t.Arranged l) : t.IsPreorder t.preorderFrom := by
  intro x cs known
  have hx : x ∈ l := (h.live x).2 (contains_iff_children?.2 ⟨cs, known⟩)
  obtain ⟨b, hb, -⟩ := h.layout.exists_block hx
  obtain ⟨_, below, known', down, rfl⟩ := Layout.singleton_iff.1 hb
  obtain rfl := Option.some.inj (known.symm.trans known')
  have hbelow : below = cs.flatMap t.preorderFrom := down.eq_flatMap_blocks fun c hc b' hb' =>
    h.preorderFrom_eq (h.mem_of_isChild ⟨cs, known, hc⟩).2 hb'
  rw [h.preorderFrom_eq hx hb, hbelow]

/-- The value at a live node is its block. -/
theorem block_of_isPreorder (h : t.Arranged l) (ho : t.IsPreorder order) (hx : x ∈ l) :
    order x <:+: l ∧ ∀ y, y ∈ order x ↔ ReflTransGen (IsChild t.children?) x y := by
  obtain ⟨b, hb, hbl⟩ := h.layout.exists_block hx
  rw [ho.eq_block hb]
  exact ⟨hbl, fun y => hb.mem_singleton_iff⟩

/-- Nothing is left on the stack when the pops that the walk is given are used up. -/
theorem remaining_preorder (h : t.Arranged l) :
    Worklist.remaining t.preorderVisit t.size [t.root] = [] := by
  have hrem := Worklist.remaining_layout (work_preorder h.layout) 0 []
  rwa [List.append_nil, Nat.add_zero, ← h.size_eq] at hrem

end Arranged

/-- **The walk lists the tree in pre-order.** On a reachable tree:

    * There is a function with the recursion of the pre-order, and whichever it is, the walk lists
      what it gives at the root; what it gives at a live node is a block of that list and consists
      of the node and all that is below it.
    * Every live node is listed once, so there are as many as the size of the tree, and it is
      listed before all that is below it.
    * The walk ends because its stack is empty. -/
theorem Reachable.preorder_is_recursive (h : t.Reachable) :
    (∃ order, t.IsPreorder order) ∧
    (∀ order, t.IsPreorder order → t.preorder = order t.root ∧
      ∀ x, t.contains x = true → order x <:+: t.preorder ∧
        ∀ y, y ∈ order x ↔ ReflTransGen (IsChild t.children?) x y) ∧
    (t.preorder.Nodup ∧ (∀ x, x ∈ t.preorder ↔ t.contains x = true) ∧
      t.preorder.length = t.size ∧
      ∀ x y, TransGen (IsChild t.children?) x y → t.preorder.idxOf x < t.preorder.idxOf y) ∧
    Worklist.remaining t.preorderVisit t.size [t.root] = [] := by
  obtain ⟨l, hl⟩ := h.arranged
  rw [hl.preorder_eq]
  refine ⟨⟨_, hl.isPreorder_preorderFrom⟩, fun order ho => ⟨?_, fun x live => ?_⟩,
    ⟨hl.nodup, hl.live, hl.size_eq.symm, fun x y hr => ?_⟩, hl.remaining_preorder⟩
  · exact (ho.eq_block hl.layout).symm
  · exact hl.block_of_isPreorder ho ((hl.live x).2 live)
  · obtain ⟨c, hc, -⟩ := TransGen.head'_iff.1 hr
    exact hl.layout.idxOf_lt hl.nodup (hl.mem_of_isChild hc).1 hr

/-- A node that was moved below another one is listed in that one's block. -/
theorem preorder_is_recursive_moved :
    let t := ((((ofRoot {}).step (.insert ⟨0⟩ ⟨1⟩ {})).step (.insert ⟨0⟩ ⟨2⟩ {})).step
      (.insert ⟨1⟩ ⟨3⟩ {})).step (.move ⟨2⟩ ⟨1⟩ (some 0))
    t.Reachable ∧ t.preorder = [⟨0⟩, ⟨1⟩, ⟨2⟩, ⟨3⟩] ∧ (∃ order, t.IsPreorder order) ∧
      ∀ order, t.IsPreorder order → order ⟨0⟩ = [⟨0⟩, ⟨1⟩, ⟨2⟩, ⟨3⟩] := by
  intro t
  have ht : t.Reachable := ((((Reachable.ofRoot {}).step _).step _).step _).step _
  have hpre : t.preorder = [⟨0⟩, ⟨1⟩, ⟨2⟩, ⟨3⟩] := by decide +kernel
  have hroot : t.root = ⟨0⟩ := by decide +kernel
  obtain ⟨hex, horder, -⟩ := Reachable.preorder_is_recursive ht
  refine ⟨ht, hpre, hex, fun order ho => ?_⟩
  have heq : t.preorder = order t.root := (horder order ho).1
  rw [← hpre, heq, hroot]

end Tree

end AccessBridge
