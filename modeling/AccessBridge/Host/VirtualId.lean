import AccessBridge.Tree.Basic

/-!
# Virtual ids

A host addresses the nodes of a surface by signed 32-bit numbers. The root goes by the number of
the host view itself, every other node by its own id. On the live nodes of a tree whose ids are in
range the two directions undo each other (`nodeIdOf?_virtualIdOf`).
-/

namespace AccessBridge

/-- The number under which a host knows a node. -/
abbrev VirtualId := Int

/-- The number of the host view, which stands for the root. -/
def hostView : VirtualId := -1

namespace Tree

/-- The node that a host means by a number; the node need not be live. -/
def nodeIdOf? (t : Tree) (v : VirtualId) : Option NodeId :=
  if v = hostView then some t.root
  else if 0 ≤ v then some ⟨v.toNat⟩
  else none

/-- The number by which the host knows a node. -/
def virtualIdOf (t : Tree) (id : NodeId) : VirtualId :=
  if id = t.root then hostView
  else if id.InRange then id.val
  else hostView

theorem virtualIdOf_root {t : Tree} : t.virtualIdOf t.root = hostView := by
  simp [virtualIdOf]

theorem virtualIdOf_of_ne {t : Tree} {id : NodeId} (hr : id ≠ t.root) (hi : id.InRange) :
    t.virtualIdOf id = id.val := by
  simp [virtualIdOf, hr, hi]

theorem nodeIdOf?_virtualIdOf {t : Tree} {id : NodeId} (hi : id.InRange) :
    t.nodeIdOf? (t.virtualIdOf id) = some id := by
  by_cases hr : id = t.root
  · rw [hr, virtualIdOf_root]
    simp [nodeIdOf?]
  · rw [virtualIdOf_of_ne hr hi]
    have h : (id.val : Int) ≠ hostView := by simp only [hostView]; omega
    simp [nodeIdOf?, h]

end Tree

end AccessBridge
