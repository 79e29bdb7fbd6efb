import Std.Data.ExtTreeMap

/-!
# Node ids

A node keeps its id for as long as it lives. Ids are ordered, so that maps keyed by them
enumerate in increasing order, and the order is lawful, so that two such maps with the same
content are equal.
-/

namespace AccessBridge

/-- The stable name of a node within one tree. -/
structure NodeId where
  val : Nat
deriving DecidableEq, Repr, Inhabited

namespace NodeId

instance : Ord NodeId where
  compare a b := compare a.val b.val

@[simp] theorem compare_eq_iff {a b : NodeId} : compare a b = .eq ↔ a = b := by
  cases a; cases b
  rw [NodeId.mk.injEq]
  exact Nat.compare_eq_eq

instance : Std.TransOrd NodeId where
  eq_swap {a b} := (Nat.compare_swap b.val a.val).symm
  isLE_trans h₁ h₂ :=
    Nat.isLE_compare.2 (Nat.le_trans (Nat.isLE_compare.1 h₁) (Nat.isLE_compare.1 h₂))

instance : Std.LawfulEqOrd NodeId where
  eq_of_compare := compare_eq_iff.1

/-- The root of a freshly created tree. -/
def first : NodeId := ⟨0⟩

/-- The largest id that a host can address: virtual ids are 32-bit and signed. -/
def maxVal : Nat := 2147483647

/-- Whether a host can address the id. -/
def InRange (id : NodeId) : Prop := id.val ≤ maxVal

instance (id : NodeId) : Decidable id.InRange := inferInstanceAs (Decidable (_ ≤ _))

/-- The text by which messages name the id. -/
protected def toString (id : NodeId) : String := s!"NodeId({id.val})"

instance : ToString NodeId := ⟨NodeId.toString⟩

end NodeId

end AccessBridge
