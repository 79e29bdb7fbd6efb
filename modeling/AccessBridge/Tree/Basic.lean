import AccessBridge.TreeUpdate

/-!
# The tree store

A tree keeps one entry per live node, under the node's id: its attributes, its parent and its
children in paint order, back to front. Entries live in an extensional map, so that two trees
with the same entries, root, focus and toolkit are equal.
-/

namespace AccessBridge

open Std (ExtTreeMap)

/-- A node with its place in the tree. -/
structure Entry where
  node : Node
  parent : Option NodeId := none
  children : List NodeId := []
deriving Inhabited

/-- The accessible nodes of one surface. -/
structure Tree where
  entries : ExtTreeMap NodeId Entry
  root : NodeId
  focus : Option NodeId := none
  toolkit : Toolkit := {}

/-- Why a change to a tree is refused. -/
inductive TreeError where
  /-- The node is not in the tree. -/
  | unknownNode (id : NodeId)
  /-- A live node has the id already. -/
  | duplicateId (id : NodeId)
  /-- A host cannot address the id. -/
  | idOutOfRange (id : NodeId)
  /-- The node would be its own ancestor, or would have two places. -/
  | cycle (id : NodeId)
  /-- A root is replaced by an update but never removed. -/
  | rootRemoval (id : NodeId)
deriving DecidableEq, Repr

/-- The wording of a refusal. -/
def TreeError.message : TreeError → String
  | unknownNode id => s!"node {id} is not in the tree"
  | duplicateId id => s!"node {id} is already in the tree"
  | idOutOfRange id => s!"node {id} is outside the virtual view id range"
  | cycle id => s!"node {id} would appear twice in the tree"
  | rootRemoval id => s!"the root node {id} cannot be removed"

/-- What an operation on a tree comes to: its answer, or why it is refused, and the tree that it
    leaves behind in either case. -/
structure Tree.Outcome (α : Type) where
  answer : Except TreeError α
  tree : Tree

/-- What an operation that is not refused makes of its answer and the tree that it leaves. -/
def Tree.Outcome.result {α β : Type} (o : Outcome α) (f : α → Tree → β) : Except TreeError β :=
  o.answer.map fun a => f a o.tree

namespace Tree

/-- The tree that holds only a root. -/
def ofRoot (root : Node) : Tree where
  entries := (∅ : ExtTreeMap NodeId Entry).insert NodeId.first { node := root }
  root := NodeId.first

/-- The number of live nodes. -/
def size (t : Tree) : Nat := t.entries.size

/-- Whether no node is live. -/
def isEmpty (t : Tree) : Bool := t.entries.isEmpty

/-- Whether a node is live. -/
def contains (t : Tree) (id : NodeId) : Bool := t.entries.contains id

/-- The attributes of a live node. -/
def node? (t : Tree) (id : NodeId) : Option Node := t.entries[id]?.map (·.node)

/-- The parent of a live node that is not the root. -/
def parent? (t : Tree) (id : NodeId) : Option NodeId := t.entries[id]?.bind (·.parent)

/-- The children of a live node, back to front. -/
def children? (t : Tree) (id : NodeId) : Option (List NodeId) := t.entries[id]?.map (·.children)

/-- The children of a node that are live themselves. -/
def liveChildren (t : Tree) (id : NodeId) : List NodeId :=
  ((t.children? id).getD []).filter t.contains

/-- The tree with changed attributes of one node; a node that is not live stays so. -/
def mapNode (t : Tree) (id : NodeId) (f : Node → Node) : Tree :=
  { t with entries := t.entries.modify id fun e => { e with node := f e.node } }

/-- The tree with another toolkit identity. -/
def setToolkit (t : Tree) (toolkit : Toolkit) : Tree := { t with toolkit }

/-- Moves input focus, or takes it away from every node. Answers who held it. -/
def trySetFocus (t : Tree) (focus : Option NodeId) : Outcome (Option NodeId) :=
  match focus with
  | none => ⟨.ok t.focus, { t with focus := none }⟩
  | some id =>
    if t.contains id then ⟨.ok t.focus, { t with focus := some id }⟩
    else ⟨.error (.unknownNode id), t⟩

/-- The tree with input focus moved. -/
def setFocus (t : Tree) (focus : Option NodeId) : Except TreeError Tree :=
  (t.trySetFocus focus).result fun _ t => t

@[ext] theorem ext {t u : Tree} (he : ∀ id : NodeId, t.entries[id]? = u.entries[id]?)
    (hr : t.root = u.root) (hf : t.focus = u.focus) (hk : t.toolkit = u.toolkit) : t = u := by
  obtain ⟨_, _, _, _⟩ := t
  obtain ⟨_, _, _, _⟩ := u
  obtain rfl := ExtTreeMap.ext_getElem? he
  simp_all

theorem contains_iff {t : Tree} {id : NodeId} :
    t.contains id = true ↔ ∃ e, t.entries[id]? = some e := by
  simp only [contains, ← ExtTreeMap.isSome_getElem?_eq_contains, Option.isSome_iff_exists]

theorem contains_iff_node? {t : Tree} {id : NodeId} :
    t.contains id = true ↔ ∃ n, t.node? id = some n := by
  rw [contains_iff]
  constructor
  · rintro ⟨e, he⟩
    exact ⟨e.node, by simp [node?, he]⟩
  · rintro ⟨n, hn⟩
    obtain ⟨e, he, -⟩ := Option.map_eq_some_iff.1 hn
    exact ⟨e, he⟩

theorem node?_mapNode {t : Tree} {id x : NodeId} {f : Node → Node} :
    (t.mapNode id f).node? x = if id = x then (t.node? x).map f else t.node? x := by
  simp only [node?, mapNode, ExtTreeMap.getElem?_modify, NodeId.compare_eq_iff]
  split
  · subst id; cases t.entries[x]? <;> rfl
  · rfl

end Tree

end AccessBridge
