import AccessBridge.Tree.Traversal

/-!
# Editing a tree

Inserting, removing and moving one node. Each edit is given by what it answers and the tree that it
leaves behind (`tryInsertAt`, `tryRemove`, `tryMove`), and by the two together where it is not
refused (`insertAt`, `remove`, `move`).
-/

namespace AccessBridge

/-- The entry without one of its children. -/
def Entry.dropChild (e : Entry) (id : NodeId) : Entry :=
  { e with children := e.children.filter (· != id) }

/-- The entry with a further child at a position, or in front when the list is shorter. -/
def Entry.addChild (e : Entry) (index : Nat) (id : NodeId) : Entry :=
  { e with children := e.children.insertIdx (min index e.children.length) id }

namespace Tree

/-- Inserts a new leaf at a position among the children of `parent`. -/
def tryInsertAt (t : Tree) (parent : NodeId) (index : Nat) (id : NodeId) (node : Node) :
    Outcome Unit :=
  if ¬ id.InRange then ⟨.error (.idOutOfRange id), t⟩
  else if t.contains id then ⟨.error (.duplicateId id), t⟩
  else match t.entries[parent]? with
    | none => ⟨.error (.unknownNode parent), t⟩
    | some e =>
      ⟨.ok (), { t with
        entries := (t.entries.insert parent (e.addChild index id)).insert id
          { node, parent := some parent } }⟩

/-- Inserts a new leaf in front of the children of `parent`. -/
def tryInsert (t : Tree) (parent id : NodeId) (node : Node) : Outcome Unit :=
  t.tryInsertAt parent ((t.children? parent).getD []).length id node

/-- Removes a node with its subtree. Answers the removed nodes, descendants before their ancestors.
    Focus on one of them is lost. -/
def tryRemove (t : Tree) (id : NodeId) : Outcome (List NodeId) :=
  if id = t.root then ⟨.error (.rootRemoval id), t⟩
  else match t.entries[id]? with
    | none => ⟨.error (.unknownNode id), t⟩
    | some e =>
      let removed := t.subtreePostorder id
      let unlinked := match e.parent with
        | none => t.entries
        | some p => t.entries.modify p (·.dropChild id)
      let entries := removed.foldl (fun m x => m.erase x) unlinked
      ⟨.ok removed, { t with entries, focus := t.focus.filter entries.contains }⟩

/-- Moves a node with its subtree to a position among the children of `newParent`, counted after
    the node has left its old place; without a position it moves to the front. -/
def tryMove (t : Tree) (id newParent : NodeId) (index : Option Nat) : Outcome Unit :=
  if ¬ t.contains id then ⟨.error (.unknownNode id), t⟩
  else if ¬ t.contains newParent then ⟨.error (.unknownNode newParent), t⟩
  else if id = t.root ∨ t.isAncestorOrSelf id newParent then ⟨.error (.cycle id), t⟩
  else
    let unlinked := match t.parent? id with
      | none => t.entries
      | some p => t.entries.modify p (·.dropChild id)
    let linked := unlinked.modify newParent fun e => e.addChild (index.getD e.children.length) id
    ⟨.ok (), { t with entries := linked.modify id fun e => { e with parent := some newParent } }⟩

/-- Moves a node in front of its siblings. -/
def tryRaise (t : Tree) (id : NodeId) : Outcome Unit :=
  match t.parent? id with
  | none => ⟨.error (.unknownNode id), t⟩
  | some p => t.tryMove id p none

/-- The tree with a new leaf at a position among the children of `parent`. -/
def insertAt (t : Tree) (parent : NodeId) (index : Nat) (id : NodeId) (node : Node) :
    Except TreeError Tree :=
  (t.tryInsertAt parent index id node).result fun _ t => t

/-- The tree with a new leaf in front of the children of `parent`. -/
def insert (t : Tree) (parent id : NodeId) (node : Node) : Except TreeError Tree :=
  (t.tryInsert parent id node).result fun _ t => t

/-- The nodes of a subtree, descendants before their ancestors, and the tree without them. -/
def remove (t : Tree) (id : NodeId) : Except TreeError (List NodeId × Tree) :=
  (t.tryRemove id).result fun removed t => (removed, t)

/-- The tree with a subtree at another place. -/
def move (t : Tree) (id newParent : NodeId) (index : Option Nat) : Except TreeError Tree :=
  (t.tryMove id newParent index).result fun _ t => t

/-- The tree with a node in front of its siblings. -/
def raise (t : Tree) (id : NodeId) : Except TreeError Tree :=
  (t.tryRaise id).result fun _ t => t

end Tree

end AccessBridge
