import AccessBridge.Tree.Traversal
import Std.Data.ExtTreeSet

/-!
# Applying an update

An update and a tree merge into one graph: an id has the children that the update describes for
it, or else the children it has in the tree. The update is accepted when the graph unfolds from
the new root into a tree; the unfolding is then the new tree. `unfold` consumes the graph while
it walks: an id whose entry is gone has been met before. What the walk has reached decides which
nodes go and which descriptions are put to use, and the summary of the change is made up from there.
-/

namespace AccessBridge

open Std (ExtTreeMap ExtTreeSet)

/-- The child lists of a merged tree and update. -/
abbrev ChildGraph := ExtTreeMap NodeId (List NodeId)

/-- The place that an unfolding gives to an id. -/
structure Placement where
  id : NodeId
  parent : Option NodeId
  children : List NodeId
deriving DecidableEq, Repr

namespace ChildGraph

/-- Unfolds a stack of ids, each with the parent it is met under, into placements in pre-order.
    `rest` is the part of the graph that is not placed yet. The first id that cannot be placed
    ends the walk: it is in two places if the graph knows it, and unknown otherwise. -/
def unfold (graph rest : ChildGraph) :
    List (Option NodeId × NodeId) → Except TreeError (List Placement)
  | [] => .ok []
  | (parent, id) :: stack =>
    match h : rest[id]? with
    | none => .error (if graph.contains id then .cycle id else .unknownNode id)
    | some children =>
      have : (rest.erase id).size < rest.size := by
        have hc : rest.contains id = true := by
          rw [← ExtTreeMap.isSome_getElem?_eq_contains, h]; rfl
        have hp : 0 < rest.size := by
          rcases Nat.eq_zero_or_pos rest.size with h0 | h0
          · rw [ExtTreeMap.eq_empty_iff_size_eq_zero.2 h0] at h
            simp at h
          · exact h0
        rw [ExtTreeMap.size_erase, if_pos hc]
        omega
      (unfold graph (rest.erase id) (children.map (some id, ·) ++ stack)).map
        (⟨id, parent, children⟩ :: ·)
termination_by rest.size

/-- The unfolding of a graph from a root. -/
def unfoldFrom (graph : ChildGraph) (root : NodeId) : Except TreeError (List Placement) :=
  graph.unfold graph [(none, root)]

end ChildGraph

/-- The ids that a walk has reached. -/
def Placement.reached (placements : List Placement) : ExtTreeSet NodeId :=
  .ofList (placements.map (·.id))

/-- What an accepted update did. -/
structure UpdateSummary where
  /-- The described nodes that are live afterwards, in the update's order. -/
  updated : List NodeId
  /-- The nodes that were live before and are not afterwards, in increasing order. -/
  removed : List NodeId
  oldFocus : Option NodeId
  newFocus : Option NodeId
  rootChanged : Bool
deriving DecidableEq, Repr

/-- Whether input focus moved. -/
def UpdateSummary.focusChanged (s : UpdateSummary) : Bool :=
  decide (s.oldFocus ≠ s.newFocus)

namespace TreeUpdate

/-- The root that a tree has after the update. -/
def newRoot (u : TreeUpdate) (t : Tree) : NodeId :=
  (u.info.map (·.root)).getD t.root

/-- The toolkit that a tree names after the update. -/
def newToolkit (u : TreeUpdate) (t : Tree) : Toolkit :=
  (u.info.map (·.toolkit)).getD t.toolkit

/-- The child lists of the tree, overlaid by those that the update describes. -/
def mergedGraph (u : TreeUpdate) (t : Tree) : ChildGraph :=
  u.described.foldl (fun g id n => g.insert id n.children) (t.entries.map fun _ e => e.children)

/-- The ids whose descriptions are put to use, along the update's order. `incoming` holds the
    descriptions that have not been taken yet, so that an id takes its description where it occurs
    first. The description of an id that the walk has not reached is ignored. -/
def takeDescribed (reached : ExtTreeSet NodeId) (incoming : ExtTreeMap NodeId ToolkitNode) :
    List NodeId → List NodeId
  | [] => []
  | id :: order =>
    if incoming.contains id then
      let rest := takeDescribed reached (incoming.erase id) order
      if reached.contains id then id :: rest else rest
    else takeDescribed reached incoming order

end TreeUpdate

namespace Tree

/-- The attributes that a node has after an update: the described ones, or else those it has. -/
def attributesAfter (t : Tree) (described : ExtTreeMap NodeId ToolkitNode) (id : NodeId) : Node :=
  match described[id]? with
  | some n => n.toNode
  | none => (t.node? id).getD {}

/-- The tree after an update whose placements are known. Focus on the root means that nothing is
    focused. -/
def replaced (t : Tree) (u : TreeUpdate) (placements : List Placement) : Tree :=
  let described := u.described
  let entries := placements.foldl
    (fun m p => m.insert p.id ⟨t.attributesAfter described p.id, p.parent, p.children⟩)
    (∅ : ExtTreeMap NodeId Entry)
  let root := u.newRoot t
  { entries
    root
    focus := if u.focus ≠ root ∧ entries.contains u.focus then some u.focus else none
    toolkit := u.newToolkit t }

/-- The account of an update whose placements are known. -/
def summary (t : Tree) (u : TreeUpdate) (placements : List Placement) : UpdateSummary :=
  let reached := Placement.reached placements
  { updated := TreeUpdate.takeDescribed reached u.described u.ids
    removed := t.entries.keys.filter fun id => !reached.contains id
    oldFocus := t.focus
    newFocus := (t.replaced u placements).focus
    rootChanged := decide (u.newRoot t ≠ t.root) }

/-- Applies an update, or refuses it: for the first described id that no host can address, or for
    the first id in pre-order that cannot be placed. -/
def tryUpdate (t : Tree) (u : TreeUpdate) : Outcome UpdateSummary :=
  match u.ids.find? (fun id => ¬ id.InRange) with
  | some id => ⟨.error (.idOutOfRange id), t⟩
  | none =>
    match (u.mergedGraph t).unfoldFrom (u.newRoot t) with
    | .error e => ⟨.error e, t⟩
    | .ok placements => ⟨.ok (t.summary u placements), t.replaced u placements⟩

/-- The tree after an update, and the account of it. -/
def update (t : Tree) (u : TreeUpdate) : Except TreeError (Tree × UpdateSummary) :=
  (t.tryUpdate u).result fun summary t => (t, summary)

end Tree

end AccessBridge
