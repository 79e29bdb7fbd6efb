import AccessBridge.Tree.Basic
import AccessBridge.Worklist

/-!
# Walks over a tree

Pre-order, the descendants-first order of a subtree, hit testing and the climb to the root. Each
walk works on a stack and is given as many pops as a tree has use for: a node is popped once on
the way in and, where it is put back, once on the way out.
-/

namespace AccessBridge.Tree

/-- A node on the stack of a walk that sees it on the way in and on the way out. -/
inductive Turn where
  | enter (id : NodeId)
  | leave (id : NodeId)
deriving DecidableEq, Repr

/-! ## Pre-order -/

/-- A live node is yielded and makes room for its children, the backmost on top. -/
def preorderVisit (t : Tree) (id : NodeId) : Option NodeId × List NodeId :=
  match t.entries[id]? with
  | none => (none, [])
  | some e => (some id, e.children)

/-- The live nodes, each before its descendants, siblings in paint order. -/
def preorder (t : Tree) : List NodeId :=
  Worklist.run t.preorderVisit t.size [t.root]

/-! ## Descendants first -/

/-- A node makes room for its children, the frontmost on top, and comes back after them. -/
def postorderVisit (t : Tree) : Turn → Option NodeId × List Turn
  | .leave id => (some id, [])
  | .enter id => (none, ((t.children? id).getD []).reverse.map .enter ++ [.leave id])

/-- The nodes of a subtree, each after its descendants, siblings front to back. -/
def subtreePostorder (t : Tree) (id : NodeId) : List NodeId :=
  Worklist.run t.postorderVisit (2 * t.size) [.enter id]

/-! ## Hit testing -/

/-- A hidden node and a node whose bounds miss the point end the search below them. Otherwise the
    children are searched, the frontmost first, and after them the node itself if it has
    bounds. -/
def hitVisit (t : Tree) (inside : Rect → Bool) : Turn → Option NodeId × List Turn
  | .leave id => (some id, [])
  | .enter id =>
    match t.entries[id]? with
    | none => (none, [])
    | some e =>
      if e.node.states.hidden then (none, [])
      else
        let below := e.children.reverse.map Turn.enter
        match e.node.bounds with
        | none => (none, below)
        | some b => if inside b then (none, below ++ [.leave id]) else (none, [])

/-- The frontmost node with bounds that are inside, where a hidden node and a node with bounds
    that are not inside take their subtrees with them. -/
def frontmost? (t : Tree) (inside : Rect → Bool) : Option NodeId :=
  Worklist.first? (t.hitVisit inside) (2 * t.size) [.enter t.root]

/-- The node under a point. -/
def hitTest (t : Tree) (p : Point) : Option NodeId :=
  t.frontmost? (·.contains p)

/-! ## Towards the root -/

/-- A node, its parent and so on, for a number of steps. -/
def climb (t : Tree) : Nat → NodeId → List NodeId
  | 0, id => [id]
  | n + 1, id => id :: match t.parent? id with
    | none => []
    | some p => climb t n p

/-- A node with its ancestors, nearest first. -/
def ancestry (t : Tree) (id : NodeId) : List NodeId :=
  t.climb t.size id

/-- Whether `a` is `id` or one of its ancestors. -/
def isAncestorOrSelf (t : Tree) (a id : NodeId) : Bool :=
  (t.ancestry id).contains a

end AccessBridge.Tree
