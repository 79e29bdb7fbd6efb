import AccessBridge.Proofs.Tree.Editing
import AccessBridge.Proofs.Tree.Replacement

/-!
# The invariant of the tree store

`Tree.Reachable` is every tree that a new one becomes by edits and updates, whether they succeed
or are refused. A change that is refused leaves the tree as it is (`spares_attempt`).
`Tree.WellFormed` is what holds of all reachable trees (`Reachable.wellFormed`): parent links and
child lists agree, every node hangs below the root, none hangs below itself, a host can address each
of them, and focus is on a live node. Each edit keeps a tree arranged; the invariant is read off the
arrangement.
-/

namespace AccessBridge.Tree

open Std (ExtTreeMap)
open Relation

/-! ## Runs -/

/-- A change that the owner of a tree asks for. -/
inductive Edit where
  | insert (parent id : NodeId) (node : Node)
  | insertAt (parent : NodeId) (index : Nat) (id : NodeId) (node : Node)
  | remove (id : NodeId)
  | move (id newParent : NodeId) (index : Option Nat)
  | raise (id : NodeId)
  | setFocus (focus : Option NodeId)
  | clearFocus
  | setToolkit (toolkit : Toolkit)
  /-- Whatever is done to the attributes of a node. -/
  | mapNode (id : NodeId) (f : Node → Node)
  | update (u : TreeUpdate)

/-- The tree after a change, or why the change is refused. -/
def apply (t : Tree) : Edit → Except TreeError Tree
  | .insert parent id node => t.insert parent id node
  | .insertAt parent index id node => t.insertAt parent index id node
  | .remove id => (t.remove id).map (·.2)
  | .move id newParent index => t.move id newParent index
  | .raise id => t.raise id
  | .setFocus focus => t.setFocus focus
  | .clearFocus => t.setFocus none
  | .setToolkit toolkit => .ok (t.setToolkit toolkit)
  | .mapNode id f => .ok (t.mapNode id f)
  | .update u => (t.update u).map (·.1)

/-- What is left of an outcome if nobody looks at what it answers. -/
def Outcome.forget {α : Type} (o : Outcome α) : Outcome Unit := ⟨o.answer.map fun _ => (), o.tree⟩

/-- What asking for a change comes to. -/
def attempt (t : Tree) : Edit → Outcome Unit
  | .insert parent id node => t.tryInsert parent id node
  | .insertAt parent index id node => t.tryInsertAt parent index id node
  | .remove id => (t.tryRemove id).forget
  | .move id newParent index => t.tryMove id newParent index
  | .raise id => t.tryRaise id
  | .setFocus focus => (t.trySetFocus focus).forget
  | .clearFocus => (t.trySetFocus none).forget
  | .setToolkit toolkit => ⟨.ok (), t.setToolkit toolkit⟩
  | .mapNode id f => ⟨.ok (), t.mapNode id f⟩
  | .update u => (t.tryUpdate u).forget

/-- The tree that the owner has after asking for a change. -/
def step (t : Tree) (e : Edit) : Tree := (t.attempt e).tree

/-- The trees that a new tree becomes. -/
inductive Reachable : Tree → Prop where
  | ofRoot (root : Node) : Reachable (ofRoot root)
  | step {t : Tree} (h : Reachable t) (e : Edit) : Reachable (t.step e)

/-- What every reachable tree satisfies. -/
structure WellFormed (t : Tree) : Prop where
  root_live : t.contains t.root = true
  parent_root : t.parent? t.root = none
  /-- Every other live node has a live parent, which lists it once; no other node lists it. -/
  placed : ∀ x, t.contains x = true → x ≠ t.root → ∃ p cs, t.parent? x = some p ∧
    t.contains p = true ∧ t.children? p = some cs ∧ cs.count x = 1 ∧
    ∀ q ds, t.children? q = some ds → x ∈ ds → q = p
  children_live : ∀ p cs, t.children? p = some cs → ∀ c ∈ cs, t.contains c = true
  reached : ∀ x, t.contains x = true → ReflTransGen (IsChild t.children?) t.root x
  acyclic : ∀ x, ¬ TransGen (IsChild t.children?) x x
  inRange : ∀ x, t.contains x = true → x.val ≤ NodeId.maxVal
  focus_live : ∀ x, t.focus = some x → t.contains x = true

variable {t t' : Tree} {l : List NodeId}

/-! ## Refusals -/

/-- If the operation is refused, it leaves the tree `t`. -/
def Outcome.Spares {α : Type} (o : Outcome α) (t : Tree) : Prop :=
  ∀ err, o.answer = .error err → o.tree = t

namespace Outcome

variable {α β γ : Type} {o : Outcome α}

theorem map_result {f : α → Tree → β} {g : β → γ} :
    (o.result f).map g = o.result fun a t => g (f a t) := by
  unfold result
  cases o.answer <;> rfl

theorem result_forget : o.forget.result (fun _ t => t) = o.result fun _ t => t := by
  unfold result forget
  cases o.answer <;> rfl

theorem spares_of_error {err : TreeError} : Spares (⟨.error err, t⟩ : Outcome α) t :=
  fun _ _ => rfl

theorem spares_of_ok {answer : α} : Spares ⟨.ok answer, t'⟩ t := by
  intro err herr
  cases herr

theorem Spares.forget (h : o.Spares t) : o.forget.Spares t := by
  intro err herr
  exact h err (Except.map_eq_error herr)

end Outcome

open Outcome (spares_of_error spares_of_ok)

theorem spares_trySetFocus {focus : Option NodeId} : (t.trySetFocus focus).Spares t := by
  unfold trySetFocus
  split
  · exact spares_of_ok
  · split
    · exact spares_of_ok
    · exact spares_of_error

theorem spares_tryInsertAt {parent id : NodeId} {index : Nat} {node : Node} :
    (t.tryInsertAt parent index id node).Spares t := by
  unfold tryInsertAt
  split
  · exact spares_of_error
  · split
    · exact spares_of_error
    · split
      · exact spares_of_error
      · exact spares_of_ok

theorem spares_tryRemove {id : NodeId} : (t.tryRemove id).Spares t := by
  unfold tryRemove
  split
  · exact spares_of_error
  · split
    · exact spares_of_error
    · exact spares_of_ok

theorem spares_tryMove {id newParent : NodeId} {index : Option Nat} :
    (t.tryMove id newParent index).Spares t := by
  unfold tryMove
  split
  · exact spares_of_error
  · split
    · exact spares_of_error
    · split
      · exact spares_of_error
      · exact spares_of_ok

theorem spares_tryRaise {id : NodeId} : (t.tryRaise id).Spares t := by
  unfold tryRaise
  split
  · exact spares_of_error
  · exact spares_tryMove

theorem spares_tryUpdate {u : TreeUpdate} : (t.tryUpdate u).Spares t := by
  unfold tryUpdate
  split
  · exact spares_of_error
  · split
    · exact spares_of_error
    · exact spares_of_ok

/-- **A refused change leaves the tree as it is**, whatever the change is and why it is refused. -/
theorem spares_attempt (t : Tree) (e : Edit) : (t.attempt e).Spares t := by
  cases e with
  | insert | insertAt => exact spares_tryInsertAt
  | remove => exact spares_tryRemove.forget
  | move => exact spares_tryMove
  | raise => exact spares_tryRaise
  | setFocus | clearFocus => exact spares_trySetFocus.forget
  | setToolkit | mapNode => exact spares_of_ok
  | update => exact spares_tryUpdate.forget

/-- Asking for a change gives the tree that is left, or says why the change is refused. -/
theorem apply_eq_result (t : Tree) (e : Edit) :
    t.apply e = (t.attempt e).result fun _ t' => t' := by
  cases e with
  | insert | insertAt | move | raise | clearFocus | setToolkit | mapNode => rfl
  | setFocus => exact Outcome.result_forget.symm
  | remove | update => exact Outcome.map_result.trans Outcome.result_forget.symm

theorem step_of_ok {e : Edit} (h : t.apply e = .ok t') : t.step e = t' := by
  rw [apply_eq_result] at h
  obtain ⟨-, -, rfl⟩ := Except.map_eq_ok h
  rfl

theorem step_of_error {e : Edit} {err : TreeError} (h : t.apply e = .error err) :
    t.step e = t := by
  rw [apply_eq_result] at h
  exact spares_attempt t e err (Except.map_eq_error h)

section Update

variable {u : TreeUpdate} {s : UpdateSummary} {err : TreeError}

theorem tryUpdate_of_ok (h : t.update u = .ok (t', s)) : t.tryUpdate u = ⟨.ok s, t'⟩ := by
  obtain ⟨answer, hanswer, hpair⟩ := Except.map_eq_ok h
  obtain ⟨rfl, rfl⟩ := Prod.mk.inj hpair
  rw [← hanswer]

theorem tryUpdate_of_error (h : t.update u = .error err) : t.tryUpdate u = ⟨.error err, t⟩ := by
  have hanswer := Except.map_eq_error h
  have htree := spares_tryUpdate err hanswer
  calc t.tryUpdate u = ⟨(t.tryUpdate u).answer, (t.tryUpdate u).tree⟩ := rfl
    _ = ⟨.error err, t⟩ := by rw [hanswer, htree]

theorem step_update_of_ok (h : t.update u = .ok (t', s)) : t.step (.update u) = t' :=
  congrArg Outcome.tree (tryUpdate_of_ok h)

theorem step_update_of_error (h : t.update u = .error err) : t.step (.update u) = t :=
  congrArg Outcome.tree (tryUpdate_of_error h)

end Update

/-! ## What edits keep -/

theorem arranged_ofRoot (root : Node) : (ofRoot root).Arranged [NodeId.first] := by
  have hentry : ∀ x, (ofRoot root).entries[x]? =
      if x = NodeId.first then some ⟨root, none, []⟩ else none := fun x => by
    simp [ofRoot, ExtTreeMap.getElem?_insert, eq_comm (a := x)]
  have hleaf : ∀ p c, ¬ IsChild (ofRoot root).children? p c := by
    rintro p c ⟨cs, known, hc⟩
    rw [children?, hentry] at known
    split at known
    · obtain rfl := Option.some.inj known
      cases hc
    · cases known
  have hparent : ∀ x, (ofRoot root).parent? x = none := fun x => by
    rw [parent?, hentry]
    split <;> rfl
  constructor
  · exact .leaf (by rw [children?, hentry, ofRoot]; rfl)
  · exact List.nodup_singleton _
  · intro x
    rw [contains_iff, hentry, List.mem_singleton]
    split <;> simp [*]
  · intro p c
    simp [hparent, hleaf]
  · intro x hx
    rw [List.mem_singleton.1 hx]
    decide
  · intro x hx
    cases hx

/-- A change that leaves links, root and liveness alone leaves the arrangement alone. -/
theorem Arranged.of_same_links (h : t.Arranged l) (hc : t'.children? = t.children?)
    (hp : t'.parent? = t.parent?) (hr : t'.root = t.root)
    (hf : ∀ x, t'.focus = some x → t.contains x = true) : t'.Arranged l where
  layout := by rw [hc, hr]; exact h.layout
  nodup := h.nodup
  live x := by rw [h.live, contains_iff_children?, contains_iff_children?, hc]
  parent := by rw [hc, hp]; exact h.parent
  inRange := h.inRange
  focus x hx := (h.live x).2 (hf x hx)

theorem Arranged.setFocus {focus : Option NodeId} (h : t.Arranged l)
    (hok : t.setFocus focus = .ok t') : t'.Arranged l := by
  unfold Tree.setFocus trySetFocus at hok
  split at hok
  · obtain rfl := Except.ok.inj hok
    exact h.of_same_links rfl rfl rfl nofun
  · split at hok
    · rename_i id hid
      obtain rfl := Except.ok.inj hok
      refine h.of_same_links rfl rfl rfl fun x hx => ?_
      rwa [← Option.some.inj hx]
    · cases hok

theorem getElem?_mapNode (t : Tree) (id : NodeId) (f : Node → Node) (x : NodeId) :
    (t.mapNode id f).entries[x]? =
      t.entries[x]?.map fun e => if id = x then { e with node := f e.node } else e :=
  getElem?_modify_eq_map t.entries _

theorem children?_mapNode (t : Tree) (id : NodeId) (f : Node → Node) (x : NodeId) :
    (t.mapNode id f).children? x = t.children? x := by
  have hentry := getElem?_mapNode t id f x
  rw [children?_of_map (k := fun cs => cs) hentry fun e => by split <;> rfl, Option.map_id']

theorem parent?_mapNode (t : Tree) (id : NodeId) (f : Node → Node) (x : NodeId) :
    (t.mapNode id f).parent? x = t.parent? x :=
  parent?_of_map (getElem?_mapNode t id f x) fun e => by split <;> rfl

theorem Arranged.mapNode (h : t.Arranged l) (id : NodeId) (f : Node → Node) :
    (t.mapNode id f).Arranged l := by
  apply h.of_same_links
  · funext x
    exact children?_mapNode t id f x
  · funext x
    exact parent?_mapNode t id f x
  · rfl
  · intro x hx
    exact (h.live x).1 (h.focus x hx)

/-- Every change that is carried out leaves an arranged tree. -/
theorem Arranged.apply {e : Edit} (h : t.Arranged l) (hok : t.apply e = .ok t') :
    ∃ l', t'.Arranged l' := by
  cases e with
  | insert parent id node =>
    obtain ⟨A, C, -, h'⟩ := h.insertAt hok
    exact ⟨_, h'⟩
  | insertAt parent index id node =>
    obtain ⟨A, C, -, h'⟩ := h.insertAt hok
    exact ⟨_, h'⟩
  | remove id =>
    obtain ⟨⟨removed, t'⟩, hok, rfl⟩ := Except.map_eq_ok hok
    obtain ⟨A, b, C, -, -, -, h'⟩ := h.remove hok
    exact ⟨_, h'⟩
  | move id newParent index =>
    obtain ⟨A, b, C, A', C', -, -, -, -, h'⟩ := h.move hok
    exact ⟨_, h'⟩
  | raise id =>
    obtain ⟨q, -, hok⟩ := raise_eq_ok hok
    obtain ⟨A, b, C, A', C', -, -, -, -, h'⟩ := h.move hok
    exact ⟨_, h'⟩
  | setFocus focus => exact ⟨l, h.setFocus hok⟩
  | clearFocus => exact ⟨l, h.setFocus (show t.setFocus none = .ok t' from hok)⟩
  | setToolkit toolkit =>
    obtain rfl := Except.ok.inj hok
    exact ⟨l, h.of_same_links rfl rfl rfl fun x hx => (h.live x).1 (h.focus x hx)⟩
  | mapNode id f =>
    obtain rfl := Except.ok.inj hok
    exact ⟨l, h.mapNode id f⟩
  | update u =>
    obtain ⟨⟨t', s⟩, hok, rfl⟩ := Except.map_eq_ok hok
    exact h.update hok

theorem Arranged.step (h : t.Arranged l) (e : Edit) : ∃ l', (t.step e).Arranged l' := by
  cases hresult : t.apply e with
  | ok t' =>
    rw [step_of_ok hresult]
    exact h.apply hresult
  | error err =>
    rw [step_of_error hresult]
    exact ⟨l, h⟩

/-- The invariant of a run: child lists and parent links describe one layout of the live nodes. -/
theorem Reachable.arranged (h : t.Reachable) : ∃ l, t.Arranged l := by
  induction h with
  | ofRoot root => exact ⟨_, arranged_ofRoot root⟩
  | step _ e ih =>
    obtain ⟨l, hl⟩ := ih
    exact hl.step e

/-! ## What an arrangement tells -/

theorem WellFormed.of_arranged (h : t.Arranged l) : t.WellFormed where
  root_live := (h.live _).1 h.root_mem
  parent_root := h.parent?_root
  placed x hx hr := by
    obtain ⟨q, cs, ds, b, hg⟩ := h.hangs ((h.live x).2 hx) hr
    refine ⟨q, cs ++ x :: ds, hg.parent, (h.live q).1 hg.parent_mem, hg.listed,
      List.count_eq_one_of_mem hg.once (by simp), fun p es known hmem => ?_⟩
    exact Option.some.inj (((h.parent p x).2 ⟨es, known, hmem⟩).symm.trans hg.parent)
  children_live p cs known c hc := (h.live c).1 (h.mem_of_isChild ⟨cs, known, hc⟩).2
  reached x hx := h.mem_iff.1 ((h.live x).2 hx)
  acyclic x hr := by
    obtain ⟨y, hxy, -⟩ := TransGen.head'_iff.1 hr
    exact h.layout.irrefl (h.mem_of_isChild hxy).1 hr
  inRange x hx := h.inRange x ((h.live x).2 hx)
  focus_live x hx := (h.live x).1 (h.focus x hx)

/-- A host can address every live node. -/
theorem Reachable.inRange {x : NodeId} (h : t.Reachable) (live : t.contains x = true) :
    x.InRange := by
  obtain ⟨l, hl⟩ := h.arranged
  exact hl.inRange x ((hl.live x).2 live)

/-- **The invariant of the tree store.** -/
theorem Reachable.wellFormed (h : t.Reachable) : t.WellFormed := by
  obtain ⟨l, hl⟩ := h.arranged
  exact .of_arranged hl

/-- A run with a refused edit whose last step hangs the old root below a new one. -/
theorem wellFormed_after_rerooting :
    let t := (((ofRoot {}).step (.insert ⟨0⟩ ⟨1⟩ {})).step (.insert ⟨1⟩ ⟨2⟩ {})).step
      (.move ⟨1⟩ ⟨2⟩ none)
    let t' := t.step (.update
      { nodes := [(⟨5⟩, { role := "Window", children := [⟨1⟩, ⟨0⟩] }), (⟨0⟩, { role := "Label" })]
        info := some { root := ⟨5⟩ }
        focus := ⟨2⟩ })
    t'.Reachable ∧ t'.preorder = [⟨5⟩, ⟨1⟩, ⟨2⟩, ⟨0⟩] ∧ t'.WellFormed := by
  intro t t'
  have ht : t'.Reachable := (((Reachable.ofRoot {}).step _).step _).step _ |>.step _
  exact ⟨ht, by decide +kernel, Reachable.wellFormed ht⟩

end AccessBridge.Tree
