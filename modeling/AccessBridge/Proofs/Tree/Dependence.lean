import AccessBridge.Proofs.Tree.Account

/-!
# What an update depends on

An update reads the tree that it is applied to at few places: the root and the toolkit if it names
none itself, and the nodes that the new root leads to and that it does not describe. `SaysSame`
states that two updates of two trees agree there; then they end in the same tree
(`SaysSame.update`). An update that is applied once more agrees with itself (`update_idempotent`).
An update that describes all that it leads to reads nothing of the old tree and takes its nodes in
any order (`update_determined`).
-/

namespace AccessBridge

open Relation
open scoped List

namespace Tree

variable {t t' t₁ t₂ : Tree} {u u' : TreeUpdate} {l : List NodeId} {s : UpdateSummary}

/-- The update `u'` of `t'` says what the update `u` of `t` says, as far as the new root leads. -/
structure SaysSame (t : Tree) (u : TreeUpdate) (t' : Tree) (u' : TreeUpdate) : Prop where
  root : u'.newRoot t' = u.newRoot t
  focus : u'.focus = u.focus
  toolkit : u'.newToolkit t' = u.newToolkit t
  inRange : (∀ id ∈ u.ids, id.InRange) → ∀ id ∈ u'.ids, id.InRange
  described : ∀ x, ReflTransGen (IsChild (t.mergedChildren? u)) (u.newRoot t) x →
    u'.last? x = u.last? x
  kept : ∀ x, ReflTransGen (IsChild (t.mergedChildren? u)) (u.newRoot t) x → u.last? x = none →
    t'.node? x = t.node? x ∧ t'.children? x = t.children? x

/-- An update is accepted whose merged graph has a layout without repetition. -/
theorem exists_update_eq_ok (hr : ∀ id ∈ u.ids, id.InRange)
    (h : Layout (t.mergedChildren? u) [u.newRoot t] l) (nd : l.Nodup) :
    ∃ r, t.update u = .ok r := by
  rw [← TreeUpdate.mergedGraph_eq] at h
  obtain ⟨ps, hps⟩ : ∃ ps, (u.mergedGraph t).unfoldFrom (u.newRoot t) = .ok ps :=
    ChildGraph.exists_unfold_eq_ok h nd fun _ _ => rfl
  rw [update_eq_map hr, hps]
  exact ⟨_, rfl⟩

namespace SaysSame

theorem mergedChildren?_eq (h : SaysSame t u t' u') {x : NodeId}
    (hx : ReflTransGen (IsChild (t.mergedChildren? u)) (u.newRoot t) x) :
    t'.mergedChildren? u' x = t.mergedChildren? u x := by
  rw [mergedChildren?, mergedChildren?, h.described x hx]
  cases hl : u.last? x with
  | some n => rfl
  | none => exact (h.kept x hx hl).2

/-- Both updates leave the same tree, if it is what one of them leaves. -/
theorem updatedBy (h : SaysSame t u t' u') (hl : Layout (t.mergedChildren? u) [u.newRoot t] l)
    (hu : t.UpdatedBy u t₁) : t'.UpdatedBy u' t₁ := by
  have hroot : t₁.root = u.newRoot t := hu.root.trans TreeUpdate.newRoot_eq.symm
  have hl' : Layout (t'.mergedChildren? u') [u.newRoot t] l :=
    hl.congr fun x hx => h.mergedChildren?_eq (hl.mem_singleton_iff.1 hx)
  have hreach : ∀ x, t₁.contains x = true →
      ReflTransGen (IsChild (t.mergedChildren? u)) (u.newRoot t) x := fun x hx => by
    rw [← hroot]
    exact (hu.live x).1 hx
  constructor
  case root => exact hroot.trans (h.root.symm.trans TreeUpdate.newRoot_eq)
  case live =>
    intro x
    rw [hu.live, hroot, ← hl.mem_singleton_iff, hl'.mem_singleton_iff]
  case described =>
    intro x n hx hn
    exact hu.described x n hx ((h.described x (hreach x hx)).symm.trans hn)
  case kept =>
    intro x hx hn
    have hn' : u.last? x = none := (h.described x (hreach x hx)).symm.trans hn
    obtain ⟨live, hnode, hchildren⟩ := hu.kept x hx hn'
    obtain ⟨hnode', hchildren'⟩ := h.kept x (hreach x hx) hn'
    refine ⟨?_, hnode.trans hnode'.symm, hchildren.trans hchildren'.symm⟩
    rwa [contains_iff_node?, hnode', ← contains_iff_node?]
  case parent => exact hu.parent
  case parent_root => exact hu.parent_root
  case focus => rw [h.focus, hu.focus]
  case toolkit =>
    have htoolkit : t₁.toolkit = u.newToolkit t := hu.toolkit.trans TreeUpdate.newToolkit_eq.symm
    exact htoolkit.trans (h.toolkit.symm.trans TreeUpdate.newToolkit_eq)

/-- Where one of the updates is accepted, so is the other, and they end in the same tree. -/
theorem update (h : SaysSame t u t' u') (hok : t.update u = .ok (t₁, s)) :
    ∃ s', t'.update u' = .ok (t₁, s') := by
  obtain ⟨hrange, ps, hps, rfl, -⟩ := update_eq_ok hok
  have hl := hps.layout
  have hl' : Layout (t'.mergedChildren? u') [u'.newRoot t'] (ps.map (·.id)) := by
    rw [h.root]
    exact hl.congr fun x hx => h.mergedChildren?_eq (hl.mem_singleton_iff.1 hx)
  obtain ⟨⟨t₂, s'⟩, hok'⟩ := exists_update_eq_ok (h.inRange hrange) hl' hps.nodup
  obtain ⟨-, ps', hps', rfl, -⟩ := update_eq_ok hok'
  have hu := h.updatedBy hl (updatedBy_replaced hps)
  exact ⟨s', by rw [hok', hu.unique (updatedBy_replaced hps')]⟩

end SaysSame

/-! ## Once more -/

/-- What an update has made of a tree, it finds there when it is applied again. -/
theorem UpdatedBy.saysSame (hu : t.UpdatedBy u t') : SaysSame t u t' u := by
  have hroot : u.newRoot t = t'.root := TreeUpdate.newRoot_eq.trans hu.root.symm
  constructor
  case root =>
    rw [hroot, TreeUpdate.newRoot_eq, hu.root]
    cases u.info <;> rfl
  case focus => rfl
  case toolkit =>
    rw [TreeUpdate.newToolkit_eq, TreeUpdate.newToolkit_eq, hu.toolkit]
    cases u.info <;> rfl
  case inRange => exact id
  case described => exact fun _ _ => rfl
  case kept =>
    intro x hx hn
    rw [hroot] at hx
    exact (hu.kept x ((hu.live x).2 hx) hn).2

/-- **Updates are idempotent.** An update that is accepted is accepted again and changes nothing the
    second time; that time its summary says so. -/
theorem update_idempotent (h : t.update u = .ok (t', s)) :
    ∃ s', t'.update u = .ok (t', s') ∧ s'.removed = [] ∧ s'.updated = s.updated ∧
      s'.rootChanged = false ∧ s'.focusChanged = false := by
  obtain ⟨-, ps, hps, rfl, rfl⟩ := update_eq_ok h
  obtain ⟨s', hok⟩ := (updatedBy_replaced hps).saysSame.update h
  have hfirst := accounts_summary hps
  obtain ⟨-, ps', hps', hsame, rfl⟩ := update_eq_ok hok
  have hagain := accounts_summary hps'
  rw [← hsame] at hagain
  refine ⟨_, hok, ?_, ?_, ?_, ?_⟩
  · refine List.eq_nil_iff_forall_not_mem.2 fun x hx => ?_
    obtain ⟨hlive, hgone⟩ := (hagain.removed x).1 hx
    exact hgone hlive
  · -- The descriptions put to use are those of the ids that are live afterwards.
    exact hagain.updated_eq hfirst
  · exact Bool.eq_false_iff.2 fun hr => hagain.rootChanged.1 hr rfl
  · rw [UpdateSummary.focusChanged, hagain.oldFocus, hagain.newFocus]
    exact decide_eq_false (not_not.2 rfl)

/-- The root is not named and described twice, a node hangs nowhere, a child is dropped. -/
theorem update_idempotent_pruning :
    let t := (((ofRoot {}).step (.insert ⟨0⟩ ⟨1⟩ {})).step (.insert ⟨0⟩ ⟨2⟩ {})).step
      (.insert ⟨0⟩ ⟨3⟩ {})
    let u : TreeUpdate :=
      { nodes := [(⟨0⟩, { role := "Window", children := [⟨9⟩] }), (⟨7⟩, { role := "Label" }),
          (⟨1⟩, { role := "Group", children := [⟨2⟩] }),
          (⟨0⟩, { role := "Window", children := [⟨1⟩] })]
        focus := ⟨2⟩ }
    ∃ t' s s', t.update u = .ok (t', s) ∧ t'.preorder = [⟨0⟩, ⟨1⟩, ⟨2⟩] ∧ s.removed = [⟨3⟩] ∧
      s.updated = [⟨0⟩, ⟨1⟩] ∧ s.focusChanged = true ∧ t'.update u = .ok (t', s') ∧
      s'.removed = [] ∧ s'.updated = [⟨0⟩, ⟨1⟩] ∧ s'.rootChanged = false ∧
      s'.focusChanged = false := by
  intro t u
  have hrun : (t.update u).map (fun r => (r.1.preorder, r.2.removed, r.2.updated,
      r.2.focusChanged)) = .ok ([⟨0⟩, ⟨1⟩, ⟨2⟩], [⟨3⟩], [⟨0⟩, ⟨1⟩], true) := by decide +kernel
  obtain ⟨⟨t', s⟩, hok, hr⟩ := Except.map_eq_ok hrun
  obtain ⟨hpre, hremoved, hupdated, hfocus⟩ : _ ∧ _ ∧ _ ∧ _ := by simpa using hr.symm
  obtain ⟨s', hok', hremoved', hupdated', hroot', hfocus'⟩ := update_idempotent hok
  exact ⟨t', s, s', hok, hpre, hremoved, hupdated, hfocus, hok', hremoved',
    hupdated'.trans hupdated, hroot', hfocus'⟩

end Tree

/-! ## Without the old tree -/

namespace TreeUpdate

variable {u : TreeUpdate} {t t' : Tree} {nodes : List (NodeId × ToolkitNode)} {id x : NodeId}
  {n : ToolkitNode}

/-- The update describes `p` with the child `c`. -/
def Lists (u : TreeUpdate) (p c : NodeId) : Prop := ∃ n, (p, n) ∈ u.nodes ∧ c ∈ n.children

/-- The update describes no id twice; it names a root, and describes all that its own child lists
    lead to from there. -/
structure SelfContained (u : TreeUpdate) : Prop where
  once : u.ids.Nodup
  closed : ∃ info, u.info = some info ∧ ∀ x, ReflTransGen u.Lists info.root x → x ∈ u.ids

theorem last?_eq_some_iff (nd : u.ids.Nodup) : u.last? id = some n ↔ (id, n) ∈ u.nodes := by
  refine ⟨mem_nodes_of_last?, fun hmem => ?_⟩
  cases hl : u.last? id with
  | none =>
    rw [last?, Option.map_eq_none_iff, List.findRev?_eq_find?_reverse, List.find?_eq_none] at hl
    exact absurd (decide_eq_true rfl) (hl (id, n) (List.mem_reverse.2 hmem))
  | some m =>
    have he : (id, m) = (id, n) := List.inj_on_of_nodup_map nd (mem_nodes_of_last? hl) hmem rfl
    rw [(Prod.mk.inj he).2]

theorem last?_perm (nd : u.ids.Nodup) (hp : nodes ~ u.nodes) :
    { u with nodes }.last? id = u.last? id := by
  have nd' : { u with nodes }.ids.Nodup := (hp.map Prod.fst).nodup_iff.2 nd
  refine Option.ext fun n => ?_
  rw [last?_eq_some_iff nd, last?_eq_some_iff nd', hp.mem_iff]

namespace SelfContained

theorem perm (h : u.SelfContained) (hp : nodes ~ u.nodes) : { u with nodes }.SelfContained := by
  have hids : { u with nodes }.ids ~ u.ids := hp.map Prod.fst
  obtain ⟨info, hinfo, hclosed⟩ := h.closed
  refine ⟨hids.nodup_iff.2 h.once, info, hinfo, fun x hx => hids.mem_iff.2 (hclosed x ?_)⟩
  exact ReflTransGen.mono (fun p c ⟨n, hn, hc⟩ => ⟨n, hp.mem_iff.1 hn, hc⟩) _ _ hx

/-- Whatever tree it is merged with, the update describes all that its root leads to. -/
theorem exists_last? (h : u.SelfContained)
    (hx : ReflTransGen (IsChild (t.mergedChildren? u)) (u.newRoot t) x) :
    ∃ n, u.last? x = some n := by
  obtain ⟨info, hinfo, hclosed⟩ := h.closed
  have hdescribed : ∀ y, ReflTransGen u.Lists info.root y → ∃ n, u.last? y = some n := by
    intro y hy
    obtain ⟨⟨_, n⟩, hn, rfl⟩ := List.mem_map.1 (hclosed y hy)
    exact ⟨n, (last?_eq_some_iff h.once).2 hn⟩
  have hroot : u.newRoot t = info.root := by rw [newRoot_eq, hinfo]
  rw [hroot] at hx
  refine hdescribed x ?_
  induction hx with
  | refl => exact .refl
  | tail _ hc ih =>
    obtain ⟨n, hn⟩ := hdescribed _ ih
    obtain ⟨cs, known, hc⟩ := hc
    rw [Tree.mergedChildren?, hn] at known
    obtain rfl := Option.some.inj known
    exact ih.tail ⟨n, mem_nodes_of_last? hn, hc⟩

/-- Neither the tree nor the order of the nodes makes a difference to it. -/
theorem saysSame (h : u.SelfContained) (hp : nodes ~ u.nodes) (t t' : Tree) :
    t.SaysSame u t' { u with nodes } := by
  obtain ⟨info, hinfo, -⟩ := h.closed
  constructor
  case root => rw [newRoot_eq, newRoot_eq, hinfo]
  case focus => rfl
  case toolkit => rw [newToolkit_eq, newToolkit_eq, hinfo]
  case inRange =>
    have hids : { u with nodes }.ids ~ u.ids := hp.map Prod.fst
    exact fun hr id hid => hr id (hids.mem_iff.1 hid)
  case described => exact fun x _ => last?_perm h.once hp
  case kept =>
    intro x hx hnone
    obtain ⟨n, hn⟩ := h.exists_last? hx
    cases hnone.symm.trans hn

end SelfContained

end TreeUpdate

namespace Tree

/-- **A self-contained update determines the tree.** Whatever trees it is applied to, and in
    whatever order its nodes come, it is accepted by both and leaves one tree, or is refused by
    both. -/
theorem update_determined {u : TreeUpdate} {nodes : List (NodeId × ToolkitNode)}
    (h : u.SelfContained) (hp : nodes ~ u.nodes) (t₁ t₂ : Tree) :
    (∃ t' s₁ s₂, t₁.update u = .ok (t', s₁) ∧ t₂.update { u with nodes } = .ok (t', s₂)) ∨
      ∃ e₁ e₂, t₁.update u = .error e₁ ∧ t₂.update { u with nodes } = .error e₂ := by
  cases h₁ : t₁.update u with
  | ok r =>
    obtain ⟨t', s₁⟩ := r
    obtain ⟨s₂, h₂⟩ := (h.saysSame hp t₁ t₂).update h₁
    exact .inl ⟨t', s₁, s₂, rfl, h₂⟩
  | error e₁ =>
    cases h₂ : t₂.update { u with nodes } with
    | ok r =>
      -- The two trees play the same part, so the first would have accepted the update as well.
      obtain ⟨s₁, h₁'⟩ := ((h.perm hp).saysSame hp.symm t₂ t₁).update h₂
      cases h₁.symm.trans h₁'
    | error e₂ => exact .inr ⟨e₁, e₂, rfl, rfl⟩

/-- The second tree holds two of the ids in other places, with focus and a toolkit of its own. -/
theorem update_determined_reversed :
    let u : TreeUpdate :=
      { nodes := [(⟨5⟩, { role := "Window", children := [⟨1⟩, ⟨0⟩] }), (⟨0⟩, { role := "Label" }),
          (⟨7⟩, { role := "Label" }), (⟨1⟩, { role := "Button" })]
        info := some { root := ⟨5⟩ }
        focus := ⟨1⟩ }
    let t₁ := ofRoot {}
    let t₂ := (((ofRoot { name := some "main" }).step (.insert ⟨0⟩ ⟨1⟩ {})).step
      (.setFocus (some ⟨0⟩))).step (.setToolkit { name := some "other" })
    u.SelfContained ∧ u.nodes.reverse ~ u.nodes ∧ ∃ t' s₁ s₂, t₁.update u = .ok (t', s₁) ∧
      t₂.update { u with nodes := u.nodes.reverse } = .ok (t', s₂) ∧
      t'.preorder = [⟨5⟩, ⟨1⟩, ⟨0⟩] := by
  intro u t₁ t₂
  have hlisted : ∀ p ∈ u.nodes, ∀ c ∈ p.2.children, c ∈ u.ids := by decide
  have hclosed : ∀ x, ReflTransGen u.Lists ⟨5⟩ x → x ∈ u.ids := by
    intro x hx
    rcases hx.cases_tail with rfl | ⟨y, -, n, hn, hc⟩
    · decide
    · exact hlisted _ hn x hc
  have hu : u.SelfContained := ⟨by decide, _, rfl, hclosed⟩
  have hp : u.nodes.reverse ~ u.nodes := u.nodes.reverse_perm
  have hrun : (t₁.update u).map (·.1.preorder) = .ok [⟨5⟩, ⟨1⟩, ⟨0⟩] := by decide +kernel
  rcases update_determined hu hp t₁ t₂ with ⟨t', s₁, s₂, h₁, h₂⟩ | ⟨e₁, -, h₁, -⟩
  · rw [h₁] at hrun
    exact ⟨hu, hp, t', s₁, s₂, h₁, h₂, Except.ok.inj hrun⟩
  · rw [h₁] at hrun
    cases hrun

end Tree

end AccessBridge
