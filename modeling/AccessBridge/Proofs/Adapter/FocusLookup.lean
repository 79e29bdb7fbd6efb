import AccessBridge.Proofs.Adapter.Issued

/-!
# Looking focus up and scanning for it

A host that wants the node which holds focus may ask for it, or ask for every node and see which
description carries the flag. The answer and the flags go back to the same holder, and the holder is
live in every reachable state: the tree gives input focus up with its node, and accessibility focus
is filtered whenever it is read. So the two ways agree (`Reachable.findFocus_eq_scan`).
-/

namespace AccessBridge

/-- Whether a description says that the node holds a kind of focus. -/
def NodeFlags.holds (f : NodeFlags) : FocusKind → Bool
  | .input => f.focused
  | .accessibility => f.accessibilityFocused

namespace Adapter

variable {a : Adapter} {frame frame' : HostFrame} {kind : FocusKind} {v : VirtualId}
  {info info' : NodeInfo} {ids : List NodeId} {id : NodeId} {n : Node}

/-- The descriptions that a host collects when it asks for a list of numbers one after the other. -/
def scan (a : Adapter) (frame : HostFrame) : List VirtualId → List NodeInfo
  | [] => []
  | v :: vs =>
    let reply := a.nodeInfo frame v
    reply.answer.toList ++ scan reply.state frame vs

/-- What a host is told of a node when it asks for the number of the node. -/
def record? (a : Adapter) (frame : HostFrame) (id : NodeId) : Option NodeInfo :=
  (a.nodeInfo frame (a.tree.virtualIdOf id)).answer

/-! ## Records and their flags -/

/-- The flag is set for the holder alone. -/
theorem holds_ofNode : (NodeInfo.ofNode a.tree frame a.accessibilityFocus id n).flags.holds kind =
    true ↔ a.focusHolder kind = some id := by
  cases kind <;> exact decide_eq_true_iff

theorem record?_eq (ht : a.tree.Reachable) (active : a.phase = .active) (frame : HostFrame)
    (live : a.tree.contains id = true) : ∃ n, a.tree.node? id = some n ∧
      a.record? frame id = some (.ofNode a.tree frame a.accessibilityFocus id n) := by
  obtain ⟨n, hn⟩ := Tree.contains_iff_node?.1 live
  have hv : a.tree.nodeIdOf? (a.tree.virtualIdOf id) = some id :=
    Tree.nodeIdOf?_virtualIdOf (ht.inRange live)
  exact ⟨n, hn, answer_nodeInfo_of_node? active hv hn frame⟩

/-- The record of a live node carries the flag just if the node is the holder. -/
theorem holds_record?_iff (ht : a.tree.Reachable) (active : a.phase = .active)
    (live : a.tree.contains id = true) (hinfo : a.record? frame id = some info) :
    info.flags.holds kind = true ↔ a.focusHolder kind = some id := by
  obtain ⟨n, -, hrec⟩ := record?_eq ht active frame live
  obtain rfl := Option.some.inj (hinfo.symm.trans hrec)
  exact holds_ofNode

/-! ## The holder -/

/-- What holds focus of either kind is live. -/
theorem contains_focusHolder (ht : a.tree.Reachable) (holder : a.focusHolder kind = some id) :
    a.tree.contains id = true := by
  have hfilter := filter_focusHolder ht kind
  rw [holder] at hfilter
  exact (Option.filter_eq_some_iff.1 hfilter).2

/-- The lookup answers with the record of the holder. -/
theorem answer_findFocus (ht : a.tree.Reachable) (active : a.phase = .active) :
    (a.findFocus frame kind).answer = (a.focusHolder kind).bind (a.record? frame) := by
  have hlookup : (a.findFocus frame kind).answer = (a.focusHolder kind).bind fun id =>
      (a.tree.node? id).map (.ofNode a.tree frame a.accessibilityFocus id) := by
    rw [findFocus, observe_of_active active]
    cases kind <;> rfl
  rw [hlookup]
  refine Option.bind_congr fun id holder => ?_
  obtain ⟨n, hn, hrec⟩ := record?_eq ht active frame (contains_focusHolder ht holder)
  rw [hn, hrec, Option.map_some]

/-! ## The scan -/

theorem scan_eq (active : a.phase = .active) (vs : List VirtualId) :
    a.scan frame vs = vs.filterMap fun v => (a.nodeInfo frame v).answer := by
  induction vs generalizing a with
  | nil => rfl
  | cons v vs ih =>
    have hnext : (a.nodeInfo frame v).state.phase = .active := phase_observe
    simp only [scan, ih hnext, nodeInfo_nodeInfo active, List.filterMap_cons]
    cases (a.nodeInfo frame v).answer <;> rfl

/-- The holder is the only node that is kept of a list of all live nodes. -/
theorem filter_holder (nd : ids.Nodup) {o : Option NodeId} (ho : ∀ x, o = some x → x ∈ ids) :
    ids.filter (fun id => o = some id) = o.toList := by
  cases o with
  | none => simp
  | some x =>
    have hone : ids.count x = 1 := List.count_eq_one_of_mem nd (ho x rfl)
    simp only [Option.some.injEq, eq_comm (a := x), List.filter_eq, hone]
    rfl

theorem filter_scan (ht : a.tree.Reachable) (active : a.phase = .active) (nd : ids.Nodup)
    (hids : ∀ id, id ∈ ids ↔ a.tree.contains id = true) :
    (a.scan frame (ids.map a.tree.virtualIdOf)).filter (·.flags.holds kind) =
      (a.findFocus frame kind).answer.toList := by
  have hkept : ∀ id ∈ ids, (a.record? frame id).filter (·.flags.holds kind) =
      if a.focusHolder kind = some id then a.record? frame id else none := by
    intro id hid
    obtain ⟨n, -, hrec⟩ := record?_eq ht active frame ((hids id).1 hid)
    simp only [hrec, Option.filter_some, holds_ofNode]
  calc (a.scan frame (ids.map a.tree.virtualIdOf)).filter (·.flags.holds kind)
      = ids.filterMap fun id => (a.record? frame id).filter (·.flags.holds kind) := by
        rw [scan_eq active, List.filterMap_map, List.filter_filterMap]
        rfl
    _ = ids.filterMap fun id =>
          if a.focusHolder kind = some id then a.record? frame id else none :=
        List.filterMap_congr hkept
    _ = (ids.filter (fun id => a.focusHolder kind = some id)).filterMap (a.record? frame) := by
        rw [List.filterMap_filter]
        simp
    _ = (a.focusHolder kind).toList.filterMap (a.record? frame) := by
        rw [filter_holder nd fun x hx => (hids x).2 (contains_focusHolder ht hx)]
    _ = (a.findFocus frame kind).answer.toList := by
        rw [answer_findFocus ht active]
        cases a.focusHolder kind with
        | none => rfl
        | some x => cases hx : a.record? frame x <;> simp [hx]

/-- **Focus lookup agrees with scanning every node.** For a reachable adapter that has been asked,
    wherever the host has put the surface, and for both kinds of focus:

    * Every live node has a record, the same under each number that stands for the node, and at most
      one of them says that its node holds focus.
    * The lookup answers with that record and no other, and has no answer just if there is none.
    * To ask for the live nodes one after the other, in whatever order, and to keep what says that
      its node holds focus comes to the same as the lookup. -/
theorem Reachable.findFocus_eq_scan (h : a.Reachable) (active : a.phase = .active)
    (frame : HostFrame) (kind : FocusKind) :
    (∀ id, a.tree.contains id = true → ∃ info, a.record? frame id = some info ∧
      ∀ v, a.tree.nodeIdOf? v = some id → (a.nodeInfo frame v).answer = some info) ∧
    (∀ frame' id id' info info', a.tree.contains id = true → a.tree.contains id' = true →
      a.record? frame id = some info → a.record? frame' id' = some info' →
      info.flags.holds kind = true → info'.flags.holds kind = true → id = id') ∧
    (∀ info, (a.findFocus frame kind).answer = some info ↔ ∃ id, a.tree.contains id = true ∧
      a.record? frame id = some info ∧ info.flags.holds kind = true) ∧
    ((a.findFocus frame kind).answer = none ↔ ∀ id info, a.tree.contains id = true →
      a.record? frame id = some info → ¬ info.flags.holds kind = true) ∧
    ∀ ids : List NodeId, ids.Nodup → (∀ id, id ∈ ids ↔ a.tree.contains id = true) →
      (a.scan frame (ids.map a.tree.virtualIdOf)).filter (·.flags.holds kind) =
        (a.findFocus frame kind).answer.toList := by
  have ht := h.tree
  have hfound : ∀ info, (a.findFocus frame kind).answer = some info ↔
      ∃ id, a.tree.contains id = true ∧ a.record? frame id = some info ∧
        info.flags.holds kind = true := by
    intro info
    rw [answer_findFocus ht active, Option.bind_eq_some_iff]
    constructor
    · rintro ⟨id, holder, hrec⟩
      have live := contains_focusHolder ht holder
      exact ⟨id, live, hrec, (holds_record?_iff ht active live hrec).2 holder⟩
    · rintro ⟨id, live, hrec, hflag⟩
      exact ⟨id, (holds_record?_iff ht active live hrec).1 hflag, hrec⟩
  refine ⟨fun id live => ?_, fun frame' id id' info info' live live' hrec hrec' hflag hflag' => ?_,
    hfound, ?_, fun ids nd hids => filter_scan ht active nd hids⟩
  · obtain ⟨n, hn, hrec⟩ := record?_eq ht active frame live
    exact ⟨_, hrec, fun v hv => answer_nodeInfo_of_node? active hv hn frame⟩
  · have holder := (holds_record?_iff ht active live hrec).1 hflag
    exact Option.some.inj (holder.symm.trans ((holds_record?_iff ht active live' hrec').1 hflag'))
  · rw [Option.eq_none_iff_forall_ne_some]
    constructor
    · intro hnone id info live hrec hflag
      exact hnone info ((hfound info).2 ⟨id, live, hrec, hflag⟩)
    · intro hnone info hanswer
      obtain ⟨id, live, hrec, hflag⟩ := (hfound info).1 hanswer
      exact hnone id info live hrec hflag

/-- The node with input focus was removed, and the one with accessibility focus is the root now. -/
theorem findFocus_eq_scan_rerooted :
    let t := ((Tree.ofRoot {}).step (.insert ⟨0⟩ ⟨1⟩ {})).step (.insert ⟨1⟩ ⟨2⟩ {})
    let a := (ofTree t).after [.edit (.setFocus (some ⟨2⟩)),
      .perform {} 1 { kind := .accessibilityFocus }, .edit (.remove ⟨2⟩),
      .update
        { nodes := [(⟨1⟩, { role := "Window", children := [⟨0⟩] }), (⟨0⟩, { role := "Label" })]
          info := some { root := ⟨1⟩ }
          focus := ⟨1⟩ }]
    a.Reachable ∧ a.phase = .active ∧
      (∃ info, (a.findFocus {} .accessibility).answer = some info ∧ info.virtualId = -1 ∧
        (a.scan {} [-1, 0]).filter (·.flags.holds .accessibility) = [info]) ∧
      (a.findFocus {} .input).answer = none ∧
      (a.scan {} [-1, 0]).filter (·.flags.holds .input) = [] := by
  intro t a
  have ht : t.Reachable := ((Tree.Reachable.ofRoot {}).step _).step _
  have ha : a.Reachable := Reachable.after (.ofTree ht)
  have active : a.phase = .active := by decide +kernel
  obtain ⟨l, hl⟩ := ha.tree.arranged
  have hnumbers : l.map a.tree.virtualIdOf = [-1, 0] := by
    rw [← hl.preorder_eq]
    decide +kernel
  have hscan : ∀ kind, (a.scan {} [-1, 0]).filter (·.flags.holds kind) =
      (a.findFocus {} kind).answer.toList := fun kind => by
    obtain ⟨-, -, -, -, hscan⟩ := Reachable.findFocus_eq_scan ha active {} kind
    exact hnumbers ▸ hscan l hl.nodup hl.live
  have hnone : (a.findFocus {} .input).answer.isNone = true := by decide +kernel
  have hsome : (a.findFocus {} .accessibility).answer.map (·.virtualId) = some (-1) := by
    decide +kernel
  obtain ⟨info, hinfo, hnumber⟩ := Option.map_eq_some_iff.1 hsome
  rw [Option.isNone_iff_eq_none] at hnone
  refine ⟨ha, active, ⟨info, hinfo, hnumber, ?_⟩, hnone, ?_⟩
  · rw [hscan, hinfo, Option.toList_some]
  · rw [hscan, hnone, Option.toList_none]

end Adapter

end AccessBridge
