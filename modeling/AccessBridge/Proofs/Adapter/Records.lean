import AccessBridge.Proofs.Adapter.Runs

/-!
# What a host sees

A host learns of a surface by asking for the description of the host view, then of the children
that it is told of, and so on. The numbers that it asks for are the virtual ids of the live nodes,
each once and in pre-order, and the descriptions fit together as the nodes do in the tree
(`Reachable.host_sees_tree`).
-/

namespace AccessBridge

namespace Adapter

variable {a : Adapter} {frames : Nat → HostFrame} {frame : HostFrame} {v : VirtualId}
  {info : NodeInfo} {l s : List NodeId} {id : NodeId}

/-! ## The walk of a host -/

/-- A host asks for the first of the numbers that it has on its list, and puts the children that it
    is told of in front of the others. It may put the surface elsewhere between two questions. The
    result is what it asked and was answered, up to a number of questions, and its list after
    them. -/
def hostWalk (frames : Nat → HostFrame) :
    Nat → Adapter → List VirtualId → List (VirtualId × Option NodeInfo) × List VirtualId
  | 0, _, list => ([], list)
  | _ + 1, _, [] => ([], [])
  | n + 1, a, v :: list =>
    let reply := a.nodeInfo (frames n) v
    let children := match reply.answer with
      | none => []
      | some info => info.children
    let (asked, left) := hostWalk frames n reply.state (children ++ list)
    ((v, reply.answer) :: asked, left)

/-- A question to an active adapter leaves nothing behind that later replies depend on. -/
theorem nodeInfo_nodeInfo (active : a.phase = .active) (frame frame' : HostFrame)
    (v w : VirtualId) : (a.nodeInfo frame v).state.nodeInfo frame' w = a.nodeInfo frame' w := by
  have hstate : (a.nodeInfo frame v).state = { a with transform := frame.transform } := by
    rw [nodeInfo, observe_of_active active]
  rw [hstate, nodeInfo, nodeInfo, observe_of_active active,
    observe_of_active (a := { a with transform := frame.transform }) active]

theorem hostWalk_nodeInfo (active : a.phase = .active) (n : Nat) (frame : HostFrame)
    (v : VirtualId) (list : List VirtualId) :
    hostWalk frames n (a.nodeInfo frame v).state list = hostWalk frames n a list := by
  cases n with
  | zero => rfl
  | succ n =>
    cases list with
    | nil => rfl
    | cons w list => rw [hostWalk, hostWalk, nodeInfo_nodeInfo active]

/-- A live node is described under every number that stands for it. -/
theorem answer_nodeInfo_of_node? {n : Node} (active : a.phase = .active)
    (hv : a.tree.nodeIdOf? v = some id) (hn : a.tree.node? id = some n) (frame : HostFrame) :
    (a.nodeInfo frame v).answer = some (.ofNode a.tree frame a.accessibilityFocus id n) := by
  rw [answer_nodeInfo active, hv, Option.bind_some, hn, Option.map_some]

/-- A description that is asked for stands for a live node. -/
theorem answer_nodeInfo_eq_some (active : a.phase = .active)
    (hinfo : (a.nodeInfo frame v).answer = some info) :
    ∃ id n, a.tree.nodeIdOf? v = some id ∧ a.tree.node? id = some n ∧
      info = .ofNode a.tree frame a.accessibilityFocus id n := by
  rw [answer_nodeInfo active] at hinfo
  obtain ⟨id, hid, hinfo⟩ := Option.bind_eq_some_iff.1 hinfo
  obtain ⟨n, hn, rfl⟩ := Option.map_eq_some_iff.1 hinfo
  exact ⟨id, n, hid, hn, rfl⟩

theorem liveChildren_eq (h : a.tree.Arranged l) {cs : List NodeId}
    (known : a.tree.children? id = some cs) : a.tree.liveChildren id = cs := by
  rw [Tree.liveChildren, known, Option.getD_some, List.filter_eq_self]
  exact fun c hc => (h.live c).1 (h.mem_of_isChild ⟨cs, known, hc⟩).2

/-- A live node is described under its virtual id. -/
theorem answer_nodeInfo_virtualIdOf (active : a.phase = .active) (h : a.tree.Arranged l)
    (hid : id ∈ l) (frame : HostFrame) :
    ∃ info, (a.nodeInfo frame (a.tree.virtualIdOf id)).answer = some info ∧
      info.virtualId = a.tree.virtualIdOf id ∧
      ∀ cs, a.tree.children? id = some cs → info.children = cs.map a.tree.virtualIdOf := by
  obtain ⟨n, hn⟩ := Tree.contains_iff_node?.1 ((h.live id).1 hid)
  refine ⟨.ofNode a.tree frame a.accessibilityFocus id n, ?_, rfl, fun cs known => ?_⟩
  · exact answer_nodeInfo_of_node? active (Tree.nodeIdOf?_virtualIdOf (h.inRange id hid)) hn frame
  · exact congrArg _ (liveChildren_eq h known)

/-- The walk asks for the nodes of a layout in order, and gets an answer every time. -/
theorem hostWalk_layout (frames : Nat → HostFrame) (active : a.phase = .active)
    (h : a.tree.Arranged l) {ids : List NodeId} (hs : Layout a.tree.children? s ids)
    (hids : ids ⊆ l) (n : Nat) (list : List VirtualId) :
    ∃ records : List (VirtualId × NodeInfo),
      records.map (·.1) = ids.map a.tree.virtualIdOf ∧
      (∀ r ∈ records, ∃ frame, (a.nodeInfo frame r.1).answer = some r.2) ∧
      (hostWalk frames (ids.length + n) a (s.map a.tree.virtualIdOf ++ list)) =
        (records.map (fun r => (r.1, some r.2)) ++ (hostWalk frames n a list).1,
          (hostWalk frames n a list).2) := by
  induction hs generalizing n list with
  | nil =>
    refine ⟨[], rfl, (fun r hr => nomatch hr), ?_⟩
    rw [List.length_nil, Nat.zero_add, List.map_nil, List.map_nil, List.nil_append, List.nil_append]
  | @cons x cs stack below right known _ _ ihd ihr =>
    -- The children of `x` go in front of the list, so all below `x` is asked for before the rest.
    obtain ⟨hx, hrest⟩ := List.cons_subset.1 hids
    obtain ⟨hbelow, hright⟩ := List.append_subset.1 hrest
    obtain ⟨info, hinfo, -, hchildren⟩ := answer_nodeInfo_virtualIdOf active h hx
      (frames (below.length + (right.length + n)))
    obtain ⟨rs, hfst, hanswers, hwalk⟩ :=
      ihd hbelow (right.length + n) (stack.map a.tree.virtualIdOf ++ list)
    obtain ⟨rs', hfst', hanswers', hwalk'⟩ := ihr hright n list
    refine ⟨(a.tree.virtualIdOf x, info) :: (rs ++ rs'), ?_, ?_, ?_⟩
    · simp only [List.map_cons, List.map_append, hfst, hfst']
    · intro r hr
      rcases List.mem_cons.1 hr with rfl | hr
      · exact ⟨_, hinfo⟩
      · rcases List.mem_append.1 hr with hr | hr
        · exact hanswers r hr
        · exact hanswers' r hr
    · have hlength : (x :: (below ++ right)).length + n =
          below.length + (right.length + n) + 1 := by
        simp only [List.length_cons, List.length_append]
        omega
      rw [hlength, List.map_cons, List.cons_append, hostWalk]
      dsimp only
      rw [hostWalk_nodeInfo active, hinfo]
      dsimp only
      rw [hchildren cs known, hwalk, hwalk']
      simp only [List.map_cons, List.map_append, List.cons_append, List.append_assoc]

/-! ## Descriptions that fit together -/

/-- The host view stands for the root alone. -/
theorem virtualIdOf_ne_hostView (h : a.tree.Arranged l) (hid : id ∈ l) (hr : id ≠ a.tree.root) :
    a.tree.virtualIdOf id ≠ hostView := by
  rw [Tree.virtualIdOf_of_ne hr (h.inRange id hid)]
  have hneg : (id.val : Int) ≠ -1 := by omega
  exact hneg

/-- The children that a description lists are the node's. -/
theorem exists_of_mem_children (active : a.phase = .active) (h : a.tree.Arranged l)
    (hinfo : (a.nodeInfo frame v).answer = some info) {c : VirtualId} (hc : c ∈ info.children) :
    ∃ p x, info.virtualId = a.tree.virtualIdOf p ∧ a.tree.virtualIdOf x = c ∧ x ∈ l ∧
      x ≠ a.tree.root ∧ a.tree.parent? x = some p := by
  obtain ⟨p, n, -, hn, rfl⟩ := answer_nodeInfo_eq_some active hinfo
  obtain ⟨cs, known⟩ := Tree.contains_iff_children?.1 (Tree.contains_iff_node?.2 ⟨n, hn⟩)
  obtain ⟨x, hx, rfl⟩ := List.mem_map.1 hc
  have hchild : IsChild a.tree.children? p x := ⟨cs, known, liveChildren_eq h known ▸ hx⟩
  have hparent := (h.parent p x).2 hchild
  refine ⟨p, x, rfl, rfl, (h.mem_of_isChild hchild).2, ?_, hparent⟩
  rintro rfl
  cases h.parent?_root.symm.trans hparent

/-- The description of a child names the number of its parent. -/
theorem parent_of_mem_children (active : a.phase = .active) (h : a.tree.Arranged l)
    (hinfo : (a.nodeInfo frame v).answer = some info) {c : VirtualId} (hc : c ∈ info.children)
    {frame' : HostFrame} {child : NodeInfo} (hchild : (a.nodeInfo frame' c).answer = some child) :
    child.parent = some info.virtualId := by
  obtain ⟨p, x, hown, rfl, hx, hr, hparent⟩ := exists_of_mem_children active h hinfo hc
  obtain ⟨y, m, hy, -, rfl⟩ := answer_nodeInfo_eq_some active hchild
  rw [Tree.nodeIdOf?_virtualIdOf (h.inRange x hx)] at hy
  obtain rfl := Option.some.inj hy
  change (if x = a.tree.root then none else (a.tree.parent? x).map a.tree.virtualIdOf) = _
  rw [if_neg hr, hparent, hown]
  rfl

theorem parent_eq_none_iff (active : a.phase = .active) (h : a.tree.Arranged l)
    (hinfo : (a.nodeInfo frame v).answer = some info) :
    info.parent = none ↔ a.tree.nodeIdOf? v = some a.tree.root := by
  obtain ⟨id, n, hid, hn, rfl⟩ := answer_nodeInfo_eq_some active hinfo
  have hl := (h.live id).2 (Tree.contains_iff_node?.2 ⟨n, hn⟩)
  rw [hid, Option.some.injEq]
  constructor
  · intro hparent
    by_contra hr
    obtain ⟨p, hp⟩ := h.exists_parent hl hr
    change (if id = a.tree.root then none else (a.tree.parent? id).map a.tree.virtualIdOf) = _
      at hparent
    rw [if_neg hr, hp] at hparent
    cases hparent
  · exact fun hr => if_pos hr

theorem isSome_answer_nodeInfo (active : a.phase = .active) (h : a.tree.Arranged l)
    (frame : HostFrame) (v : VirtualId) :
    (a.nodeInfo frame v).answer.isSome = true ↔
      v = hostView ∨ 0 ≤ v ∧ a.tree.contains ⟨v.toNat⟩ = true := by
  have hroot := (h.live _).1 h.root_mem
  have hsome : ∀ id, a.tree.nodeIdOf? v = some id →
      ((a.nodeInfo frame v).answer.isSome = true ↔ a.tree.contains id = true) := by
    intro id hid
    rw [answer_nodeInfo active, hid, Option.bind_some, Option.isSome_map, Option.isSome_iff_exists,
      Tree.contains_iff_node?]
  by_cases hv : v = hostView
  · subst hv
    have hid : a.tree.nodeIdOf? hostView = some a.tree.root := if_pos rfl
    simp only [hsome _ hid, hroot, true_or]
  · by_cases h0 : 0 ≤ v
    · have hid : a.tree.nodeIdOf? v = some ⟨v.toNat⟩ := (if_neg hv).trans (if_pos h0)
      simp only [hsome _ hid, hv, h0, false_or, true_and]
    · have hid : a.tree.nodeIdOf? v = none := (if_neg hv).trans (if_neg h0)
      rw [answer_nodeInfo active, hid]
      simp [hv, h0]

/-- **What a host sees is the tree.** For every reachable adapter that has been asked, wherever the
    host has put the surface at each question:

    * Descriptions are given of the host view and of the live nodes under their own numbers.
    * A walk from the host view along the children ends after as many questions as nodes are live.
      It asks for every live node once, in pre-order; each description bears the number asked for;
      and the one of each child, which is among them, names the number asked for as its parent.
    * No description lists the host view as a child, and only the root's names no parent. -/
theorem Reachable.host_sees_tree (h : a.Reachable) (active : a.phase = .active) :
    (∀ frame v, (a.nodeInfo frame v).answer.isSome = true ↔
      v = hostView ∨ 0 ≤ v ∧ a.tree.contains ⟨v.toNat⟩ = true) ∧
    (a.tree.preorder.Nodup ∧ ∀ id, (id ∈ a.tree.preorder ↔ a.tree.contains id = true) ∧
      (a.tree.contains id = true → a.tree.nodeIdOf? (a.tree.virtualIdOf id) = some id)) ∧
    (∀ frames, ∃ records : List (VirtualId × NodeInfo),
      hostWalk frames a.tree.size a [hostView] = (records.map fun r => (r.1, some r.2), []) ∧
      records.map (·.1) = a.tree.preorder.map a.tree.virtualIdOf ∧
      ∀ r ∈ records, r.2.virtualId = r.1 ∧
        ∀ c ∈ r.2.children, ∃ r' ∈ records, r'.1 = c ∧ r'.2.parent = some r.1) ∧
    (∀ frame v info, (a.nodeInfo frame v).answer = some info →
      hostView ∉ info.children ∧
      (info.parent = none ↔ a.tree.nodeIdOf? v = some a.tree.root)) := by
  obtain ⟨l, hl⟩ := h.tree.arranged
  have hpre : a.tree.preorder = l := hl.preorder_eq
  refine ⟨isSome_answer_nodeInfo active hl,
    ⟨hpre ▸ hl.nodup, fun id => ⟨hpre ▸ hl.live id, fun live => ?_⟩⟩, fun frames => ?_,
    fun frame v info hinfo => ⟨fun hmem => ?_, parent_eq_none_iff active hl hinfo⟩⟩
  · exact Tree.nodeIdOf?_virtualIdOf (hl.inRange id ((hl.live id).2 live))
  · obtain ⟨records, hfst, hanswers, hwalk⟩ :=
      hostWalk_layout frames active hl hl.layout (List.Subset.refl l) 0 []
    have hstart : a.tree.virtualIdOf a.tree.root = hostView := Tree.virtualIdOf_root
    rw [List.map_singleton, hstart, ← hl.size_eq] at hwalk
    refine ⟨records, ?_, hpre ▸ hfst, fun r hr => ?_⟩
    · simpa [hostWalk] using hwalk
    · obtain ⟨frame, hinfo⟩ := hanswers r hr
      have hmem : r.1 ∈ l.map a.tree.virtualIdOf := hfst ▸ List.mem_map_of_mem hr
      obtain ⟨id, hid, hv⟩ := List.mem_map.1 hmem
      have hown : r.2.virtualId = r.1 := by
        obtain ⟨info, hinfo', hown, -⟩ := answer_nodeInfo_virtualIdOf active hl hid frame
        rw [hv, hinfo] at hinfo'
        rw [Option.some.inj hinfo', hown, hv]
      refine ⟨hown, fun c hc => ?_⟩
      obtain ⟨-, x, -, hxc, hx, -, -⟩ := exists_of_mem_children active hl hinfo hc
      have hchild : c ∈ l.map a.tree.virtualIdOf := hxc ▸ List.mem_map_of_mem hx
      obtain ⟨r', hr', hc'⟩ := List.mem_map.1 (hfst ▸ hchild)
      obtain ⟨frame', hinfo'⟩ := hanswers r' hr'
      refine ⟨r', hr', hc', ?_⟩
      rw [← hown]
      exact parent_of_mem_children active hl hinfo hc (hc' ▸ hinfo')
  · obtain ⟨-, x, -, hview, hx, hr, -⟩ := exists_of_mem_children active hl hinfo hmem
    exact virtualIdOf_ne_hostView hl hx hr hview

/-- After an update that hangs the old root below a new one, the walk asks for the old root under
    its own number. -/
theorem host_sees_tree_after_rerooting :
    let t := (((Tree.ofRoot {}).step (.insert ⟨0⟩ ⟨1⟩ {})).step (.insert ⟨1⟩ ⟨2⟩ {})).step
      (.update
        { nodes := [(⟨5⟩, { role := "Window", children := [⟨0⟩, ⟨3⟩] }), (⟨3⟩, { role := "Label" })]
          info := some { root := ⟨5⟩ }
          focus := ⟨2⟩ })
    let a := ((ofTree t).call (.findFocus {} .input)).1
    a.Reachable ∧ a.phase = .active ∧ ∃ records : List (VirtualId × NodeInfo),
      hostWalk (fun _ => {}) a.tree.size a [hostView] =
        (records.map fun r => (r.1, some r.2), []) ∧
      records.map (·.1) = [-1, 0, 1, 2, 3] := by
  intro t a
  have ht : t.Reachable := (((Tree.Reachable.ofRoot {}).step _).step _).step _
  have ha : a.Reachable := .call (.ofTree ht) _
  have horder : a.tree.preorder.map a.tree.virtualIdOf = [-1, 0, 1, 2, 3] := by decide +kernel
  obtain ⟨-, -, hwalk, -⟩ := Reachable.host_sees_tree ha rfl
  obtain ⟨records, hrecords, hasked, -⟩ := hwalk fun _ => {}
  exact ⟨ha, rfl, records, hrecords, hasked.trans horder⟩

end Adapter

end AccessBridge
