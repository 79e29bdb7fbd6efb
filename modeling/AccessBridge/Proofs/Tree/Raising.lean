import AccessBridge.Proofs.Tree.HitTest
import AccessBridge.Proofs.Tree.Undoing

/-!
# Raising a node

Whoever raises a node expects to see it in front of its siblings and everything else where it was.
`Fronted` says what that means for one search of the screen, `RaisedTo` for the whole tree
(`Reachable.raise_brings_to_front`). What can be hit does not depend on the order of siblings, so a
subtree that is not hit does not matter wherever its block stands. A subtree that is hit ends the
block of the parent, so whatever else the search finds first is in front of the parent as well
(`Arranged.frontmost?_under_last_child`).
-/

namespace AccessBridge.Tree

open Relation

variable {t t' : Tree} {l cs : List NodeId} {id p s x y : NodeId} {inside : Rect → Bool}

/-- What a search finds when `id` is raised (`after`) and what it found until then (`before`). -/
structure Fronted (t : Tree) (id : NodeId) (inside : Rect → Bool)
    (before after : Option NodeId) : Prop where
  /-- Where nothing of the subtree can be hit, nothing changes. -/
  missed : (∀ x, ReflTransGen (IsChild t.children?) id x → ¬ t.Hittable inside x) → after = before
  /-- Where something of it can be hit, neither the parent nor a sibling with what is below it is
      in the way. -/
  hit : (∃ x, ReflTransGen (IsChild t.children?) id x ∧ t.Hittable inside x) →
    ∃ y, after = some y ∧ t.parent? id ≠ some y ∧
      ∀ s, s ≠ id → t.parent? s = t.parent? id → ¬ ReflTransGen (IsChild t.children?) s y

/-- `t'` is `t` with `id` raised. -/
structure RaisedTo (t : Tree) (id : NodeId) (t' : Tree) : Prop where
  /-- What can be hit is the same before and after. -/
  hittable : ∀ inside x, t'.Hittable inside x ↔ t.Hittable inside x
  searched : ∀ inside, t.Fronted id inside (t.frontmost? inside) (t'.frontmost? inside)
  hitTest : ∀ p : Point, t.Fronted id (·.contains p) (t.hitTest p) (t'.hitTest p)
  again : t'.raise id = .ok t'
  siblings : ∃ p cs ds, t.parent? id = some p ∧ t.children? p = some (cs ++ id :: ds) ∧
    t'.children? p = some (cs ++ ds ++ [id])

/-! ## Siblings -/

theorem Arranged.not_reach_sibling (h : t.Arranged l) (hs : t.parent? s = some p)
    (hid : t.parent? id = some p) (hne : s ≠ id) : ¬ ReflTransGen (IsChild t.children?) s id := by
  intro hr
  rcases hr.cases_tail with he | ⟨q, hq, hqid⟩
  · exact hne he.symm
  · obtain rfl := Option.some.inj (((h.parent q id).2 hqid).symm.trans hid)
    exact h.not_reach_parent ((h.parent q s).1 hs) hq

/-- Nothing is below two siblings. -/
theorem Arranged.siblings_apart (h : t.Arranged l) (hs : t.parent? s = some p)
    (hid : t.parent? id = some p) (hne : s ≠ id) (hsy : ReflTransGen (IsChild t.children?) s y) :
    ¬ ReflTransGen (IsChild t.children?) id y := by
  intro hidy
  have hup : Relator.RightUnique (Function.swap (IsChild t.children?)) := fun c a b ha hb =>
    Option.some.inj (((h.parent a c).2 ha).symm.trans ((h.parent b c).2 hb))
  rcases ReflTransGen.total_of_right_unique hup hsy.swap hidy.swap with hr | hr
  · exact h.not_reach_sibling hid hs hne.symm hr.swap
  · exact h.not_reach_sibling hs hid hne hr.swap

/-! ## What a search finds -/

theorem Hittable.congr (h : t.Hittable inside x) (hn : t'.node? = t.node?)
    (hp : t'.parent? = t.parent?) : t'.Hittable inside x where
  target := by
    rw [hn]
    exact h.target
  clear := by
    rw [hn, hp]
    exact h.clear

open scoped Classical in
theorem Arranged.frontmost?_eq_find (h : t.Arranged l) :
    t.frontmost? inside = l.reverse.find? (t.Hittable inside ·) := by
  rw [h.frontmost?_eq, ← List.head?_filter, ← List.head?_filter]
  refine congrArg List.head? (List.filter_congr fun x hx => decide_eq_decide.2 ?_)
  rw [h.hittable_iff, and_iff_right (List.mem_reverse.1 hx)]

open scoped Classical in
/-- A block that is not hit does not matter, wherever it stands. -/
theorem Arranged.frontmost?_eq_find_around {A b C : List NodeId} (h : t.Arranged (A ++ b ++ C))
    (hb : ∀ x ∈ b, ¬ t.Hittable inside x) :
    t.frontmost? inside = (A ++ C).reverse.find? (t.Hittable inside ·) := by
  have hnone : b.reverse.find? (t.Hittable inside ·) = none :=
    List.find?_eq_none.2 fun x hx => by simpa using hb x (List.mem_reverse.1 hx)
  simp only [h.frontmost?_eq_find, List.reverse_append, List.find?_append, hnone, Option.none_or]

/-- Where something below the last child is hit, nothing else below its parent is found. -/
theorem Arranged.frontmost?_under_last_child (h : t.Arranged l)
    (known : t.children? p = some (cs ++ [id])) (hx : ReflTransGen (IsChild t.children?) id x)
    (hit : t.Hittable inside x) : ∃ y, t.frontmost? inside = some y ∧
      (ReflTransGen (IsChild t.children?) p y → ReflTransGen (IsChild t.children?) id y) := by
  classical
  have hp := (h.live p).2 (contains_iff_children?.2 ⟨_, known⟩)
  obtain ⟨A, es, below, C, known', down, rfl, -⟩ := h.layout.exists_hole hp
  obtain rfl := Option.some.inj (known.symm.trans known')
  have hblock := Layout.block known down
  obtain ⟨l₁, b, rfl, -, hb⟩ := down.of_append
  have hapart := (List.nodup_append'.1 h.nodup).2.2
  -- The search comes to what is in front of the parent's block, and then to the last child's block.
  rw [h.frontmost?_eq_find, List.reverse_append, List.find?_append]
  cases hC : C.reverse.find? (t.Hittable inside ·) with
  | some y =>
    have hy : y ∈ C := List.mem_reverse.1 (List.mem_of_find?_eq_some hC)
    refine ⟨y, rfl, fun hr => absurd hy (hapart ?_)⟩
    exact List.mem_append_right A (hblock.mem_singleton_iff.2 hr)
  | none =>
    obtain ⟨y, hfind⟩ : ∃ y, b.reverse.find? (t.Hittable inside ·) = some y :=
      Option.isSome_iff_exists.1 (List.find?_isSome.2
        ⟨x, List.mem_reverse.2 (hb.mem_singleton_iff.2 hx), decide_eq_true hit⟩)
    have hy : y ∈ b := List.mem_reverse.1 (List.mem_of_find?_eq_some hfind)
    refine ⟨y, ?_, fun _ => hb.mem_singleton_iff.1 hy⟩
    simp [List.find?_append, hfind]

/-! ## Raising -/

section Raise

variable (h : t.Arranged l) (hp : t.parent? id = some p) (hok : t.move id p none = .ok t')

include hp hok

theorem parent?_raise : t'.parent? = t.parent? := by
  funext x
  rw [parent?_move hok]
  split
  · rename_i hx
    rw [hx, hp]
  · rfl

theorem hittable_raise : t'.Hittable inside x ↔ t.Hittable inside x := by
  have hn : t'.node? = t.node? := funext fun _ => node?_move hok
  have hparents := parent?_raise hp hok
  exact ⟨fun h => h.congr hn.symm hparents.symm, fun h => h.congr hn hparents⟩

include h

theorem Arranged.isChild_raise : IsChild t'.children? = IsChild t.children? := by
  obtain ⟨A, b, C, A', C', -, -, -, -, h'⟩ := h.move hok
  funext q c
  rw [eq_iff_iff, ← h'.parent, ← h.parent, parent?_raise hp hok]

/-- The node leaves its place among its siblings and enters behind them. -/
theorem Arranged.children?_raise : ∃ cs ds, t.children? p = some (cs ++ id :: ds) ∧
    t'.children? p = some (cs ++ ds ++ [id]) := by
  obtain ⟨live, -, hr, -⟩ := move_eq_ok hok
  obtain ⟨q, cs, ds, b, hg⟩ := h.hangs ((h.live id).2 live) hr
  obtain rfl := Option.some.inj (hg.parent.symm.trans hp)
  obtain ⟨cs', ds', hout, hin, hlen⟩ := exists_entered hok
  obtain rfl : ds' = [] := by simpa [entryPoint] using hlen
  rw [hg.unlinked_parent, List.append_nil, Option.some.injEq] at hout
  exact ⟨cs, ds, hg.listed, by rw [hin, hout]⟩

theorem Arranged.frontmost?_raise_of_missed
    (hmiss : ∀ x, ReflTransGen (IsChild t.children?) id x → ¬ t.Hittable inside x) :
    t'.frontmost? inside = t.frontmost? inside := by
  classical
  obtain ⟨A, b, C, A', C', rfl, hb, -, hAC, h'⟩ := h.move hok
  have hout : ∀ x ∈ b, ¬ t.Hittable inside x := fun x hx => hmiss x (hb.mem_singleton_iff.1 hx)
  have hhit : ∀ x, t'.Hittable inside x ↔ t.Hittable inside x := fun _ => hittable_raise hp hok
  rw [h.frontmost?_eq_find_around hout,
    h'.frontmost?_eq_find_around fun x hx => (hhit x).not.2 (hout x hx), hAC]
  simp only [hhit]

theorem Arranged.frontmost?_raise_of_hit (hx : ReflTransGen (IsChild t.children?) id x)
    (hit : t.Hittable inside x) : ∃ y, t'.frontmost? inside = some y ∧ p ≠ y ∧
      ∀ s, s ≠ id → t.parent? s = some p → ¬ ReflTransGen (IsChild t.children?) s y := by
  obtain ⟨A, b, C, A', C', -, -, -, -, h'⟩ := h.move hok
  obtain ⟨cs, ds, -, known⟩ := h.children?_raise hp hok
  have hchild := h.isChild_raise hp hok
  obtain ⟨y, hy, hunder⟩ := h'.frontmost?_under_last_child known (hchild ▸ hx)
    ((hittable_raise hp hok).2 hit)
  rw [hchild] at hunder
  have hpid : IsChild t.children? p id := (h.parent p id).1 hp
  refine ⟨y, hy, ?_, fun s hne hs hsy => ?_⟩
  · rintro rfl
    exact h.not_reach_parent hpid (hunder .refl)
  · have hpy := hsy.head ((h.parent p s).1 hs)
    exact h.siblings_apart hs hp hne hsy (hunder hpy)

end Raise

theorem Arranged.raisedTo (h : t.Arranged l) (hok : t.raise id = .ok t') : t.RaisedTo id t' := by
  obtain ⟨p, hp, hmove⟩ := raise_eq_ok hok
  have hsearched : ∀ inside, t.Fronted id inside (t.frontmost? inside) (t'.frontmost? inside) := by
    intro inside
    constructor
    case missed => exact h.frontmost?_raise_of_missed hp hmove
    case hit =>
      rintro ⟨x, hx, hit⟩
      obtain ⟨y, hy, hne, hapart⟩ := h.frontmost?_raise_of_hit hp hmove hx hit
      rw [hp]
      exact ⟨y, hy, fun he => hne (Option.some.inj he), hapart⟩
  constructor
  case hittable => exact fun _ _ => hittable_raise hp hmove
  case searched => exact hsearched
  case hitTest => exact fun point => hsearched (·.contains point)
  case again =>
    rw [raise_of_parent ((congrFun (parent?_raise hp hmove) _).trans hp)]
    exact h.move_move hmove hmove
  case siblings =>
    obtain ⟨cs, ds, known, known'⟩ := h.children?_raise hp hmove
    exact ⟨p, cs, ds, hp, known, known'⟩

theorem Arranged.exists_raise_eq_ok (h : t.Arranged l) (hid : id ∈ l) (hr : id ≠ t.root) :
    ∃ t', t.raise id = .ok t' := by
  obtain ⟨p, hp⟩ := h.exists_parent hid hr
  rw [raise_of_parent hp]
  exact h.move_ok_iff_movable.2 (h.movable_parent hp)

/-- **Raising changes what it should on screen and nothing else.** Every live node of a reachable
    tree but the root can be raised; it is then in front of its siblings, which keep their order,
    and raising it again does nothing. -/
theorem Reachable.raise_brings_to_front (h : t.Reachable) (live : t.contains id = true)
    (hr : id ≠ t.root) : ∃ t', t.raise id = .ok t' ∧ t.RaisedTo id t' := by
  obtain ⟨l, hl⟩ := h.arranged
  obtain ⟨t', hok⟩ := hl.exists_raise_eq_ok ((hl.live id).2 live) hr
  exact ⟨t', hok, hl.raisedTo hok⟩

/-- The raised node itself has no bounds, its child comes before the sibling that covered it. -/
theorem raise_brings_child_to_front :
    let t := (((ofRoot { bounds := some default }).step (.insert ⟨0⟩ ⟨1⟩ {})).step
      (.insert ⟨1⟩ ⟨2⟩ { bounds := some default })).step
      (.insert ⟨0⟩ ⟨3⟩ { bounds := some default })
    t.Reachable ∧ t.contains ⟨1⟩ = true ∧ ⟨1⟩ ≠ t.root ∧
      t.frontmost? (fun _ => true) = some ⟨3⟩ ∧
      ∃ t', t.raise ⟨1⟩ = .ok t' ∧ t'.frontmost? (fun _ => true) = some ⟨2⟩ ∧
        t.RaisedTo ⟨1⟩ t' := by
  intro t
  have ht : t.Reachable := (((Reachable.ofRoot _).step _).step _).step _
  have live : t.contains ⟨1⟩ = true := by decide +kernel
  have hr : (⟨1⟩ : NodeId) ≠ t.root := by decide +kernel
  have hrun : (t.raise ⟨1⟩).map (·.frontmost? fun _ => true) = .ok (some ⟨2⟩) := by
    decide +kernel
  obtain ⟨t', hok, hraised⟩ := ht.raise_brings_to_front live hr
  rw [hok] at hrun
  exact ⟨ht, live, hr, by decide +kernel, t', hok, Except.ok.inj hrun, hraised⟩

end AccessBridge.Tree
