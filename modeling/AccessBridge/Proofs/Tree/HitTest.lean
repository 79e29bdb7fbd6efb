import AccessBridge.Proofs.Tree.Invariant

/-!
# Hit testing and the order of painting

A node is hittable if it has bounds that are inside, it is shown, and so is everything above it,
where bounds above it are inside as well. The stack of the search yields the hittable nodes of a
layout backwards (`hit_layout`), so the search stops at the last of them in pre-order
(`hitTest_eq_iff`). What is inside is left open: the statements hold of any test of bounds.
-/

namespace AccessBridge

open Relation Worklist

/-- The search goes on below the node: it is shown, and its bounds, if it has any, are inside. -/
def Node.IsOpen (n : Node) (inside : Rect → Bool) : Prop :=
  n.states.hidden = false ∧ ∀ b, n.bounds = some b → inside b = true

namespace Tree

/-- The node has bounds, they are inside, and the search goes past the node and everything above
    it. -/
structure Hittable (t : Tree) (inside : Rect → Bool) (x : NodeId) : Prop where
  target : ∃ n b, t.node? x = some n ∧ n.bounds = some b ∧ inside b = true
  clear : ∀ a, ReflTransGen (fun p c => t.parent? c = some p) a x →
    ∃ n, t.node? a = some n ∧ n.IsOpen inside

/-- The answer is the last hittable node in pre-order, or none if no node is hittable. -/
def IsLastHittable (t : Tree) (inside : Rect → Bool) : Option NodeId → Prop
  | none => ∀ x, ¬ t.Hittable inside x
  | some x => ∃ A B, t.preorder = A ++ x :: B ∧ t.Hittable inside x ∧
    ∀ y ∈ B, ¬ t.Hittable inside y

variable {t : Tree} {inside : Rect → Bool} {s l : List NodeId} {a x : NodeId}

/-! ## One visit -/

theorem hitVisit_of_isOpen {n : Node} {cs : List NodeId} (hn : t.node? a = some n)
    (hc : t.children? a = some cs) (ho : n.IsOpen inside) :
    t.hitVisit inside (.enter a) =
      (none, cs.reverse.map .enter ++ if n.bounds.isSome then [.leave a] else []) := by
  obtain ⟨e, he, rfl⟩ := Option.map_eq_some_iff.1 hn
  obtain ⟨e', he', rfl⟩ := Option.map_eq_some_iff.1 hc
  obtain rfl := Option.some.inj (he.symm.trans he')
  obtain ⟨hshown, hin⟩ := ho
  cases hb : e.node.bounds with
  | none => simp [hitVisit, he, hshown, hb]
  | some b => simp [hitVisit, he, hshown, hb, hin b hb]

theorem hitVisit_of_not_isOpen {n : Node} (hn : t.node? a = some n) (ho : ¬ n.IsOpen inside) :
    t.hitVisit inside (.enter a) = (none, []) := by
  obtain ⟨e, he, rfl⟩ := Option.map_eq_some_iff.1 hn
  cases hh : e.node.states.hidden with
  | true => simp [hitVisit, he, hh]
  | false =>
    obtain ⟨b, hb, hout⟩ : ∃ b, e.node.bounds = some b ∧ ¬ inside b = true := by
      by_contra hno
      exact ho ⟨hh, fun b hb => by_contra fun hout => hno ⟨b, hb, hout⟩⟩
    simp [hitVisit, he, hh, hb, hout]

theorem layout_leave (n : Node) :
    Layout (work (t.hitVisit inside)) (if n.bounds.isSome then [.leave a] else [])
      (if n.bounds.isSome then [.leave a] else []) := by
  split
  · exact .leaf rfl
  · exact .nil

theorem yields_leave (n : Node) :
    ((if n.bounds.isSome then [Turn.leave a] else []).filterMap fun i => (t.hitVisit inside i).1) =
      if n.bounds.isSome then [a] else [] := by
  split <;> rfl

/-! ## The whole search -/

/-- The search goes past every node of `l` that `x` is below. -/
def ClearIn (t : Tree) (inside : Rect → Bool) (l : List NodeId) (x : NodeId) : Prop :=
  ∀ a ∈ l, ReflTransGen (IsChild t.children?) a x → ∃ n, t.node? a = some n ∧ n.IsOpen inside

/-- The node is hittable as far as the nodes of `l` are concerned. -/
def HittableIn (t : Tree) (inside : Rect → Bool) (l : List NodeId) (x : NodeId) : Prop :=
  (∃ n b, t.node? x = some n ∧ n.bounds = some b ∧ inside b = true) ∧ t.ClearIn inside l x

section Block

variable {cs stack below rest : List NodeId} {n : Node}

theorem clearIn_cons (hx : ReflTransGen (IsChild t.children?) a x) :
    t.ClearIn inside (a :: l) x ↔
      (∃ n, t.node? a = some n ∧ n.IsOpen inside) ∧ t.ClearIn inside l x := by
  constructor
  · exact fun h => ⟨h a List.mem_cons_self hx, fun y hy => h y (List.mem_cons_of_mem _ hy)⟩
  · rintro ⟨ha, hl⟩ y hy hr
    rcases List.mem_cons.1 hy with rfl | hy
    · exact ha
    · exact hl y hy hr

theorem clearIn_of_not_mem (h : Layout t.children? s l) (hx : x ∉ l) : t.ClearIn inside l x :=
  fun _ hy hr => absurd (h.mem_of_reach hy hr) hx

theorem clearIn_append : t.ClearIn inside (below ++ rest) x ↔
    t.ClearIn inside below x ∧ t.ClearIn inside rest x :=
  List.forall_mem_append

variable (known : t.children? a = some cs) (down : Layout t.children? cs below)
  (right : Layout t.children? stack rest) (nd : (a :: (below ++ rest)).Nodup)

include known down nd in
/-- What is in front of a block does not depend on the block. -/
theorem hittableIn_front (hx : x ∈ rest) :
    t.HittableIn inside (a :: (below ++ rest)) x ↔ t.HittableIn inside rest x := by
  have hblock := Layout.block known down
  have hb : x ∉ a :: below := fun hb => (List.nodup_append'.1 nd).2.2 hb hx
  rw [HittableIn, HittableIn, ← List.cons_append, clearIn_append]
  exact and_congr_right' (and_iff_right (clearIn_of_not_mem hblock hb))

include known down right nd in
theorem hittableIn_below (hx : x ∈ below) : t.HittableIn inside (a :: (below ++ rest)) x ↔
    (∃ n, t.node? a = some n ∧ n.IsOpen inside) ∧ t.HittableIn inside below x := by
  have hblock := Layout.block known down
  have hr : x ∉ rest :=
    fun hr => (List.nodup_append'.1 (List.nodup_cons.1 nd).2).2.2 hx hr
  have hax := hblock.mem_singleton_iff.1 (List.mem_cons_of_mem _ hx)
  rw [HittableIn, HittableIn, clearIn_cons hax, clearIn_append,
    and_iff_left (clearIn_of_not_mem right hr), and_left_comm]

include down right nd in
theorem hittableIn_self (hn : t.node? a = some n) :
    t.HittableIn inside (a :: (below ++ rest)) a ↔ n.IsOpen inside ∧ n.bounds.isSome = true := by
  have ha : a ∉ below ++ rest := (List.nodup_cons.1 nd).1
  rw [HittableIn, clearIn_cons .refl, and_iff_left (clearIn_of_not_mem (down.append right) ha)]
  simp only [hn, Option.some.injEq, exists_eq_left', Option.isSome_iff_exists]
  constructor
  · rintro ⟨⟨_, b, rfl, hb, -⟩, ho⟩
    exact ⟨ho, b, hb⟩
  · rintro ⟨ho, b, hb⟩
    exact ⟨⟨n, b, rfl, hb, ho.2 b hb⟩, ho⟩

open scoped Classical in
include known down right nd in
/-- The hittable nodes of a layout backwards: those in front of its first block, then, if the head
    of the block lets the search pass, those below the head and the head itself. -/
theorem filter_hittableIn (hn : t.node? a = some n) :
    (a :: (below ++ rest)).reverse.filter (t.HittableIn inside (a :: (below ++ rest)) ·) =
      rest.reverse.filter (t.HittableIn inside rest ·) ++
        if n.IsOpen inside then
          below.reverse.filter (t.HittableIn inside below ·) ++
            if n.bounds.isSome then [a] else []
        else [] := by
  have hfront : rest.reverse.filter (t.HittableIn inside (a :: (below ++ rest)) ·) =
      rest.reverse.filter (t.HittableIn inside rest ·) :=
    List.filter_congr fun x hx =>
      decide_eq_decide.2 (hittableIn_front known down nd (List.mem_reverse.1 hx))
  rw [List.reverse_cons, List.reverse_append, List.append_assoc, List.filter_append, hfront,
    List.filter_append]
  congr 1
  have hself : t.HittableIn inside (a :: (below ++ rest)) a ↔ _ :=
    hittableIn_self down right nd hn
  by_cases ho : n.IsOpen inside
  · have hbelow : below.reverse.filter (t.HittableIn inside (a :: (below ++ rest)) ·) =
        below.reverse.filter (t.HittableIn inside below ·) :=
      List.filter_congr fun x hx => decide_eq_decide.2
        ((hittableIn_below known down right nd (List.mem_reverse.1 hx)).trans
          (and_iff_right ⟨n, hn, ho⟩))
    rw [if_pos ho, hbelow, List.filter_singleton]
    simp only [hself, ho, true_and, Bool.decide_eq_true, Bool.cond_eq_ite]
  · have hbelow : below.reverse.filter (t.HittableIn inside (a :: (below ++ rest)) ·) = [] := by
      refine List.filter_eq_nil_iff.2 fun x hx hc => ?_
      obtain ⟨⟨n', hn', ho'⟩, -⟩ :=
        (hittableIn_below known down right nd (List.mem_reverse.1 hx)).1 (of_decide_eq_true hc)
      exact ho (Option.some.inj (hn.symm.trans hn') ▸ ho')
    rw [if_neg ho, hbelow, List.filter_singleton]
    simp [hself, ho]

end Block

open scoped Classical in
/-- The search pops each node of a layout at most twice and yields its hittable nodes
    backwards. -/
theorem hit_layout (inside : Rect → Bool) (h : Layout t.children? s l) (nd : l.Nodup) :
    ∃ ps, Layout (work (t.hitVisit inside)) (s.reverse.map .enter) ps ∧
      ps.length ≤ 2 * l.length ∧
      (ps.filterMap fun a => (t.hitVisit inside a).1) =
        l.reverse.filter (t.HittableIn inside l ·) := by
  induction h with
  | nil => exact ⟨[], .nil, Nat.le_refl _, rfl⟩
  | @cons a cs stack below rest known down right ihd ihr =>
    obtain ⟨-, nd'⟩ := List.nodup_cons.1 nd
    obtain ⟨ndd, ndr, -⟩ := List.nodup_append'.1 nd'
    obtain ⟨ps, hd, hdl, hdy⟩ := ihd ndd
    obtain ⟨qs, hr, hrl, hry⟩ := ihr ndr
    obtain ⟨n, hn⟩ := contains_iff_node?.1 (contains_iff_children?.2 ⟨cs, known⟩)
    rw [filter_hittableIn known down right nd hn, List.reverse_cons, List.map_append]
    by_cases ho : n.IsOpen inside
    · have hv := hitVisit_of_isOpen hn known ho
      have henter : Layout (work (t.hitVisit inside)) ([a].map .enter) (.enter a :: (ps ++ _)) :=
        .block (by rw [work, hv]) (hd.append (layout_leave n))
      refine ⟨_, hr.append henter, ?_, ?_⟩
      · have hle : (if n.bounds.isSome then [Turn.leave a] else []).length ≤ 1 := by
          split <;> simp
        simp only [List.length_append, List.length_cons] at hle ⊢
        omega
      · rw [List.filterMap_append, hry, List.filterMap_cons_none (by rw [hv]),
          List.filterMap_append, hdy, yields_leave, if_pos ho]
    · have hv := hitVisit_of_not_isOpen hn ho
      have henter : Layout (work (t.hitVisit inside)) ([a].map .enter) [.enter a] :=
        .leaf (by rw [work, hv])
      refine ⟨qs ++ [.enter a], hr.append henter, ?_, ?_⟩
      · simp only [List.length_append, List.length_cons, List.length_nil]
        omega
      · rw [List.filterMap_append, hry, if_neg ho, List.filterMap_cons_none (by rw [hv])]
        rfl

/-! ## The front of the arrangement -/

theorem Arranged.reach_parent_iff (h : t.Arranged l) :
    ReflTransGen (fun p c => t.parent? c = some p) a x ↔
      ReflTransGen (IsChild t.children?) a x := by
  have hrel : (fun p c => t.parent? c = some p) = IsChild t.children? := by
    funext p c
    exact propext (h.parent p c)
  rw [hrel]

theorem Arranged.hittable_iff (h : t.Arranged l) :
    t.Hittable inside x ↔ x ∈ l ∧ t.HittableIn inside l x := by
  constructor
  · rintro ⟨htarget, hclear⟩
    have hx : x ∈ l := by
      obtain ⟨n, -, hn, -⟩ := htarget
      exact (h.live x).2 (contains_iff_node?.2 ⟨n, hn⟩)
    exact ⟨hx, htarget, fun a _ hr => hclear a (h.reach_parent_iff.2 hr)⟩
  · rintro ⟨hx, htarget, hclear⟩
    refine ⟨htarget, fun a hr => ?_⟩
    have hreach := h.reach_parent_iff.1 hr
    exact hclear a (h.mem_of_reach hx hreach) hreach

open scoped Classical in
theorem Arranged.frontmost?_eq (h : t.Arranged l) :
    t.frontmost? inside = l.reverse.find? (t.HittableIn inside l ·) := by
  obtain ⟨ps, hl, hlen, hy⟩ := hit_layout inside h.layout h.nodup
  rw [← h.size_eq] at hlen
  have hrun := (run_layout hl hlen).trans hy
  rw [frontmost?, first?_eq_head?_run, ← List.head?_filter]
  exact congrArg List.head? hrun

theorem Arranged.frontmost?_eq_iff (h : t.Arranged l) (r : Option NodeId) :
    t.frontmost? inside = r ↔ t.IsLastHittable inside r := by
  classical
  rw [h.frontmost?_eq]
  cases r with
  | none =>
    simp only [IsLastHittable, h.hittable_iff, not_and, List.find?_eq_none, List.mem_reverse,
      decide_eq_true_eq]
  | some x =>
    rw [IsLastHittable, h.preorder_eq, List.find?_eq_some_iff_append]
    constructor
    · rintro ⟨hx, A, B, hl, hA⟩
      have hl' : l = B.reverse ++ x :: A.reverse := by simpa using congrArg List.reverse hl
      refine ⟨B.reverse, A.reverse, hl', ?_, fun y hy hh => ?_⟩
      · exact h.hittable_iff.2 ⟨by simp [hl'], of_decide_eq_true hx⟩
      · simpa [(h.hittable_iff.1 hh).2] using hA y (List.mem_reverse.1 hy)
    · rintro ⟨A, B, hl, hx, hB⟩
      refine ⟨decide_eq_true (h.hittable_iff.1 hx).2, B.reverse, A.reverse, by simp [hl], ?_⟩
      intro y hy
      have hyB := List.mem_reverse.1 hy
      have hyl : y ∈ l := by simp [hl, hyB]
      simpa using fun hh => hB y hyB (h.hittable_iff.2 ⟨hyl, hh⟩)

/-- On a reachable tree the search, for whatever test of bounds, and hit testing, for a point,
    give the last hittable node in pre-order and none exactly if there is none. -/
theorem hitTest_eq_iff (h : t.Reachable) :
    (∀ inside r, t.frontmost? inside = r ↔ t.IsLastHittable inside r) ∧
      ∀ p r, t.hitTest p = r ↔ t.IsLastHittable (·.contains p) r := by
  obtain ⟨l, hl⟩ := h.arranged
  exact ⟨fun _ r => hl.frontmost?_eq_iff r, fun _ r => hl.frontmost?_eq_iff r⟩

/-- The frontmost child is hidden and takes its own child along; the search falls back to the child
    behind it, which is hit through a node without bounds. -/
theorem hitTest_behind_hidden :
    let t := (((((ofRoot {}).step (.insert ⟨0⟩ ⟨1⟩ { bounds := some default })).step
      (.insert ⟨1⟩ ⟨2⟩ {})).step (.insert ⟨2⟩ ⟨3⟩ { bounds := some default })).step
      (.insert ⟨0⟩ ⟨4⟩ { states := { hidden := true } })).step
      (.insert ⟨4⟩ ⟨5⟩ { bounds := some default })
    t.Reachable ∧ t.frontmost? (fun _ => true) = some ⟨3⟩ ∧
      t.IsLastHittable (fun _ => true) (some ⟨3⟩) := by
  intro t
  have ht : t.Reachable := (((((Reachable.ofRoot {}).step _).step _).step _).step _).step _
  have hfront : t.frontmost? (fun _ => true) = some ⟨3⟩ := by decide +kernel
  exact ⟨ht, hfront, ((hitTest_eq_iff ht).1 _ _).1 hfront⟩

end Tree

end AccessBridge
