import Mathlib.Data.List.Nodup
import Mathlib.Data.List.Pairwise
import Mathlib.Logic.Relation

/-!
# Pre-order layouts

A child graph gives a list of children to each id that it knows. `Layout g s l` says that the ids
on the stack `s`, each followed by everything below it, unfold to the finite list `l`. The
relation is a derivation and not a run: a graph with a cycle below `s`, or with an unknown id
there, has no layout of `s`. What is below an id, and that it is not below itself, is read off
the layout (`Layout.mem_iff`, `Layout.irrefl`). An edit of the graph cuts one block out of a
layout (`Layout.cut`) or puts one in (`Layout.graft`).
-/

namespace AccessBridge

open Relation List

variable {α : Type} {g g' : α → Option (List α)} {s s' l l' m : List α} {a c p x : α}

/-- The graph gives `p` the child `c`. -/
def IsChild (g : α → Option (List α)) (p c : α) : Prop := ∃ cs, g p = some cs ∧ c ∈ cs

/-- The children that a graph with the further child `a` of `p` gives. -/
theorem isChild_graft_iff {q : α} {cs ds : List α} (known : g p = some (cs ++ ds))
    (known' : g' p = some (cs ++ a :: ds)) (hg : q ≠ p → (IsChild g' q c ↔ IsChild g q c)) :
    IsChild g' q c ↔ (q = p ∧ c = a) ∨ IsChild g q c := by
  by_cases hq : q = p
  · subst hq
    simp only [IsChild, known, known', Option.some.injEq, exists_eq_left', mem_append, mem_cons]
    tauto
  · simp [hg hq, hq]

/-- The children that a graph without the child `a` of `p` gives. -/
theorem isChild_cut_iff {q : α} {cs ds : List α} (known : g p = some (cs ++ a :: ds))
    (known' : g' p = some (cs ++ ds)) (nd : (cs ++ a :: ds).Nodup)
    (hg : q ≠ p → (IsChild g' q c ↔ IsChild g q c)) :
    IsChild g' q c ↔ IsChild g q c ∧ ¬ (q = p ∧ c = a) := by
  by_cases hq : q = p
  · subst hq
    have ha : a ∉ cs ++ ds := (nodup_cons.1 (nodup_middle.1 nd)).1
    simp only [IsChild, known, known', Option.some.injEq, exists_eq_left', mem_append, mem_cons]
    grind
  · simp [hg hq, hq]

/-- The ids on a stack, each followed by everything below it. -/
inductive Layout (g : α → Option (List α)) : List α → List α → Prop where
  | nil : Layout g [] []
  | cons {a : α} {cs stack below rest : List α} (known : g a = some cs)
      (down : Layout g cs below) (right : Layout g stack rest) :
      Layout g (a :: stack) (a :: (below ++ rest))

namespace Layout

theorem unique (h : Layout g s l) (h' : Layout g s l') : l = l' := by
  induction h generalizing l' with
  | nil => cases h'; rfl
  | cons known down right ihd ihr =>
    cases h' with
    | cons known' down' right' =>
      obtain rfl := Option.some.inj (known.symm.trans known')
      rw [ihd down', ihr right']

theorem append (h : Layout g s l) (h' : Layout g s' l') : Layout g (s ++ s') (l ++ l') := by
  induction h with
  | nil => exact h'
  | cons known down _ _ ihr =>
    rw [cons_append, cons_append, append_assoc]
    exact .cons known down ihr

theorem of_append (h : Layout g (s ++ s') m) :
    ∃ l l', m = l ++ l' ∧ Layout g s l ∧ Layout g s' l' := by
  induction s generalizing m with
  | nil => exact ⟨[], m, rfl, .nil, h⟩
  | cons a s ih =>
    cases h with
    | cons known down right =>
      obtain ⟨l, l', rfl, h₁, h₂⟩ := ih right
      exact ⟨_, l', by rw [cons_append, append_assoc], .cons known down h₁, h₂⟩

/-- A layout reads the graph at its own ids only. -/
theorem congr (h : Layout g s l) (hg : ∀ x ∈ l, g' x = g x) : Layout g' s l := by
  induction h with
  | nil => exact .nil
  | cons known _ _ ihd ihr =>
    refine .cons ((hg _ mem_cons_self).trans known) (ihd fun x hx => ?_) (ihr fun x hx => ?_)
    · exact hg x (mem_cons_of_mem _ (mem_append_left _ hx))
    · exact hg x (mem_cons_of_mem _ (mem_append_right _ hx))

/-- An id and everything below it. -/
theorem block {cs below : List α} (known : g a = some cs) (down : Layout g cs below) :
    Layout g [a] (a :: below) := by
  have h := Layout.cons known down .nil
  rwa [append_nil] at h

theorem leaf (known : g a = some []) : Layout g [a] [a] := block known .nil

/-- The layout of a single id starts with it. -/
theorem singleton_iff :
    Layout g [a] l ↔ ∃ cs below, g a = some cs ∧ Layout g cs below ∧ l = a :: below := by
  constructor
  · intro h
    cases h with
    | cons known down right =>
      cases right
      exact ⟨_, _, known, down, by rw [append_nil]⟩
  · rintro ⟨cs, below, known, down, rfl⟩
    exact block known down

/-- Each place in a layout is a place on the stack or a place among the children of an id. -/
theorem perm (h : Layout g s l) : l ~ s ++ l.flatMap fun x => (g x).getD [] := by
  induction h with
  | nil => exact .nil
  | @cons a cs stack below rest known _ _ ihd ihr =>
    let kids := fun x => (g x).getD []
    rw [flatMap_cons, known, Option.getD_some, flatMap_append, cons_append]
    refine .cons a ?_
    calc below ++ rest
        ~ (cs ++ below.flatMap kids) ++ (stack ++ rest.flatMap kids) := ihd.append ihr
      _ = (cs ++ below.flatMap kids ++ stack) ++ rest.flatMap kids := by rw [append_assoc _ stack]
      _ ~ (stack ++ (cs ++ below.flatMap kids)) ++ rest.flatMap kids :=
          perm_append_comm.append_right _
      _ = stack ++ (cs ++ (below.flatMap kids ++ rest.flatMap kids)) := by
          simp only [append_assoc]

/-! ## Membership -/

theorem stack_subset (h : Layout g s l) : s ⊆ l :=
  fun _ hx => h.perm.mem_iff.2 (mem_append_left _ hx)

theorem known_of_mem (h : Layout g s l) (hx : x ∈ l) : ∃ cs, g x = some cs := by
  induction h with
  | nil => cases hx
  | cons known _ _ ihd ihr =>
    rcases mem_cons.1 hx with rfl | hx
    · exact ⟨_, known⟩
    · exact (mem_append.1 hx).elim ihd ihr

theorem mem_of_isChild (h : Layout g s l) (hp : p ∈ l) (hc : IsChild g p c) : c ∈ l := by
  obtain ⟨cs, known, hc⟩ := hc
  refine h.perm.mem_iff.2 (mem_append_right _ (mem_flatMap.2 ⟨p, hp, ?_⟩))
  rwa [known]

theorem mem_of_reach (h : Layout g s l) (hp : p ∈ l) (hr : ReflTransGen (IsChild g) p x) :
    x ∈ l := by
  induction hr with
  | refl => exact hp
  | tail _ hc ih => exact h.mem_of_isChild ih hc

theorem reach_of_mem (h : Layout g s l) (hx : x ∈ l) :
    ∃ a ∈ s, ReflTransGen (IsChild g) a x := by
  induction h with
  | nil => cases hx
  | @cons a cs stack below rest known _ _ ihd ihr =>
    rcases mem_cons.1 hx with rfl | hx
    · exact ⟨x, mem_cons_self, .refl⟩
    · rcases mem_append.1 hx with hx | hx
      · obtain ⟨b, hb, hr⟩ := ihd hx
        exact ⟨a, mem_cons_self, .head ⟨cs, known, hb⟩ hr⟩
      · obtain ⟨b, hb, hr⟩ := ihr hx
        exact ⟨b, mem_cons_of_mem _ hb, hr⟩

/-- A layout lists what is reached from its stack. -/
theorem mem_iff (h : Layout g s l) : x ∈ l ↔ ∃ a ∈ s, ReflTransGen (IsChild g) a x :=
  ⟨h.reach_of_mem, fun ⟨_, ha, hr⟩ => h.mem_of_reach (h.stack_subset ha) hr⟩

theorem mem_singleton_iff (h : Layout g [a] l) : x ∈ l ↔ ReflTransGen (IsChild g) a x := by
  rw [h.mem_iff]
  constructor
  · rintro ⟨b, hb, hr⟩
    rwa [mem_singleton.1 hb] at hr
  · exact fun hr => ⟨a, mem_cons_self, hr⟩

/-! ## Blocks -/

/-- Each id of a layout heads a block: itself and everything below it. Whatever another graph has
    below `p`, if it agrees with `g` outside that block, then it has a layout that differs in that
    block only. -/
theorem exists_hole (h : Layout g s l) (hp : p ∈ l) :
    ∃ A cs below C, g p = some cs ∧ Layout g cs below ∧ l = A ++ p :: below ++ C ∧
      ∀ g' cs' below', (∀ x ∈ A ++ C, g' x = g x) → g' p = some cs' → Layout g' cs' below' →
        Layout g' s (A ++ p :: below' ++ C) := by
  induction h with
  | nil => cases hp
  | @cons a cs stack below rest known down right ihd ihr =>
    rcases mem_cons.1 hp with rfl | hp
    · refine ⟨[], cs, below, rest, known, down, rfl, fun g' cs' below' hg known' down' => ?_⟩
      exact .cons known' down' (right.congr hg)
    · rcases mem_append.1 hp with hp | hp
      · obtain ⟨A, cs', hole, C, hk, hd, rfl, put⟩ := ihd hp
        refine ⟨a :: A, cs', hole, C ++ rest, hk, hd, by simp, fun g' es new hg hk' hd' => ?_⟩
        have hn := put g' es new (fun x hx => hg x (by grind)) hk' hd'
        have hr : Layout g' stack rest := right.congr fun x hx => hg x (by simp [hx])
        simpa using Layout.cons ((hg a (by simp)).trans known) hn hr
      · obtain ⟨A, cs', hole, C, hk, hd, rfl, put⟩ := ihr hp
        refine ⟨a :: (below ++ A), cs', hole, C, hk, hd, by simp, fun g' es new hg hk' hd' => ?_⟩
        have hn := put g' es new (fun x hx => hg x (by grind)) hk' hd'
        have hb : Layout g' cs below := down.congr fun x hx => hg x (by simp [hx])
        simpa using Layout.cons ((hg a (by simp)).trans known) hb hn

theorem exists_block (h : Layout g s l) (hp : p ∈ l) : ∃ b, Layout g [p] b ∧ b <:+: l := by
  obtain ⟨A, cs, below, C, known, down, rfl, -⟩ := h.exists_hole hp
  exact ⟨p :: below, block known down, A, C, rfl⟩

/-- The block of a child is shorter than the block of its parent. -/
theorem length_lt_of_isChild {b b' : List α} (h : Layout g [p] b) (h' : Layout g [c] b')
    (hc : IsChild g p c) : b'.length < b.length := by
  obtain ⟨cs, known, hc⟩ := hc
  obtain ⟨_, below, known', down, rfl⟩ := singleton_iff.1 h
  obtain rfl := Option.some.inj (known.symm.trans known')
  obtain ⟨b'', hb, hi⟩ := down.exists_block (down.stack_subset hc)
  rw [h'.unique hb, length_cons]
  exact Nat.lt_succ_of_le hi.length_le

theorem length_lt_of_below {b b' : List α} (h : Layout g [p] b) (h' : Layout g [c] b')
    (hr : TransGen (IsChild g) p c) : b'.length < b.length := by
  induction hr generalizing b' with
  | single hc => exact h.length_lt_of_isChild h' hc
  | tail hr hc ih =>
    obtain ⟨d, hd, -⟩ := h.exists_block (h.mem_singleton_iff.2 hr.to_reflTransGen)
    exact Nat.lt_trans (hd.length_lt_of_isChild h' hc) (ih hd)

/-- Nothing in a layout is below itself. -/
theorem irrefl (h : Layout g s l) (hx : x ∈ l) : ¬ TransGen (IsChild g) x x := by
  intro hr
  obtain ⟨b, hb, -⟩ := h.exists_block hx
  exact Nat.lt_irrefl _ (hb.length_lt_of_below hb hr)

/-! ## Layouts without repetition -/

theorem nodup_children {cs : List α} (h : Layout g s l) (nd : l.Nodup) (hp : p ∈ l)
    (known : g p = some cs) : cs.Nodup := by
  have hk := (nodup_append'.1 (h.perm.nodup nd)).2.1
  simpa [known] using (nodup_flatMap.1 hk).1 p hp

/-- An id on the stack is nobody's child. -/
theorem not_isChild_of_mem_stack (h : Layout g s l) (nd : l.Nodup) (ha : a ∈ s) (hp : p ∈ l) :
    ¬ IsChild g p a := by
  rintro ⟨cs, known, hc⟩
  refine (nodup_append'.1 (h.perm.nodup nd)).2.2 ha (mem_flatMap.2 ⟨p, hp, ?_⟩)
  rwa [known]

theorem parent_unique {q : α} (h : Layout g s l) (nd : l.Nodup) (hp : p ∈ l) (hq : q ∈ l)
    (hpc : IsChild g p c) (hqc : IsChild g q c) : p = q := by
  have hk := (nodup_flatMap.1 (nodup_append'.1 (h.perm.nodup nd)).2.1).2
  have : Std.Symm (Function.onFun Disjoint fun x => (g x).getD []) := ⟨fun _ _ hd => disjoint_symm hd⟩
  obtain ⟨cs, known, hc⟩ := hpc
  obtain ⟨ds, known', hd⟩ := hqc
  by_contra hne
  have hdisj := hk.forall hp hq hne
  simp only [Function.onFun, known, known', Option.getD_some] at hdisj
  exact hdisj hc hd

/-- In a layout nothing stands after what is below it. -/
theorem pairwise_not_below (h : Layout g s l) (nd : l.Nodup) :
    l.Pairwise fun x y => ¬ TransGen (IsChild g) y x := by
  induction h with
  | nil => exact .nil
  | @cons a cs stack below rest known down right ihd ihr =>
    have hl := Layout.cons known down right
    obtain ⟨-, nd'⟩ := nodup_cons.1 nd
    obtain ⟨ndd, ndr, hdisj⟩ := nodup_append'.1 nd'
    refine pairwise_cons.2 ⟨fun y hy hr => ?_, pairwise_append.2 ⟨ihd ndd, ihr ndr, ?_⟩⟩
    · -- What is below `y` is somebody's child, and `a` is on the stack.
      obtain ⟨p, hp, hc⟩ := TransGen.tail'_iff.1 hr
      have hpl := hl.mem_of_reach (mem_cons_of_mem a hy) hp
      exact hl.not_isChild_of_mem_stack nd mem_cons_self hpl hc
    · intro x hx y hy hr
      exact hdisj hx (right.mem_of_reach hy hr.to_reflTransGen)

/-- An id outside the stack of a layout is somebody's child. -/
theorem exists_parent (h : Layout g s l) (hx : x ∈ l) (hs : x ∉ s) : ∃ p ∈ l, IsChild g p x := by
  rcases mem_append.1 (h.perm.mem_iff.1 hx) with hx | hx
  · exact absurd hx hs
  · obtain ⟨p, hp, hx⟩ := mem_flatMap.1 hx
    obtain ⟨cs, known⟩ := h.known_of_mem hp
    exact ⟨p, hp, cs, known, by rwa [known] at hx⟩

/-! ## Cutting a block out and putting one in -/

/-- Where `p` loses the child `a`, the layout loses the block of `a`. -/
theorem cut {b cs ds : List α} (h : Layout g s l) (nd : l.Nodup) (hp : p ∈ l)
    (known : g p = some (cs ++ a :: ds)) (known' : g' p = some (cs ++ ds)) (hb : Layout g [a] b)
    (hg : ∀ x ∈ l, x ∉ b → x ≠ p → g' x = g x) :
    ∃ A C, l = A ++ b ++ C ∧ Layout g' s (A ++ C) := by
  obtain ⟨A, es, below, C, hk, down, rfl, put⟩ := h.exists_hole hp
  obtain rfl := Option.some.inj (known.symm.trans hk)
  obtain ⟨l₁, l₂, rfl, h₁, h₂⟩ := down.of_append
  obtain ⟨b', l₃, rfl, hb', h₃⟩ := of_append (s := [a]) h₂
  obtain rfl := hb.unique hb'
  refine ⟨A ++ p :: l₁, l₃ ++ C, by simp, ?_⟩
  have hn := put g' (cs ++ ds) (l₁ ++ l₃) ?_ known' ((h₁.congr ?_).append (h₃.congr ?_))
  · simpa using hn
  all_goals
    intro x hx
    refine hg x ?_ ?_ ?_ <;> grind

/-- Where `p` gains the child `a`, the layout gains the block of `a`. -/
theorem graft {b cs ds : List α} (h : Layout g s l) (nd : l.Nodup) (hp : p ∈ l)
    (known : g p = some (cs ++ ds)) (known' : g' p = some (cs ++ a :: ds)) (hb : Layout g' [a] b)
    (hg : ∀ x ∈ l, x ≠ p → g' x = g x) :
    ∃ A C, l = A ++ C ∧ Layout g' s (A ++ b ++ C) := by
  obtain ⟨A, es, below, C, hk, down, rfl, put⟩ := h.exists_hole hp
  obtain rfl := Option.some.inj (known.symm.trans hk)
  obtain ⟨l₁, l₂, rfl, h₁, h₂⟩ := down.of_append
  refine ⟨A ++ p :: l₁, l₂ ++ C, by simp, ?_⟩
  have hn := put g' (cs ++ a :: ds) (l₁ ++ (b ++ l₂)) ?_ known'
    ((h₁.congr ?_).append (hb.append (h₂.congr ?_)))
  · simpa using hn
  all_goals
    intro x hx
    refine hg x ?_ ?_ <;> grind

end Layout

end AccessBridge
