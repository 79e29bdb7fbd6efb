import AccessBridge.Proofs.Tree.HitTest
import Mathlib.Data.List.Perm.Subperm

/-!
# The loops of a tree end

None of the loops over a tree recurses on its shape: they follow a stack, or the parent links. Here
each of them is a loop without any bound, given by what one turn makes of its state, and
`Passes next s states` says that it ends and which states it goes through. The walk that validates
an update ends because it visits no id twice, unless to report it
(`Validation.exists_passes`). The others end because the tree is arranged: what they pop is a
layout without repetition, and what they climb is a path without repetition. The functions of the
tree, which are told how often they may pop, answer what these loops answer
(`Reachable.loops_end`).
-/

namespace AccessBridge

open Std (ExtTreeMap)
open Relation

/-- The loop that goes from each state to the `next` one ends; from `s` on it goes through
    `states`, and the last of them has no next one. -/
inductive Passes {σ : Type} (next : σ → Option σ) : σ → List σ → Prop where
  | stop {s : σ} (last : next s = none) : Passes next s [s]
  | turn {s s' : σ} {states : List σ} (step : next s = some s') (rest : Passes next s' states) :
      Passes next s (s :: states)

theorem Passes.length_pos {σ : Type} {next : σ → Option σ} {s : σ} {states : List σ}
    (h : Passes next s states) : 0 < states.length := by
  cases h <;> exact Nat.succ_pos _

/-! ## Loops over a stack -/

namespace Worklist

variable {α β : Type} {visit : α → Option β × List α} {halts : α → Bool} {s s' ps : List α}
  {piles : List (List α)}

/-- One turn of a loop over a stack. The top is popped; it ends the loop, or its visit puts further
    items in its place. -/
def next (visit : α → Option β × List α) (halts : α → Bool) : List α → Option (List α)
  | [] => none
  | a :: stack => if halts a then none else some ((visit a).2 ++ stack)

/-- The loop that collects what the items yield. -/
def collect (visit : α → Option β × List α) : List α → Option (List α) :=
  next visit fun _ => false

/-- The loop that ends at the first item that yields anything. -/
def search (visit : α → Option β × List α) : List α → Option (List α) :=
  next visit fun a => (visit a).1.isSome

/-- The items that are popped from stacks. -/
def popped (piles : List (List α)) : List α := piles.filterMap List.head?

theorem next_eq_none (h : next visit halts s = none) :
    s = [] ∨ ∃ a stack, s = a :: stack ∧ halts a = true := by
  cases s with
  | nil => exact .inl rfl
  | cons a stack =>
    by_cases ha : halts a = true
    · exact .inr ⟨a, stack, rfl, ha⟩
    · rw [next, if_neg ha] at h
      cases h

theorem next_eq_some (h : next visit halts s = some s') :
    ∃ a stack, s = a :: stack ∧ ¬ halts a = true ∧ s' = (visit a).2 ++ stack := by
  cases s with
  | nil => cases h
  | cons a stack =>
    by_cases ha : halts a = true
    · rw [next, if_pos ha] at h
      cases h
    · rw [next, if_neg ha] at h
      exact ⟨a, stack, rfl, ha, (Option.some.inj h).symm⟩

@[simp] theorem popped_cons_cons {a : α} :
    popped ((a :: s) :: piles) = a :: popped piles := rfl

/-- A loop over a stack that has a layout pops the layout, or the part of it up to an item that
    ends the loop. -/
theorem exists_passes_of_layout (h : Layout (work visit) s ps) (halts : α → Bool) :
    ∃ piles, Passes (next visit halts) s piles ∧ popped piles <+: ps := by
  induction ps generalizing s with
  | nil =>
    cases h
    exact ⟨[[]], .stop rfl, List.prefix_rfl⟩
  | cons a ps ih =>
    cases h with
    | @cons _ cs stack below rest known down right =>
      obtain rfl := Option.some.inj known
      by_cases ha : halts a = true
      · exact ⟨[a :: stack], .stop (if_pos ha), below ++ rest, rfl⟩
      · obtain ⟨piles, hp, hpre⟩ := ih (down.append right)
        refine ⟨(a :: stack) :: piles, .turn (if_neg ha) hp, ?_⟩
        rw [popped_cons_cons]
        exact List.cons_prefix_cons.2 ⟨rfl, hpre⟩

/-- The loop over a stack ends, and on the way it pops `items`, none of them twice. -/
structure PopsOnce (turn : List α → Option (List α)) (s items : List α) : Prop where
  ends : ∃ piles, Passes turn s piles ∧ popped piles = items
  once : items.Nodup

theorem exists_popsOnce (h : Layout (work visit) s ps) (nd : ps.Nodup) (halts : α → Bool) :
    ∃ items, PopsOnce (next visit halts) s items ∧ items <+: ps := by
  obtain ⟨piles, hp, hpre⟩ := exists_passes_of_layout h halts
  exact ⟨popped piles, ⟨⟨piles, hp, rfl⟩, nd.sublist hpre.sublist⟩, hpre⟩

theorem pops_eq_popped (h : Passes (collect visit) s piles) {n : Nat}
    (hn : (popped piles).length ≤ n) : pops visit n s = popped piles := by
  induction h generalizing n with
  | stop last =>
    rcases next_eq_none last with rfl | ⟨a, stack, -, ha⟩
    · exact pops_nil n
    · cases ha
  | turn step _ ih =>
    obtain ⟨a, stack, rfl, -, rfl⟩ := next_eq_some step
    rw [popped_cons_cons, List.length_cons] at hn
    obtain ⟨n, rfl⟩ : ∃ m, n = m + 1 := ⟨n - 1, by omega⟩
    rw [pops, popped_cons_cons, ih (Nat.le_of_succ_le_succ hn)]

theorem first?_eq_findSome? (h : Passes (search visit) s piles) {n : Nat}
    (hn : (popped piles).length ≤ n) :
    first? visit n s = (popped piles).findSome? fun a => (visit a).1 := by
  induction h generalizing n with
  | stop last =>
    rcases next_eq_none last with rfl | ⟨a, stack, rfl, ha⟩
    · cases n <;> rfl
    · rw [popped_cons_cons, List.length_cons] at hn
      obtain ⟨n, rfl⟩ : ∃ m, n = m + 1 := ⟨n - 1, by omega⟩
      rcases hv : visit a with ⟨_ | b, more⟩
      · simp [hv] at ha
      · simp [first?, hv]
  | turn step _ ih =>
    obtain ⟨a, stack, rfl, ha, rfl⟩ := next_eq_some step
    rw [popped_cons_cons, List.length_cons] at hn
    obtain ⟨n, rfl⟩ : ∃ m, n = m + 1 := ⟨n - 1, by omega⟩
    have hrest := ih (Nat.le_of_succ_le_succ hn)
    rcases hv : visit a with ⟨_ | b, more⟩
    · rw [hv] at hrest
      simp [first?, hv, hrest]
    · simp [hv] at ha

namespace PopsOnce

variable {items : List α}

/-- A bound that the loop does not reach makes no difference to what it collects. -/
theorem run_eq (h : PopsOnce (collect visit) s items) {n : Nat} (hn : items.length ≤ n) :
    run visit n s = items.filterMap fun a => (visit a).1 := by
  obtain ⟨piles, hp, rfl⟩ := h.ends
  rw [run_eq_filterMap_pops, pops_eq_popped hp hn]

/-- A bound that the loop does not reach makes no difference to what it finds. -/
theorem first?_eq (h : PopsOnce (search visit) s items) {n : Nat} (hn : items.length ≤ n) :
    first? visit n s = items.findSome? fun a => (visit a).1 := by
  obtain ⟨piles, hp, rfl⟩ := h.ends
  exact first?_eq_findSome? hp hn

end PopsOnce

end Worklist

/-! ## The walk that validates an update -/

/-- The walk over a child graph that accepts or refuses an update: the ids that it has visited, the
    latest first, and those that it is still to visit. -/
structure Validation where
  visited : List NodeId
  stack : List NodeId

namespace Validation

variable {g : NodeId → Option (List NodeId)} {w w' : Validation} {states : List Validation}
  {ids : List NodeId}

/-- One turn of the walk. It leaves off at an id that the graph does not know or that it has
    visited. -/
def next (g : NodeId → Option (List NodeId)) : Validation → Option Validation
  | ⟨_, []⟩ => none
  | ⟨visited, x :: stack⟩ =>
    match g x with
    | none => none
    | some cs => if x ∈ visited then none else some ⟨x :: visited, cs ++ stack⟩

/-- What the walk has found where it leaves off: all ids in the order of the visits, or the error
    about the id that it is at. -/
def outcome (g : NodeId → Option (List NodeId)) : Validation → Except TreeError (List NodeId)
  | ⟨visited, []⟩ => .ok visited.reverse
  | ⟨_, x :: _⟩ => .error (if (g x).isSome then .cycle x else .unknownNode x)

/-- The ids that the walk pops in some of its states. -/
def visits (states : List Validation) : List NodeId := states.filterMap (·.stack.head?)

theorem next_eq_some (h : w.next g = some w') :
    ∃ x stack cs, w.stack = x :: stack ∧ g x = some cs ∧ x ∉ w.visited ∧
      w' = ⟨x :: w.visited, cs ++ stack⟩ := by
  obtain ⟨visited, _ | ⟨x, stack⟩⟩ := w
  · cases h
  · rw [next] at h
    split at h
    · cases h
    · rename_i cs hcs
      split at h
      · cases h
      · rename_i hnew
        exact ⟨x, stack, cs, rfl, hcs, hnew, (Option.some.inj h).symm⟩

theorem next_eq_none (h : w.next g = none) :
    w.stack = [] ∨ ∃ x stack, w.stack = x :: stack ∧ (g x = none ∨ x ∈ w.visited) := by
  obtain ⟨visited, _ | ⟨x, stack⟩⟩ := w
  · exact .inl rfl
  · refine .inr ⟨x, stack, rfl, ?_⟩
    rw [next] at h
    split at h
    · rename_i hcs
      exact .inl hcs
    · split at h
      · rename_i hmem
        exact .inr hmem
      · cases h

/-- **The walk ends.** Each turn visits an id that the graph knows and that has not been visited, so
    there are at most as many turns as ids that are left. -/
theorem exists_passes (known : ∀ x cs, g x = some cs → x ∈ ids) (nd : w.visited.Nodup)
    (hw : w.visited ⊆ ids) :
    ∃ states, Passes (next g) w states ∧ states.length + w.visited.length ≤ ids.length + 1 := by
  obtain ⟨k, hk⟩ : ∃ k, ids.length < k + w.visited.length := ⟨ids.length + 1, by omega⟩
  induction k generalizing w with
  | zero =>
    have hle : w.visited.length ≤ ids.length := (nd.subperm hw).length_le
    omega
  | succ k ih =>
    cases step : w.next g with
    | none =>
      have hle : w.visited.length ≤ ids.length := (nd.subperm hw).length_le
      exact ⟨[w], .stop step, by rw [List.length_singleton]; omega⟩
    | some w' =>
      obtain ⟨x, stack, cs, -, hx, hnew, rfl⟩ := next_eq_some step
      have hnext := ih (w := ⟨x :: w.visited, cs ++ stack⟩) (List.nodup_cons.2 ⟨hnew, nd⟩)
        (List.cons_subset.2 ⟨known x cs hx, hw⟩)
      simp only [List.length_cons] at hnext
      obtain ⟨states, hp, hle⟩ := hnext (by omega)
      exact ⟨w :: states, .turn step hp, by rw [List.length_cons]; omega⟩

theorem length_visits_le (states : List Validation) : (visits states).length ≤ states.length :=
  List.length_filterMap_le _ _

/-- The walk that consumes the graph finds the same. What is left of the graph is what has not been
    visited. -/
theorem map_unfold {graph rest : ChildGraph} {stack : List (Option NodeId × NodeId)}
    (hp : Passes (next fun x => graph[x]?) w states)
    (hrest : ∀ x : NodeId, rest[x]? = if x ∈ w.visited then none else graph[x]?)
    (hstack : stack.map (·.2) = w.stack) :
    ∃ last, states.getLast? = some last ∧
      (graph.unfold rest stack).map (fun ps => w.visited.reverse ++ ps.map (·.id)) =
        last.outcome fun x => graph[x]? := by
  induction hp generalizing rest stack with
  | @stop w last =>
    refine ⟨w, rfl, ?_⟩
    obtain ⟨visited, ids⟩ := w
    rcases next_eq_none last with rfl | ⟨x, ids', rfl, hx⟩
    · obtain rfl := List.map_eq_nil_iff.1 hstack
      rw [ChildGraph.unfold]
      simp [Except.map, outcome]
    · obtain ⟨⟨p, y⟩, stack', rfl, rfl, -⟩ := List.map_eq_cons_iff.1 hstack
      have hnone : rest[y]? = none := by
        rw [hrest]
        split
        · rfl
        · rename_i hnew
          exact hx.resolve_right hnew
      rw [ChildGraph.unfold_unplaced hnone, outcome, ← ExtTreeMap.isSome_getElem?_eq_contains]
      rfl
  | @turn w w' states step rest' ih =>
    obtain ⟨visited, ids⟩ := w
    obtain ⟨x, ids', cs, rfl, hx, hnew, rfl⟩ := next_eq_some step
    obtain ⟨⟨p, y⟩, stack', rfl, rfl, rfl⟩ := List.map_eq_cons_iff.1 hstack
    have hy : rest[y]? = some cs := by rw [hrest, if_neg hnew, hx]
    have herase : ∀ z : NodeId, (rest.erase y)[z]? =
        if z ∈ y :: visited then none else graph[z]? := fun z => by
      rw [ExtTreeMap.getElem?_erase, hrest]
      simp only [NodeId.compare_eq_iff, List.mem_cons]
      grind
    have hpush : (cs.map (some y, ·) ++ stack').map (·.2) = cs ++ stack'.map (·.2) := by
      simp [Function.comp_def]
    obtain ⟨last, hlast, hmap⟩ := ih herase hpush
    refine ⟨last, by rw [List.getLast?_cons, hlast]; rfl, ?_⟩
    rw [← hmap, ChildGraph.unfold_placed hy]
    cases graph.unfold (rest.erase y) (cs.map (some y, ·) ++ stack') with
    | ok ps => simp [Except.map]
    | error e => rfl

end Validation

namespace Tree

open Worklist
open scoped List

variable {t t' : Tree} {u : TreeUpdate} {l s : List NodeId} {a c x y : NodeId}

/-- The new tree is listed in the order in which the walk has visited its nodes. -/
theorem Arranged.preorder_update (h : t.Arranged l) (hr : ∀ id ∈ u.ids, id.InRange) :
    (t.update u).map (·.1.preorder) =
      ((u.mergedGraph t).unfoldFrom (u.newRoot t)).map fun ps => ps.map (·.id) := by
  cases hps : (u.mergedGraph t).unfoldFrom (u.newRoot t) with
  | error e =>
    rw [update_eq_map hr, hps]
    rfl
  | ok ps =>
    have hu : t.update u = .ok (t.replaced u ps, t.summary u ps) := by
      rw [update_eq_map hr, hps]
      rfl
    obtain ⟨l', h'⟩ := h.update hu
    have hunfolds := TreeUpdate.mergedGraph_eq ▸ ChildGraph.unfoldFrom_ok hps
    have hl' : l' = ps.map (·.id) := h'.layout.unique (layout_replaced hunfolds)
    rw [hu, Except.map, Except.map, h'.preorder_eq, hl']

/-- The ids that occur in the tree or in the update, each once. -/
def occurring (t : Tree) (u : TreeUpdate) : List NodeId := (t.entries.keys ++ u.ids).eraseDups

theorem mem_occurring {cs : List NodeId} (hx : t.mergedChildren? u x = some cs) :
    x ∈ t.occurring u := by
  rw [occurring, List.mem_eraseDups, List.mem_append]
  cases hn : u.last? x with
  | some n => exact .inr (TreeUpdate.mem_ids_of_last? hn)
  | none =>
    rw [mergedChildren?, hn] at hx
    exact .inl (ExtTreeMap.mem_keys.2 (contains_iff_children?.2 ⟨cs, hx⟩))

/-- The walk over the merged graph ends, whatever the graph is. -/
theorem Arranged.exists_validation (h : t.Arranged l) (u : TreeUpdate) :
    ∃ states last, Passes (Validation.next (t.mergedChildren? u)) ⟨[], [u.newRoot t]⟩ states ∧
      states.getLast? = some last ∧
      (Validation.visits states).length ≤ (t.occurring u).length + 1 ∧
      ((∀ id ∈ u.ids, id.InRange) →
        (t.update u).map (·.1.preorder) = last.outcome (t.mergedChildren? u)) := by
  obtain ⟨states, hp, hle⟩ : ∃ states,
      Passes (Validation.next (t.mergedChildren? u)) ⟨[], [u.newRoot t]⟩ states ∧
        states.length ≤ (t.occurring u).length + 1 :=
    Validation.exists_passes (fun _ _ => mem_occurring) List.nodup_nil (List.nil_subset _)
  rw [← TreeUpdate.mergedGraph_eq] at hp ⊢
  have hrest : ∀ x : NodeId, (u.mergedGraph t)[x]? =
      if x ∈ ([] : List NodeId) then none else (u.mergedGraph t)[x]? := by simp
  have hstack : [((none : Option NodeId), u.newRoot t)].map (·.2) = [u.newRoot t] := rfl
  obtain ⟨last, hlast, hmap⟩ := Validation.map_unfold hp hrest hstack
  have hvisits := Nat.le_trans (Validation.length_visits_le states) hle
  refine ⟨states, last, hp, hlast, hvisits, fun hr => ?_⟩
  rw [h.preorder_update hr, ← hmap]
  rfl

/-! ## Walks that come back to a node -/

/-- The node that an item of a walk is about. -/
def Turn.node : Turn → NodeId
  | .enter id | .leave id => id

/-- A visit that leads from a node to all of its children or to none of them, and at most once back
    to the node. -/
structure Descends (t : Tree) (visit : Turn → Option NodeId × List Turn) : Prop where
  leave : ∀ a, (visit (.leave a)).2 = []
  enter : ∀ a cs, t.children? a = some cs → (visit (.enter a)).2 = [] ∨
    ∃ back, back <+ [.leave a] ∧ (visit (.enter a)).2 = cs.reverse.map .enter ++ back

variable {visit : Turn → Option NodeId × List Turn}

theorem descends_postorderVisit : t.Descends t.postorderVisit where
  leave _ := rfl
  enter a cs known := .inr ⟨[.leave a], .refl _, by rw [postorderVisit, known]; rfl⟩

theorem descends_hitVisit (inside : Rect → Bool) : t.Descends (t.hitVisit inside) where
  leave _ := rfl
  enter a cs known := by
    obtain ⟨n, hn⟩ := contains_iff_node?.1 (contains_iff_children?.2 ⟨cs, known⟩)
    by_cases ho : n.IsOpen inside
    · rw [hitVisit_of_isOpen hn known ho]
      refine .inr ⟨_, ?_, rfl⟩
      split
      · exact .refl _
      · exact List.nil_sublist _
    · rw [hitVisit_of_not_isOpen hn ho]
      exact .inl rfl

/-- The way back to a node pops nothing else. -/
theorem Descends.layout_back (hv : t.Descends visit) {back : List Turn} (hb : back <+ [.leave a]) :
    Layout (work visit) back back := by
  rcases List.sublist_singleton.1 hb with rfl | rfl
  · exact .nil
  · exact .leaf (by rw [work, hv.leave])

/-- What is popped for a block: its head on the way in and, if the walk goes on to what is below,
    that and perhaps the head on the way out. -/
theorem Descends.exists_block (hv : t.Descends visit) {cs : List NodeId} {ps : List Turn}
    (known : t.children? a = some cs) (hd : Layout (work visit) (cs.reverse.map .enter) ps)
    (nd : ps.Nodup) (hfar : ∀ i ∈ ps, i.node ≠ a) :
    ∃ bs, Layout (work visit) [.enter a] bs ∧ bs.Nodup ∧ ∀ i ∈ bs, i.node = a ∨ i ∈ ps := by
  rcases hv.enter a cs known with hnone | ⟨back, hback, hsome⟩
  · exact ⟨[.enter a], .leaf (by rw [work, hnone]), List.nodup_singleton _, by simp [Turn.node]⟩
  · have hleave : ∀ i ∈ back, i = .leave a := fun i hi => List.mem_singleton.1 (hback.subset hi)
    have hnew : .enter a ∉ ps ++ back := by
      intro hi
      rcases List.mem_append.1 hi with hi | hi
      · exact hfar _ hi rfl
      · cases hleave _ hi
    have hapart : ps.Disjoint back := fun i hi hi' => hfar i hi (hleave i hi' ▸ rfl)
    have honce : back.Nodup := (List.nodup_singleton _).sublist hback
    refine ⟨.enter a :: (ps ++ back), ?_,
      List.nodup_cons.2 ⟨hnew, List.nodup_append'.2 ⟨nd, honce, hapart⟩⟩, fun i hi => ?_⟩
    · exact .block (by rw [work, hsome]) (hd.append (hv.layout_back hback))
    · rcases List.mem_cons.1 hi with rfl | hi
      · exact .inl rfl
      · exact (List.mem_append.1 hi).symm.imp_left fun hi => hleave i hi ▸ rfl

/-- A walk that descends from nodes with a layout pops the nodes of the layout only, and each of
    them at most once on the way in and once on the way out. -/
theorem Descends.exists_layout (hv : t.Descends visit) (h : Layout t.children? s l) (nd : l.Nodup) :
    ∃ ps, Layout (work visit) (s.reverse.map .enter) ps ∧ ps.Nodup ∧ ∀ i ∈ ps, i.node ∈ l := by
  induction h with
  | nil => exact ⟨[], .nil, .nil, nofun⟩
  | @cons a cs stack below rest known _ _ ihd ihr =>
    obtain ⟨ha, nd'⟩ := List.nodup_cons.1 nd
    obtain ⟨ndd, ndr, hdisj⟩ := List.nodup_append'.1 nd'
    obtain ⟨ps, hd, hdn, hdl⟩ := ihd ndd
    obtain ⟨qs, hr, hrn, hrl⟩ := ihr ndr
    obtain ⟨bs, hb, hbn, hbl⟩ := hv.exists_block known hd hdn fun i hi he =>
      ha (List.mem_append_left _ (he ▸ hdl i hi))
    refine ⟨qs ++ bs, ?_, List.nodup_append'.2 ⟨hrn, hbn, fun i hi hi' => ?_⟩, fun i hi => ?_⟩
    · rw [List.reverse_cons, List.map_append]
      exact hr.append hb
    · rcases hbl i hi' with he | hm
      · exact ha (List.mem_append_right _ (he ▸ hrl i hi))
      · exact hdisj (hdl i hm) (hrl i hi)
    · rcases List.mem_append.1 hi with hi | hi
      · exact List.mem_cons_of_mem _ (List.mem_append_right _ (hrl i hi))
      · rcases hbl i hi with he | hm
        · exact he ▸ List.mem_cons_self
        · exact List.mem_cons_of_mem _ (List.mem_append_left _ (hdl i hm))

theorem length_le_of_nodup {items : List Turn} (nd : items.Nodup) (hl : ∀ i ∈ items, i.node ∈ l) :
    items.length ≤ 2 * l.length := by
  have hsub : items ⊆ l.map .enter ++ l.map .leave := fun i hi => by
    have hn := hl i hi
    cases i with
    | enter x => exact List.mem_append_left _ (List.mem_map_of_mem hn)
    | leave x => exact List.mem_append_right _ (List.mem_map_of_mem hn)
  have hle := (nd.subperm hsub).length_le
  simp only [List.length_append, List.length_map] at hle
  omega

/-! ## Towards the root -/

/-- One turn of the climb that looks for `a`. -/
def climbTurn (t : Tree) (a x : NodeId) : Option NodeId := if x = a then none else t.parent? x

/-- The climb from a live node ends, whatever it looks for; it comes to what is above the node only,
    and to nothing twice. -/
theorem Arranged.exists_climb (h : t.Arranged l) (a : NodeId) (hx : x ∈ l) :
    ∃ ids, Passes (t.climbTurn a) x ids ∧ ids.Nodup ∧
      ∀ y ∈ ids, ReflTransGen (IsChild t.children?) y x := by
  induction h.mem_iff.1 hx with
  | refl =>
    have hstop : t.climbTurn a t.root = none := by
      rw [climbTurn, h.parent?_root, ite_self]
    exact ⟨[t.root], .stop hstop, List.nodup_singleton _, by simp [ReflTransGen.refl]⟩
  | @tail p x hr hc ih =>
    by_cases hxa : x = a
    · exact ⟨[x], .stop (if_pos hxa), List.nodup_singleton _, by simp [ReflTransGen.refl]⟩
    · obtain ⟨ids, hp, nd, hup⟩ := ih (h.mem_of_isChild hc).1
      have hnew : x ∉ ids := fun hm => h.layout.irrefl hx (.tail' (hup x hm) hc)
      refine ⟨x :: ids, .turn ((if_neg hxa).trans ((h.parent p x).2 hc)) hp,
        List.nodup_cons.2 ⟨hnew, nd⟩, fun y hy => ?_⟩
      rcases List.mem_cons.1 hy with rfl | hy
      · exact .refl
      · exact (hup y hy).tail hc

/-- A bound that the climb does not reach makes no difference to whether it comes to `a`. -/
theorem mem_climb_iff {ids : List NodeId} (h : Passes (t.climbTurn a) x ids) {n : Nat}
    (hn : ids.length ≤ n + 1) : a ∈ t.climb n x ↔ a ∈ ids := by
  induction h generalizing n with
  | @stop x last =>
    by_cases hxa : x = a
    · subst hxa
      exact iff_of_true (mem_climb_self n) List.mem_cons_self
    · have hparent : t.parent? x = none := (if_neg hxa).symm.trans last
      have hclimb : t.climb n x = [x] := by
        cases n with
        | zero => rfl
        | succ n => rw [climb, hparent]
      rw [hclimb]
  | @turn x p ids step rest ih =>
    have hpos := rest.length_pos
    rw [List.length_cons] at hn
    obtain ⟨n, rfl⟩ : ∃ m, n = m + 1 := ⟨n - 1, by omega⟩
    have hxa : x ≠ a := fun he => by
      rw [climbTurn, if_pos he] at step
      cases step
    have hparent : t.parent? x = some p := (if_neg hxa).symm.trans step
    rw [climb, hparent, List.mem_cons, List.mem_cons, ih (Nat.le_of_succ_le_succ hn)]

/-! ## All loops -/

namespace Arranged

/-- Every item of a walk that descends from a live node is popped at most once, and no more items
    are popped than the walk is given turns. -/
theorem exists_popsOnce (h : t.Arranged l) (hv : t.Descends visit) (halts : Turn → Bool)
    (hx : x ∈ l) :
    ∃ items, PopsOnce (next visit halts) [.enter x] items ∧
      (∀ i ∈ items, t.contains i.node = true) ∧ items.length ≤ 2 * t.size := by
  obtain ⟨b, hb, hbl⟩ := h.layout.exists_block hx
  obtain ⟨ps, hps, nd, hnode⟩ := hv.exists_layout hb (h.nodup.sublist hbl.sublist)
  obtain ⟨items, hitems, hpre⟩ := Worklist.exists_popsOnce hps nd halts
  have hlive : ∀ i ∈ items, i.node ∈ l := fun i hi => hbl.subset (hnode i (hpre.subset hi))
  exact ⟨items, hitems, fun i hi => (h.live _).1 (hlive i hi),
    h.size_eq ▸ length_le_of_nodup hitems.once hlive⟩

theorem preorder_popsOnce (h : t.Arranged l) : ∃ items,
    PopsOnce (collect t.preorderVisit) [t.root] items ∧ (∀ x ∈ items, t.contains x = true) ∧
      t.preorder = items.filterMap fun x => (t.preorderVisit x).1 := by
  obtain ⟨items, hitems, hpre⟩ :=
    Worklist.exists_popsOnce (work_preorder h.layout) h.nodup fun _ => false
  refine ⟨items, hitems, fun x hx => (h.live x).1 (hpre.subset hx), hitems.run_eq ?_⟩
  exact h.size_eq ▸ hpre.length_le

/-- Whether or not it starts at a live node. -/
theorem subtreePostorder_popsOnce (h : t.Arranged l) (x : NodeId) : ∃ items,
    PopsOnce (collect t.postorderVisit) [.enter x] items ∧
      (∀ i ∈ items, i.node = x ∨ t.contains i.node = true) ∧
      t.subtreePostorder x = items.filterMap fun i => (t.postorderVisit i).1 := by
  by_cases live : t.contains x = true
  · obtain ⟨items, hitems, hlive, hle⟩ :=
      h.exists_popsOnce descends_postorderVisit (fun _ => false) ((h.live x).2 live)
    exact ⟨items, hitems, fun i hi => .inr (hlive i hi), hitems.run_eq hle⟩
  · have hdead : t.children? x = none := by
      rw [children?, getElem?_eq_none_of_not_contains live]
      rfl
    have hback : Layout (work t.postorderVisit) [.leave x] [.leave x] := .leaf rfl
    have hlayout : Layout (work t.postorderVisit) [.enter x] [.enter x, .leave x] :=
      .block (by rw [work, postorderVisit, hdead]; rfl) hback
    have hnodup : [Turn.enter x, Turn.leave x].Nodup := by simp
    obtain ⟨items, hitems, hpre⟩ := Worklist.exists_popsOnce hlayout hnodup fun _ => false
    have hsize : 0 < t.size := h.size_eq ▸ List.length_pos_of_mem h.root_mem
    have hle : items.length ≤ 2 := hpre.length_le
    refine ⟨items, hitems, fun i hi => .inl ?_, hitems.run_eq (by omega)⟩
    have hi' : i = .enter x ∨ i = .leave x := by simpa using hpre.subset hi
    rcases hi' with rfl | rfl <;> rfl

theorem frontmost?_popsOnce (h : t.Arranged l) (inside : Rect → Bool) : ∃ items,
    PopsOnce (search (t.hitVisit inside)) [.enter t.root] items ∧
      (∀ i ∈ items, t.contains i.node = true) ∧
      t.frontmost? inside = items.findSome? fun i => (t.hitVisit inside i).1 := by
  obtain ⟨items, hitems, hlive, hle⟩ := h.exists_popsOnce (descends_hitVisit inside)
    (fun i => (t.hitVisit inside i).1.isSome) h.root_mem
  exact ⟨items, hitems, hlive, hitems.first?_eq hle⟩

/-- Whether or not it starts at a live node. -/
theorem isAncestorOrSelf_passes (h : t.Arranged l) (a x : NodeId) : ∃ ids,
    Passes (t.climbTurn a) x ids ∧ ids.Nodup ∧ (∀ y ∈ ids, y = x ∨ t.contains y = true) ∧
      (t.isAncestorOrSelf a x = true ↔ a ∈ ids) := by
  by_cases live : t.contains x = true
  · have hx := (h.live x).2 live
    obtain ⟨ids, hp, nd, hup⟩ := h.exists_climb a hx
    have hl : ids ⊆ l := fun y hy => h.mem_of_reach hx (hup y hy)
    have hle : ids.length ≤ t.size := h.size_eq ▸ (nd.subperm hl).length_le
    refine ⟨ids, hp, nd, fun y hy => .inr ((h.live y).1 (hl hy)), ?_⟩
    rw [isAncestorOrSelf, List.contains_iff_mem]
    exact mem_climb_iff hp (Nat.le_succ_of_le hle)
  · have hparent := parent?_eq_none_of_not_contains live
    have hp : Passes (t.climbTurn a) x [x] := .stop (by rw [climbTurn, hparent, ite_self])
    refine ⟨[x], hp, List.nodup_singleton _, fun y hy => .inl (List.mem_singleton.1 hy), ?_⟩
    rw [isAncestorOrSelf, List.contains_iff_mem]
    exact mem_climb_iff hp (Nat.succ_le_succ (Nat.zero_le _))

end Arranged

/-- **Every loop ends.** On a reachable tree, and without any bound on the turns that it takes:

    * The walk that validates an update, whatever the update describes, pops at most one id more
      than occur in the tree and the update; where it leaves off decides on an update whose ids are
      in range, and an accepted one leaves the nodes listed in the order of the visits.
    * The walks that list the tree, collect a subtree and search for the frontmost node pop every
      live node at most once on the way in and at most once on the way out, and nothing else but
      the node at which they were started.
    * The climb towards the root, whatever it looks for and wherever it starts, comes to every live
      node at most once.

    In each case the function of the tree answers what the loop has come to. -/
theorem Reachable.loops_end (h : t.Reachable) :
    (∀ u : TreeUpdate, ∃ states last,
      Passes (Validation.next (t.mergedChildren? u)) ⟨[], [u.newRoot t]⟩ states ∧
      states.getLast? = some last ∧
      (Validation.visits states).length ≤ (t.occurring u).length + 1 ∧
      ((∀ id ∈ u.ids, id.InRange) →
        (t.update u).map (·.1.preorder) = last.outcome (t.mergedChildren? u))) ∧
    (∃ items, PopsOnce (collect t.preorderVisit) [t.root] items ∧
      (∀ x ∈ items, t.contains x = true) ∧
      t.preorder = items.filterMap fun x => (t.preorderVisit x).1) ∧
    (∀ x, ∃ items, PopsOnce (collect t.postorderVisit) [.enter x] items ∧
      (∀ i ∈ items, i.node = x ∨ t.contains i.node = true) ∧
      t.subtreePostorder x = items.filterMap fun i => (t.postorderVisit i).1) ∧
    (∀ inside, ∃ items, PopsOnce (search (t.hitVisit inside)) [.enter t.root] items ∧
      (∀ i ∈ items, t.contains i.node = true) ∧
      t.frontmost? inside = items.findSome? fun i => (t.hitVisit inside i).1) ∧
    ∀ a x, ∃ ids, Passes (t.climbTurn a) x ids ∧ ids.Nodup ∧
      (∀ y ∈ ids, y = x ∨ t.contains y = true) ∧ (t.isAncestorOrSelf a x = true ↔ a ∈ ids) := by
  obtain ⟨l, hl⟩ := h.arranged
  exact ⟨hl.exists_validation, hl.preorder_popsOnce, hl.subtreePostorder_popsOnce,
    hl.frontmost?_popsOnce, hl.isAncestorOrSelf_passes⟩

/-- The update hangs the root below one of its descendants; the walk leaves off where it meets the
    root again. -/
theorem loops_end_cycle :
    let t := ((ofRoot {}).step (.insert ⟨0⟩ ⟨1⟩ {})).step (.insert ⟨1⟩ ⟨2⟩ {})
    let u : TreeUpdate := { nodes := [(⟨2⟩, { role := "Group", children := [⟨0⟩] })], focus := ⟨0⟩ }
    t.Reachable ∧ (t.occurring u).length = 3 ∧ ∃ states last,
      Passes (Validation.next (t.mergedChildren? u)) ⟨[], [⟨0⟩]⟩ states ∧
      states.getLast? = some last ∧ (Validation.visits states).length ≤ 4 ∧
      last.outcome (t.mergedChildren? u) = .error (.cycle ⟨0⟩) := by
  intro t u
  have ht : t.Reachable := ((Reachable.ofRoot {}).step _).step _
  have hoccur : (t.occurring u).length = 3 := by decide +kernel
  have hroot : u.newRoot t = ⟨0⟩ := by decide +kernel
  have herr : (t.update u).map (·.1.preorder) = .error (.cycle ⟨0⟩) := by decide +kernel
  obtain ⟨hvalid, -⟩ := Reachable.loops_end ht
  obtain ⟨states, last, hp, hlast, hle, hout⟩ := hvalid u
  rw [hroot] at hp
  rw [hoccur] at hle
  exact ⟨ht, hoccur, states, last, hp, hlast, hle, (hout (by decide)).symm.trans herr⟩

end Tree

end AccessBridge
