import AccessBridge.Proofs.Tree.Invariant
import Mathlib.Data.List.Lex

/-!
# Which updates are accepted

The unfolding of a child graph from a root is an ordered tree, infinite where the graph has a
cycle. Its nodes are addressed by positions: lists that say, from the top down, which child to
take. On positions the lexicographic order is depth-first pre-order. The unfolding has a fault at
a position whose id is unknown or is met at an earlier position as well. An update is accepted
when its ids are in range and the unfolding of the merged graph has no fault, and refused for the
first fault otherwise (`update_outcome`).

The walk that consumes the graph is followed by the front of its stack: the positions that are
neither at nor below the front have been passed, each of them is before the front, and none of
them is a fault.
-/

namespace AccessBridge

open Std (ExtTreeMap)

variable {α : Type} {g : α → Option (List α)} {a x y : α} {p q r : List Nat}

/-! ## Positions -/

/-- The id at a position of the unfolding from `a`. -/
def idAt (g : α → Option (List α)) (a : α) : List Nat → Option α
  | [] => some a
  | i :: p => (g a).bind fun cs => cs[i]?.bind fun c => idAt g c p

/-- The unfolding from `root` meets `x` at position `p` and cannot place it there: the graph does
    not know `x`, or `x` is met at an earlier position. -/
def FaultAt (g : α → Option (List α)) (root : α) (p : List Nat) (x : α) : Prop :=
  idAt g root p = some x ∧ (g x = none ∨ ∃ q < p, idAt g root q = some x)

/-- The fault at `p` is the first one in pre-order. -/
def FirstFault (g : α → Option (List α)) (root : α) (p : List Nat) (x : α) : Prop :=
  FaultAt g root p x ∧ ∀ q < p, ∀ y, ¬ FaultAt g root q y

/-- The unfolding from `root` meets only ids that the graph knows, and none of them twice. -/
structure IsTree (g : α → Option (List α)) (root : α) : Prop where
  known : ∀ p x, idAt g root p = some x → g x ≠ none
  once : ∀ p q x, idAt g root p = some x → idAt g root q = some x → p = q

theorem idAt_append : idAt g a (p ++ q) = (idAt g a p).bind fun x => idAt g x q := by
  induction p generalizing a with
  | nil => rfl
  | cons i p ih =>
    cases hcs : g a with
    | none => simp [idAt, hcs]
    | some cs => cases hc : cs[i]? <;> simp [idAt, hcs, hc, ih]

theorem isTree_iff : IsTree g a ↔ ∀ p x, ¬ FaultAt g a p x := by
  constructor
  · rintro h p x ⟨hp, hn | ⟨q, hqp, hq⟩⟩
    · exact h.known p x hp hn
    · exact hqp.ne (h.once q p x hq hp)
  · intro h
    refine ⟨fun p x hp hn => h p x ⟨hp, .inl hn⟩, fun p q x hp hq => ?_⟩
    rcases lt_trichotomy p q with hlt | rfl | hlt
    · exact absurd ⟨hq, .inr ⟨p, hlt, hp⟩⟩ (h q x)
    · rfl
    · exact absurd ⟨hp, .inr ⟨q, hlt, hq⟩⟩ (h p x)

theorem FirstFault.unique (h : FirstFault g a p x) (h' : FirstFault g a q y) : p = q ∧ x = y := by
  obtain rfl : p = q := by
    rcases lt_trichotomy p q with hlt | rfl | hlt
    · exact absurd h.1 (h'.2 p hlt x)
    · rfl
    · exact absurd h'.1 (h.2 q hlt y)
  exact ⟨rfl, Option.some.inj (h.1.1.symm.trans h'.1.1)⟩

/-! ## The front of the walk -/

/-- The position `q` of the unfolding is neither at nor below a position of the front `ps`. -/
def Passed (g : α → Option (List α)) (root : α) (ps : List (List Nat)) (q : List Nat) (x : α) :
    Prop :=
  idAt g root q = some x ∧ ∀ p ∈ ps, ¬ p <+: q

/-- The walk has passed all that is before its front, without a fault, and has consumed the graph
    at the ids that it has met. -/
structure Front (g : α → Option (List α)) (root : α) (rest : α → Option (List α))
    (ps : List (List Nat)) : Prop where
  sorted : ps.Pairwise fun p q => ∀ r, p ++ r < q
  before : ∀ q x, Passed g root ps q x → ∀ p ∈ ps, q < p
  rest_iff : ∀ x cs, rest x = some cs ↔ g x = some cs ∧ ∀ q, ¬ Passed g root ps q x
  clean : ∀ q x, Passed g root ps q x → ¬ FaultAt g root q x

theorem not_append_lt (p r : List Nat) : ¬ p ++ r < p := by
  induction p with
  | nil => exact List.not_lt_nil r
  | cons i p ih =>
    rw [List.cons_append, List.cons_lt_cons_iff]
    simpa using ih

theorem Front.start (root : α) : Front g root g [[]] where
  sorted := List.pairwise_singleton _ _
  before _ _ h := absurd (List.nil_prefix) (h.2 [] List.mem_cons_self)
  rest_iff x cs := by
    refine (and_iff_left fun q h => ?_).symm
    exact h.2 [] List.mem_cons_self List.nil_prefix
  clean _ _ h := absurd (List.nil_prefix) (h.2 [] List.mem_cons_self)

section Step

variable {root : α} {rest : α → Option (List α)} {ps : List (List Nat)}

/-- What is before the top of the stack has been passed. -/
theorem Front.passed_of_lt (h : Front g root rest (p :: ps)) (hq : q < p)
    (hx : idAt g root q = some x) : Passed g root (p :: ps) q x := by
  refine ⟨hx, fun p' hp' hpre => ?_⟩
  obtain ⟨r, rfl⟩ := hpre
  rcases List.mem_cons.1 hp' with rfl | hp'
  · exact not_append_lt p' r hq
  · have hlt : p < p' := by simpa using (List.pairwise_cons.1 h.sorted).1 p' hp' []
    exact not_append_lt p' r (hq.trans hlt)

/-- An id that the graph no longer has is the first fault. -/
theorem Front.firstFault (h : Front g root rest (p :: ps)) (hx : idAt g root p = some x)
    (hrest : rest x = none) : FirstFault g root p x := by
  refine ⟨⟨hx, ?_⟩, fun q hq y hy => h.clean q y (h.passed_of_lt hq hy.1) hy⟩
  by_contra hno
  obtain ⟨hknown, hnew⟩ := not_or.1 hno
  obtain ⟨cs, hcs⟩ := Option.ne_none_iff_exists'.1 hknown
  have := (h.rest_iff x cs).2 ⟨hcs, fun q hq =>
    hnew ⟨q, h.before q x hq p List.mem_cons_self, hq.1⟩⟩
  exact Option.some_ne_none cs (this.symm.trans hrest)

/-- The positions of the children of the id at `p`. -/
def childPositions (p : List Nat) (cs : List α) : List (List Nat) :=
  (List.range cs.length).map fun i => p ++ [i]

/-- Going on to the children of the top passes the top and nothing else. -/
theorem passed_children_iff {cs : List α} (hs : (p :: ps).Pairwise fun p q => ∀ r, p ++ r < q)
    (hx : idAt g root p = some x) (hcs : g x = some cs) :
    Passed g root (childPositions p cs ++ ps) q y ↔
      Passed g root (p :: ps) q y ∨ (q = p ∧ x = y) := by
  have hchild : ∀ {p'}, p' ∈ childPositions p cs ↔ ∃ i < cs.length, p ++ [i] = p' := by
    simp [childPositions]
  constructor
  · rintro ⟨hy, hn⟩
    by_cases hp : p <+: q
    · obtain ⟨r, rfl⟩ := hp
      rw [idAt_append, hx, Option.bind_some] at hy
      cases r with
      | nil => exact .inr ⟨List.append_nil p, Option.some.inj hy⟩
      | cons i r =>
        rw [idAt, hcs, Option.bind_some] at hy
        obtain ⟨c, hc, -⟩ := Option.bind_eq_some_iff.1 hy
        obtain ⟨hi, -⟩ := List.getElem?_eq_some_iff.1 hc
        refine absurd ?_ (hn (p ++ [i]) (List.mem_append_left _ (hchild.2 ⟨i, hi, rfl⟩)))
        exact ⟨r, by rw [List.append_assoc, List.singleton_append]⟩
    · refine .inl ⟨hy, fun p' hp' => ?_⟩
      rcases List.mem_cons.1 hp' with rfl | hp'
      · exact hp
      · exact hn p' (List.mem_append_right _ hp')
  · rintro (⟨hy, hn⟩ | ⟨rfl, rfl⟩)
    · refine ⟨hy, fun p' hp' hpre => ?_⟩
      rcases List.mem_append.1 hp' with hp' | hp'
      · obtain ⟨i, -, rfl⟩ := hchild.1 hp'
        exact hn p List.mem_cons_self ((List.prefix_append p [i]).trans hpre)
      · exact hn p' (List.mem_cons_of_mem _ hp') hpre
    · refine ⟨hx, fun p' hp' hpre => ?_⟩
      rcases List.mem_append.1 hp' with hc | hc
      · obtain ⟨i, -, rfl⟩ := hchild.1 hc
        exact not_append_lt q [i] (absurd hpre.length_le (by simp))
      · have hlt := (List.pairwise_cons.1 hs).1 p' hc []
        obtain ⟨r, rfl⟩ := hpre
        exact not_append_lt p' r (by simpa using hlt)

theorem lt_append_cons (p : List Nat) (i : Nat) (r : List Nat) : p < p ++ i :: r := by
  have h : p ++ [] < p ++ i :: r := List.append_left_lt (List.nil_lt_cons i r)
  rwa [List.append_nil] at h

/-- The walk places the top and goes on to its children. -/
theorem Front.next {cs : List α} [DecidableEq α] (h : Front g root rest (p :: ps))
    (hx : idAt g root p = some x) (hrest : rest x = some cs) :
    Front g root (fun y => if y = x then none else rest y) (childPositions p cs ++ ps) := by
  obtain ⟨hcs, hnew⟩ := (h.rest_iff x cs).1 hrest
  obtain ⟨htop, hsorted⟩ := List.pairwise_cons.1 h.sorted
  have hpassed : ∀ q y, Passed g root (childPositions p cs ++ ps) q y ↔
      Passed g root (p :: ps) q y ∨ (q = p ∧ x = y) := fun q y =>
    passed_children_iff h.sorted hx hcs
  have hchild : ∀ {p'}, p' ∈ childPositions p cs ↔ ∃ i < cs.length, p ++ [i] = p' := by
    simp [childPositions]
  constructor
  · refine List.pairwise_append.2 ⟨?_, hsorted, fun p' hp' q hq r => ?_⟩
    · refine List.pairwise_map.2 (List.pairwise_lt_range.imp fun hij r => ?_)
      rw [List.append_assoc]
      exact List.append_left_lt (List.Lex.rel hij)
    · obtain ⟨i, -, rfl⟩ := hchild.1 hp'
      rw [List.append_assoc]
      exact htop q hq _
  · intro q y hq p' hp'
    rcases (hpassed q y).1 hq with hq | ⟨rfl, -⟩
    · rcases List.mem_append.1 hp' with hc | hc
      · obtain ⟨i, -, rfl⟩ := hchild.1 hc
        exact (h.before q y hq p List.mem_cons_self).trans (lt_append_cons p i [])
      · exact h.before q y hq p' (List.mem_cons_of_mem _ hc)
    · rcases List.mem_append.1 hp' with hc | hc
      · obtain ⟨i, -, rfl⟩ := hchild.1 hc
        exact lt_append_cons q i []
      · simpa using htop p' hc []
  · intro y es
    by_cases hy : y = x
    · subst hy
      rw [if_pos rfl]
      exact iff_of_false nofun fun hno => hno.2 p ((hpassed p y).2 (.inr ⟨rfl, rfl⟩))
    · rw [if_neg hy, h.rest_iff]
      simp only [hpassed, not_or, Ne.symm hy, and_false, not_false_eq_true, and_true]
  · intro q y hq
    rcases (hpassed q y).1 hq with hq | ⟨rfl, rfl⟩
    · exact h.clean q y hq
    · rintro ⟨-, hnone | ⟨q', hq', hx'⟩⟩
      · exact Option.some_ne_none cs (hcs.symm.trans hnone)
      · exact hnew q' (h.passed_of_lt hq' hx')

end Step

/-! ## The walk that consumes the graph -/

namespace ChildGraph

variable {graph rest : ChildGraph} {root : NodeId} {ps : List (List Nat)}
  {stack : List (Option NodeId × NodeId)}

/-- The positions of the children have the children's ids. -/
theorem forall₂_childPositions {id : NodeId} {cs : List NodeId} {p : List Nat}
    (hid : idAt (fun x => graph[x]?) root p = some id) (hcs : graph[id]? = some cs) :
    List.Forall₂ (fun p e => idAt (fun x => graph[x]?) root p = some e.2) (childPositions p cs)
      (cs.map (some id, ·)) := by
  refine List.forall₂_iff_get.2 ⟨by simp [childPositions], fun i h₁ h₂ => ?_⟩
  have hi : i < cs.length := by simpa using h₂
  simp [childPositions, idAt_append, hid, idAt, hcs, hi]

/-- The walk ends without a fault exactly where the unfolding is a tree, and otherwise with the
    first fault. -/
theorem unfold_front (hf : Front (fun x => graph[x]?) root (fun x => rest[x]?) ps)
    (hst : List.Forall₂ (fun p e => idAt (fun x => graph[x]?) root p = some e.2) ps stack) :
    match graph.unfold rest stack with
    | .ok _ => IsTree (fun x => graph[x]?) root
    | .error e => ∃ p x, FirstFault (fun x => graph[x]?) root p x ∧
      e = if graph.contains x then .cycle x else .unknownNode x := by
  induction rest, stack using unfold_induction generalizing ps with
  | nil rest =>
    cases hst
    rw [unfold]
    exact isTree_iff.2 fun p x hfault => hf.clean p x ⟨hfault.1, by simp⟩ hfault
  | unplaced rest parent id stack unknown =>
    cases hst with
    | cons hid hst =>
      rw [unfold_unplaced unknown]
      exact ⟨_, id, hf.firstFault hid unknown, rfl⟩
  | placed rest parent id stack cs known ih =>
    cases hst with
    | cons hid hst =>
      have hnext := hf.next hid known
      have herase : (fun y => if y = id then none else rest[y]?) = fun y => (rest.erase id)[y]? :=
        funext fun y => by
          simp [ExtTreeMap.getElem?_erase, eq_comm (a := y)]
      rw [herase] at hnext
      have hcs := ((hf.rest_iff id cs).1 known).1
      have hrun := ih hnext (List.rel_append (forall₂_childPositions hid hcs) hst)
      rw [unfold_placed known]
      cases hw : graph.unfold (rest.erase id) (cs.map (some id, ·) ++ stack) with
      | ok placements => rwa [hw] at hrun
      | error e => rwa [hw] at hrun

/-- An unfolding succeeds on trees, and else reports the first fault. -/
theorem unfoldFrom_outcome (graph : ChildGraph) (root : NodeId) :
    (IsTree (fun x => graph[x]?) root ∧ ∃ placements, graph.unfoldFrom root = .ok placements) ∨
      ∃ p x, FirstFault (fun x => graph[x]?) root p x ∧
        graph.unfoldFrom root = .error (if graph.contains x then .cycle x else .unknownNode x) := by
  have hstack : List.Forall₂ (fun p e => idAt (fun x => graph[x]?) root p = some e.2) [[]]
      [((none : Option NodeId), root)] := .cons rfl .nil
  have hrun := unfold_front (Front.start root) hstack
  unfold unfoldFrom
  cases hw : graph.unfold graph [(none, root)] with
  | ok placements =>
    rw [hw] at hrun
    exact .inl ⟨hrun, placements, rfl⟩
  | error e =>
    rw [hw] at hrun
    obtain ⟨p, x, hfirst, rfl⟩ := hrun
    exact .inr ⟨p, x, hfirst, rfl⟩

end ChildGraph

/-- The error that reports the first fault `x`, at position `p`: an id that the graph does not
    know, or one that has been met already. -/
def Reports (g : NodeId → Option (List NodeId)) (root : NodeId) (p : List Nat) (x : NodeId)
    (e : TreeError) : Prop :=
  (g x = none ∧ e = .unknownNode x) ∨ ((∃ q < p, idAt g root q = some x) ∧ e = .cycle x)

theorem Reports.unique {g : NodeId → Option (List NodeId)} {root x : NodeId} {e e' : TreeError}
    (hf : FirstFault g root p x) (h : Reports g root p x e) (h' : Reports g root p x e') :
    e = e' := by
  have hclash : ¬ (g x = none ∧ ∃ q < p, idAt g root q = some x) := fun ⟨hn, q, hq, hx⟩ =>
    hf.2 q hq x ⟨hx, .inl hn⟩
  rcases h with ⟨hn, rfl⟩ | ⟨hm, rfl⟩ <;> rcases h' with ⟨hn', rfl⟩ | ⟨hm', rfl⟩
  · rfl
  · exact absurd ⟨hn, hm'⟩ hclash
  · exact absurd ⟨hn', hm⟩ hclash
  · rfl

namespace Tree

variable {t : Tree} {u : TreeUpdate}

/-- How an update ends whose ids are all in range. -/
theorem update_of_inRange (hr : ∀ id ∈ u.ids, id.InRange) :
    (IsTree (t.mergedChildren? u) (u.newRoot t) ∧ ∃ r, t.update u = .ok r) ∨
      ∃ p x e, FirstFault (t.mergedChildren? u) (u.newRoot t) p x ∧
        Reports (t.mergedChildren? u) (u.newRoot t) p x e ∧ t.update u = .error e := by
  have hrun := ChildGraph.unfoldFrom_outcome (u.mergedGraph t) (u.newRoot t)
  rw [TreeUpdate.mergedGraph_eq] at hrun
  rw [update_eq_map hr]
  rcases hrun with ⟨htree, placements, hok⟩ | ⟨p, x, hfirst, herr⟩
  · rw [hok]
    exact .inl ⟨htree, _, rfl⟩
  · rw [herr]
    refine .inr ⟨p, x, _, hfirst, ?_, rfl⟩
    have hx : (u.mergedGraph t).contains x = (t.mergedChildren? u x).isSome := by
      rw [← ExtTreeMap.isSome_getElem?_eq_contains, TreeUpdate.getElem?_mergedGraph]
    rcases hfirst.1.2 with hnone | hmet
    · exact .inl ⟨hnone, by simp [hx, hnone]⟩
    · obtain ⟨q, hq, hqx⟩ := hmet
      have hknown : t.mergedChildren? u x ≠ none := fun hnone =>
        hfirst.2 q hq x ⟨hqx, .inl hnone⟩
      exact .inr ⟨⟨q, hq, hqx⟩, by simp [hx, Option.isSome_iff_ne_none.2 hknown]⟩

theorem exists_first_out_of_range (hr : ¬ ∀ id ∈ u.ids, id.InRange) :
    ∃ A id B, u.ids = A ++ id :: B ∧ (∀ x ∈ A, x.InRange) ∧ ¬ id.InRange := by
  obtain ⟨id, hfind⟩ : ∃ id, u.ids.find? (fun id => ¬ id.InRange) = some id := by
    refine Option.isSome_iff_exists.1 (List.find?_isSome.2 ?_)
    simpa using hr
  obtain ⟨hout, A, B, hids, hin⟩ := List.find?_eq_some_iff_append.1 hfind
  exact ⟨A, id, B, hids, fun x hx => by simpa using hin x hx, of_decide_eq_true hout⟩

/-- How an update ends that describes an id out of range. -/
theorem update_of_out_of_range {id : NodeId} {A B : List NodeId} (hids : u.ids = A ++ id :: B)
    (hin : ∀ x ∈ A, x.InRange) (hout : ¬ id.InRange) :
    t.update u = .error (.idOutOfRange id) := by
  have hfind : u.ids.find? (fun id => ¬ id.InRange) = some id :=
    List.find?_eq_some_iff_append.2 ⟨decide_eq_true hout, A, B, hids, by simpa using hin⟩
  rw [update, tryUpdate, hfind]
  rfl

/-- **Which updates are accepted.** An update is accepted exactly if its ids are in range and the
    merged graph unfolds to a tree from the new root. Otherwise the error names the first
    described id that is out of range, or else the first fault in pre-order, and the tree stays
    as it is. -/
theorem update_outcome (t : Tree) (u : TreeUpdate) :
    let g := t.mergedChildren? u
    let root := match u.info with
      | some info => info.root
      | none => t.root
    ((∃ r, t.update u = .ok r) ↔ (∀ id ∈ u.ids, id.InRange) ∧ IsTree g root) ∧
    (∀ e, t.update u = .error e ↔
      (∃ A id B, u.ids = A ++ id :: B ∧ (∀ x ∈ A, x.InRange) ∧ ¬ id.InRange ∧
        e = .idOutOfRange id) ∨
      (∀ id ∈ u.ids, id.InRange) ∧ ∃ p x, FirstFault g root p x ∧ Reports g root p x e) ∧
    (∀ e, t.update u = .error e → t.step (.update u) = t) := by
  intro g root
  rw [show root = u.newRoot t from TreeUpdate.newRoot_eq.symm]
  refine and_assoc.1 ⟨?_, fun e he => step_update_of_error he⟩
  by_cases hr : ∀ id ∈ u.ids, id.InRange
  · have hno : ∀ e, ¬ ∃ A id B, u.ids = A ++ id :: B ∧ (∀ x ∈ A, x.InRange) ∧ ¬ id.InRange ∧
        e = TreeError.idOutOfRange id := by
      rintro e ⟨A, id, B, hids, -, hout, -⟩
      exact hout (hr id (hids ▸ List.mem_append_right A List.mem_cons_self))
    rcases update_of_inRange hr with ⟨htree, r, hok⟩ | ⟨p, x, e, hfirst, hrep, herr⟩
    · refine ⟨iff_of_true ⟨r, hok⟩ ⟨hr, htree⟩, fun e => ?_⟩
      rw [hok, or_iff_right (hno e)]
      refine iff_of_false nofun ?_
      rintro ⟨-, p, x, hfirst, -⟩
      exact isTree_iff.1 htree p x hfirst.1
    · refine ⟨iff_of_false ?_ fun h => isTree_iff.1 h.2 p x hfirst.1, fun e' => ?_⟩
      · rintro ⟨r, hok⟩
        cases herr.symm.trans hok
      · rw [herr, or_iff_right (hno e')]
        constructor
        · intro he
          exact ⟨hr, p, x, hfirst, Except.error.inj he ▸ hrep⟩
        · rintro ⟨-, q, y, hfirst', hrep'⟩
          obtain ⟨rfl, rfl⟩ := hfirst.unique hfirst'
          rw [hrep.unique hfirst hrep']
  · obtain ⟨A, id, B, hids, hin, hout⟩ := exists_first_out_of_range hr
    have herr : t.update u = .error (.idOutOfRange id) := update_of_out_of_range hids hin hout
    refine ⟨iff_of_false ?_ fun h => hr h.1, fun e => ⟨fun he => ?_, ?_⟩⟩
    · rintro ⟨r, hok⟩
      cases herr.symm.trans hok
    · exact .inl ⟨A, id, B, hids, hin, hout, Except.error.inj (he.symm.trans herr)⟩
    · rintro (⟨A', id', B', hids', hin', hout', rfl⟩ | ⟨hall, -⟩)
      · exact update_of_out_of_range hids' hin' hout'
      · exact absurd hall hr

end Tree

end AccessBridge
