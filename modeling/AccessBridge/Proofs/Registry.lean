import AccessBridge.Proofs.SlotTable.Resolution
import AccessBridge.Registry

/-!
# Histories of a registry

A registry is changed by three kinds of calls: an adapter is created, one is destroyed, or an
operation runs on one. `History` lists the calls that a registry has gone through, and says what
every handle must stand for after them: the adapter that was created under it, as the operations
through this very handle have left it, until it is destroyed (`adapter?`, `Stands`). As long as
handles do not run out, this is what the registry answers (`History.orderly`).
-/

namespace AccessBridge

/-! ## The latest of its kind -/

section Since

variable {β : Type} {P : β → Prop} {x y : β} {past : List β}

/-- Something happened, and all that happened since satisfies `P`. The latest comes first. -/
def Since (P : β → Prop) (x : β) (past : List β) : Prop :=
  ∃ later earlier, past = later ++ x :: earlier ∧ ∀ y ∈ later, P y

theorem since_head : Since P x (x :: past) := by
  refine ⟨[], past, rfl, ?_⟩
  intro y hy
  cases hy

theorem since_cons (hne : y ≠ x) : Since P x (y :: past) ↔ P y ∧ Since P x past := by
  constructor
  · rintro ⟨later, earlier, heq, hlater⟩
    cases later with
    | nil =>
      have hy := (List.cons.inj heq).1
      exact absurd hy hne
    | cons z later =>
      obtain ⟨rfl, hpast⟩ := List.cons.inj heq
      rw [List.forall_mem_cons] at hlater
      exact ⟨hlater.1, later, earlier, hpast, hlater.2⟩
  · rintro ⟨hy, later, earlier, rfl, hlater⟩
    refine ⟨y :: later, earlier, rfl, ?_⟩
    rw [List.forall_mem_cons]
    exact ⟨hy, hlater⟩

theorem not_since_nil : ¬ Since P x [] := by
  rintro ⟨later, earlier, heq, -⟩
  cases later <;> cases heq

end Since

namespace Registry

/-! ## Calls -/

/-- A call that changes a registry. -/
inductive Change where
  | created (h : Handle)
  /-- Also if there was nobody to destroy. -/
  | destroyed (h : Handle)
  /-- An operation on the adapter behind a handle, and what it makes of the adapter. -/
  | used (h : Handle) (f : Adapter → Adapter)

/-- A registry and the calls that it has gone through, the latest first. -/
inductive History (config : Config) : List Change → Registry → Prop where
  | start : History config [] (.ofConfig config)
  | create {past : List Change} {r r' : Registry} {h : Handle} (before : History config past r)
      (ok : r.create = .ok (h, r')) : History config (.created h :: past) r'
  | destroy {past : List Change} {r : Registry} (before : History config past r) (h : Handle) :
      History config (.destroyed h :: past) (r.destroy h).2
  | use {past : List Change} {r : Registry} {α : Type} (before : History config past r)
      (h : Handle) (fallback : α) (op : Adapter → Reply Adapter α) :
      History config (.used h (fun a => (op a).state) :: past) (r.onAdapter h fallback op).state

/-- The handles that have been handed out, the oldest first. -/
def issued : List Change → List Handle
  | [] => []
  | .created h :: past => issued past ++ [h]
  | .destroyed _ :: past => issued past
  | .used _ _ :: past => issued past

/-- The adapter created under a handle, as the operations through the handle have left it, unless
    it has been destroyed. -/
def adapter? (config : Config) : List Change → Handle → Option Adapter
  | [], _ => none
  | .created k :: past, h =>
    if h = k then some (Registry.ofConfig config).newAdapter else adapter? config past h
  | .destroyed k :: past, h => if h = k then none else adapter? config past h
  | .used k f :: past, h =>
    if h = k then (adapter? config past h).map f else adapter? config past h

/-- A handle has been handed out and has not been destroyed since. -/
def Stands (past : List Change) (h : Handle) : Prop :=
  Since (· ≠ .destroyed h) (.created h) past

/-- The handles that have adapters, the oldest first. -/
def live (config : Config) (past : List Change) : List Handle :=
  (issued past).filter fun h => (adapter? config past h).isSome

variable {config : Config} {past : List Change} {c : Change} {r r' : Registry} {h k : Handle}
  {α : Type} {fallback : α} {op : Adapter → Reply Adapter α} {f : Adapter → Adapter}

/-! ## Handles that stand -/

theorem isSome_adapter? : (adapter? config past h).isSome = true ↔ Stands past h := by
  induction past with
  | nil =>
    constructor
    · intro hsome
      cases hsome
    · intro hs
      exact absurd hs not_since_nil
  | cons c past ih =>
    cases c with
    | created k =>
      by_cases heq : h = k
      · rw [adapter?, if_pos heq, heq]
        exact ⟨fun _ => since_head, fun _ => rfl⟩
      · have hne : Change.created k ≠ .created h := by simp [Ne.symm heq]
        rw [adapter?, if_neg heq, Stands, since_cons hne, ih, Stands]
        simp
    | destroyed k =>
      rw [Stands, since_cons (by simp), adapter?]
      by_cases heq : h = k
      · simp [heq]
      · simp [heq, Ne.symm heq, ih, Stands]
    | used k f =>
      rw [Stands, since_cons (by simp), adapter?]
      split <;> simp [ih, Stands]

theorem isSome_adapter?_used :
    (adapter? config (.used k f :: past) h).isSome = (adapter? config past h).isSome := by
  rw [adapter?]
  split <;> simp

/-- Handles that stand have been handed out. -/
theorem mem_issued (hs : (adapter? config past h).isSome = true) : h ∈ issued past := by
  induction past with
  | nil => cases hs
  | cons c past ih =>
    cases c with
    | created k =>
      rw [issued, List.mem_append, List.mem_singleton]
      by_cases heq : h = k
      · right
        exact heq
      · rw [adapter?, if_neg heq] at hs
        left
        exact ih hs
    | destroyed k =>
      rw [adapter?] at hs
      split at hs
      · cases hs
      · exact ih hs
    | used k f =>
      rw [isSome_adapter?_used] at hs
      exact ih hs

theorem mem_live : h ∈ live config past ↔ Stands past h := by
  rw [live, List.mem_filter, isSome_adapter?]
  constructor
  · intro hmem
    exact hmem.2
  · intro hs
    have hsome : (adapter? config past h).isSome = true := isSome_adapter?.2 hs
    exact ⟨mem_issued hsome, hs⟩

/-! ## Handles that have adapters -/

theorem live_created (hnew : h ∉ issued past) :
    live config (.created h :: past) = live config past ++ [h] := by
  have hold : ∀ k ∈ issued past,
      (adapter? config (.created h :: past) k).isSome = (adapter? config past k).isSome := by
    intro k hk
    have hne : k ≠ h := by
      intro heq
      apply hnew
      rw [← heq]
      exact hk
    rw [adapter?, if_neg hne]
  have hself : (adapter? config (.created h :: past) h).isSome = true :=
    isSome_adapter?.2 since_head
  rw [live, live, issued, List.filter_append, List.filter_congr hold]
  simp [hself]

theorem live_destroyed (distinct : (issued past).Nodup) :
    live config (.destroyed h :: past) = (live config past).erase h := by
  have hnodup : (live config past).Nodup := distinct.filter _
  rw [hnodup.erase_eq_filter, live, live, issued, List.filter_filter]
  apply List.filter_congr
  intro k _
  rw [adapter?]
  by_cases heq : k = h
  · simp [heq]
  · simp [heq]

theorem live_used : live config (.used h f :: past) = live config past := by
  rw [live, live, issued]
  apply List.filter_congr
  intro k _
  exact isSome_adapter?_used

/-! ## What the calls do -/

theorem create_eq_ok (ok : r.create = .ok (h, r')) : r.size < r.capacity ∧
    h = (r.adapters.insert r.newAdapter).1 ∧
    r' = { r with adapters := (r.adapters.insert r.newAdapter).2 } := by
  unfold create at ok
  split at ok
  · cases ok
  · rename_i hfull
    obtain ⟨rfl, rfl⟩ := Prod.mk.inj (Except.ok.inj ok)
    exact ⟨Nat.lt_of_not_le hfull, rfl, rfl⟩

theorem create_eq_error {e : RegistryFull} :
    r.create = .error e ↔ r.capacity ≤ r.size ∧ e = ⟨r.capacity⟩ := by
  unfold create
  split
  · rename_i hfull
    simp [hfull, eq_comm]
  · rename_i hfull
    simp [hfull]

/-- An operation changes nothing but the adapter behind the handle. -/
theorem state_onAdapter : (r.onAdapter h fallback op).state =
    { r with adapters := r.adapters.modify h fun a => (op a).state } := by
  unfold onAdapter
  cases hg : r.get? h with
  | none =>
    rw [SlotTable.modify_of_get?_eq_none hg]
  | some a =>
    have hg : r.adapters.get? h = some a := hg
    simp only [SlotTable.modify, hg]

/-! ## What handles resolve to after a call -/

theorem get?_create {handles : List Handle} (hg : r.adapters.Growing handles)
    (few : handles.length < 2 ^ 31) (ok : r.create = .ok (h, r')) :
    r'.get? k = if k = h then some r.newAdapter else r.get? k := by
  obtain ⟨-, rfl, rfl⟩ := create_eq_ok ok
  exact hg.get?_insert few

/-- Nobody lives in the slot of a new adapter. -/
theorem not_contains_of_create {handles : List Handle} (hg : r.adapters.Growing handles)
    (few : handles.length < 2 ^ 31) (ok : r.create = .ok (h, r')) (hi : k.index = h.index) :
    ¬ r.contains k = true := by
  obtain ⟨-, rfl, -⟩ := create_eq_ok ok
  rw [contains, SlotTable.contains, hg.get?_eq_none_of_index few hi]
  exact Bool.false_ne_true

theorem get?_destroy : (r.destroy h).2.get? k = if k = h then none else r.get? k :=
  SlotTable.get?_erase

theorem get?_onAdapter : (r.onAdapter h fallback op).state.get? k =
    if k = h then (r.get? h).map fun a => (op a).state else r.get? k := by
  rw [state_onAdapter]
  exact SlotTable.get?_modify

theorem isSome_get? : (r.get? h).isSome = r.contains h := rfl

theorem get?_eq_none (gone : r.contains h = false) : r.get? h = none := by
  apply Option.not_isSome_iff_eq_none.1
  rw [isSome_get?, gone]
  exact Bool.false_ne_true

theorem destroy_eq_self (gone : r.contains h = false) : r.destroy h = (false, r) := by
  have hsame : r.adapters.erase h = r.adapters := if_neg (Bool.eq_false_iff.1 gone)
  rw [destroy, hsame, gone]

theorem contains_create {handles : List Handle} (hg : r.adapters.Growing handles)
    (few : handles.length < 2 ^ 31) (ok : r.create = .ok (h, r')) :
    r'.contains k = true ↔ k = h ∨ r.contains k = true := by
  rw [← isSome_get?, ← isSome_get?, get?_create hg few ok]
  by_cases heq : k = h <;> simp [heq]

theorem contains_destroy : (r.destroy h).2.contains k = true ↔ k ≠ h ∧ r.contains k = true := by
  rw [← isSome_get?, ← isSome_get?, get?_destroy]
  by_cases heq : k = h <;> simp [heq]

theorem contains_onAdapter : (r.onAdapter h fallback op).state.contains k = r.contains k := by
  rw [← isSome_get?, ← isSome_get?, get?_onAdapter]
  by_cases heq : k = h <;> simp [heq]

theorem contains_of_create (ok : r.create = .ok (h, r')) (hc : r'.contains k = true)
    (hne : k ≠ h) : r.contains k = true := by
  obtain ⟨-, rfl, rfl⟩ := create_eq_ok ok
  exact SlotTable.contains_of_contains_insert hc hne

/-- A word resolves just when it is the word of a handle that resolves, up to the lowest bit of the
    version. -/
theorem contains_ofRaw (raw : UInt64) : r.contains (.ofRaw raw) = true ↔
    ∃ h, r.contains h = true ∧ h.toRaw = raw ||| (1 : UInt64) <<< 32 := by
  constructor
  · intro hc
    exact ⟨_, hc, Handle.toRaw_ofRaw raw⟩
  · rintro ⟨h, hc, hraw⟩
    have heq : h = .ofRaw raw := by
      apply Handle.toRaw_inj.1
      rw [hraw, Handle.toRaw_ofRaw]
    rw [← heq]
    exact hc

/-! ## What resolves at all -/

/-- Also when handles have run out, nothing resolves but handles that stand. -/
theorem History.stands_of_contains (history : History config past r) (hc : r.contains h = true) :
    Stands past h := by
  induction history with
  | start => exact absurd hc SlotTable.not_contains_empty
  | @create _ _ _ k _ ok ih =>
    by_cases heq : h = k
    · rw [heq]
      exact since_head
    · have hne : Change.created k ≠ .created h := by simp [Ne.symm heq]
      rw [Stands, since_cons hne]
      have hbefore := ih (contains_of_create ok hc heq)
      exact ⟨by simp, hbefore⟩
  | destroy _ k ih =>
    obtain ⟨hne, hc⟩ := contains_destroy.1 hc
    rw [Stands, since_cons (by simp)]
    have hother : Change.destroyed k ≠ .destroyed h := by simp [Ne.symm hne]
    exact ⟨hother, ih hc⟩
  | use _ k _ _ ih =>
    rw [contains_onAdapter] at hc
    rw [Stands, since_cons (by simp)]
    exact ⟨by simp, ih hc⟩

/-- A registry answers for every handle what its calls have made of it. -/
structure Orderly (config : Config) (past : List Change) (r : Registry) : Prop where
  settings : r = { Registry.ofConfig config with adapters := r.adapters }
  growing : r.adapters.Growing (issued past)
  alternating : r.adapters.Alternating (issued past)
  get?_eq : ∀ h, r.get? h = adapter? config past h
  length_live : (live config past).length = r.size
  size_le : r.size ≤ config.maxAdapters

theorem orderly_start : Orderly config [] (.ofConfig config) where
  settings := rfl
  growing := SlotTable.growing_empty
  alternating := SlotTable.alternating_empty
  get?_eq h := by
    have hnone : ¬ ({} : SlotTable Adapter).contains h = true := SlotTable.not_contains_empty
    rw [SlotTable.contains, Option.not_isSome_iff_eq_none] at hnone
    exact hnone
  length_live := rfl
  size_le := Nat.zero_le _

namespace Orderly

variable (ho : Orderly config past r)

include ho

theorem capacity_eq : r.capacity = config.maxAdapters := by
  rw [ho.settings]
  rfl

theorem contains_iff : r.contains h = true ↔ Stands past h := by
  have hs : (adapter? config past h).isSome = true ↔ Stands past h := isSome_adapter?
  rw [← hs, ← ho.get?_eq, isSome_get?]

theorem create (few : (issued past).length < 2 ^ 31) (ok : r.create = .ok (h, r')) :
    Orderly config (.created h :: past) r' := by
  have hget : ∀ k, r'.get? k = if k = h then some r.newAdapter else r.get? k := by
    intro k
    exact get?_create ho.growing few ok
  obtain ⟨hroom, rfl, rfl⟩ := create_eq_ok ok
  have hnew := ho.growing.insert_notMem (a := r.newAdapter) few
  have hfirst : r.newAdapter = (Registry.ofConfig config).newAdapter := by
    rw [ho.settings]
    rfl
  have hsize : (r.adapters.insert r.newAdapter).2.size = r.size + 1 :=
    SlotTable.size_insert ho.growing
  constructor
  · rw [ho.settings]
  · exact ho.growing.insert few
  · exact ho.alternating.insert ho.growing few
  · intro k
    rw [hget, adapter?, hfirst, ho.get?_eq]
  · rw [live_created hnew, List.length_append, ho.length_live]
    exact hsize.symm
  · have hcapacity := ho.capacity_eq
    have hsize : Registry.size { r with adapters := (r.adapters.insert r.newAdapter).2 } =
        r.size + 1 := hsize
    omega

theorem destroy (few : (issued past).length < 2 ^ 31) (h : Handle) :
    Orderly config (.destroyed h :: past) (r.destroy h).2 := by
  have hlive : h ∈ live config past ↔ r.contains h = true := by
    rw [mem_live, ho.contains_iff]
  have hlength := ho.length_live
  have hle := ho.size_le
  have hsize : (live config (.destroyed h :: past)).length = (r.destroy h).2.size ∧
      (r.destroy h).2.size ≤ r.size := by
    rw [live_destroyed ho.growing.nodup]
    by_cases hc : r.contains h = true
    · have herase : (r.destroy h).2.size + 1 = r.size := SlotTable.size_erase hc
      rw [List.length_erase_of_mem (hlive.2 hc)]
      omega
    · rw [List.erase_of_not_mem (mt hlive.1 hc), destroy_eq_self (Bool.eq_false_iff.2 hc)]
      exact ⟨hlength, Nat.le_refl _⟩
  constructor
  · rw [Registry.destroy, ho.settings]
  · exact ho.growing.erase few
  · exact ho.alternating.erase
  · intro k
    rw [get?_destroy, adapter?, ho.get?_eq]
  · exact hsize.1
  · omega

theorem use : Orderly config (.used h (fun a => (op a).state) :: past)
    (r.onAdapter h fallback op).state := by
  have hget : ∀ k, (r.onAdapter h fallback op).state.get? k =
      adapter? config (.used h (fun a => (op a).state) :: past) k := by
    intro k
    rw [get?_onAdapter, adapter?, ho.get?_eq, ho.get?_eq]
    split
    · rename_i heq
      rw [heq]
    · rfl
  rw [state_onAdapter] at hget ⊢
  have hsize : (r.adapters.modify h fun a => (op a).state).size = r.size := SlotTable.size_modify
  constructor
  · rw [ho.settings]
  · exact ho.growing.modify
  · exact ho.alternating.modify
  · exact hget
  · rw [live_used, ho.length_live]
    exact hsize.symm
  · exact Nat.le_trans (Nat.le_of_eq hsize) ho.size_le

/-- An adapter is refused just when as many as allowed are alive. -/
theorem create_eq_error_iff {e : RegistryFull} : r.create = .error e ↔
    r.size = config.maxAdapters ∧ e = ⟨config.maxAdapters⟩ := by
  have hle := ho.size_le
  rw [create_eq_error, ho.capacity_eq]
  constructor
  · rintro ⟨hfull, rfl⟩
    exact ⟨Nat.le_antisymm hle hfull, rfl⟩
  · rintro ⟨hfull, rfl⟩
    exact ⟨Nat.le_of_eq hfull.symm, rfl⟩

end Orderly

/-- What a handle resolves to is what its history says, as long as handles have not run out. -/
theorem History.orderly (history : History config past r) (few : (issued past).length < 2 ^ 31) :
    Orderly config past r := by
  induction history with
  | start => exact orderly_start
  | create before ok ih =>
    rw [issued, List.length_append] at few
    have few := Nat.lt_of_add_right_lt few
    exact (ih few).create few ok
  | destroy before h ih => exact (ih few).destroy few h
  | use before h fallback op ih => exact (ih few).use

end Registry

end AccessBridge
