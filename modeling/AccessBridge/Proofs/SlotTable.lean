import AccessBridge.SlotTable
import Mathlib.Algebra.Group.Nat.Defs
import Mathlib.Data.List.Nodup

/-!
# Handles of a slot table

A handle has 32 bits for the index of its slot and 32 for the version, and a table that outgrew
either would hand out a handle once more. `Growing` relates a table to the handles that it has
handed out, and shows that it hands out none of them again before it has taken in `2 ^ 31` values
(`Growing.insert`): until then a new handle has a greater version than the older ones of its slot
(`Growing.version_lt_insert`).
-/

namespace AccessBridge.SlotTable

variable {α : Type} {m : SlotTable α} {a : α} {h k : Handle} {issued : List Handle} {i : Nat}

theorem contains_iff : m.contains h = true ↔
    ∃ s, m.slots[h.index.toNat]? = some s ∧ s.version = h.version ∧ s.content.isSome = true := by
  rw [contains, get?]
  constructor
  · intro hc
    split at hc
    · rename_i s hs
      split at hc
      · rename_i hv
        exact ⟨s, hs, hv, hc⟩
      · cases hc
    · cases hc
  · rintro ⟨s, hs, hv, hc⟩
    rw [hs]
    simpa only [hv, if_true] using hc

/-- The slot that the next insertion fills. -/
def nextSlot (m : SlotTable α) : Nat := m.free.head?.getD m.slots.size

/-- The slots that are to be filled again are empty, and none is there twice. -/
structure Vacant (m : SlotTable α) : Prop where
  nodup : m.free.Nodup
  empty : ∀ i ∈ m.free, ∃ s, m.slots[i]? = some s ∧ s.content = none

theorem vacant_empty : ({} : SlotTable α).Vacant where
  nodup := .nil
  empty i hi := by cases hi

theorem not_contains_empty : ¬ ({} : SlotTable α).contains h = true := by
  rw [contains_iff]
  rintro ⟨s, hs, -, hsome⟩
  obtain ⟨hlt, rfl⟩ := Array.getElem?_eq_some_iff.1 hs
  have hfirst : h.index.toNat = 0 := Nat.lt_one_iff.1 hlt
  simp [hfirst] at hsome

/-! ## Taking in a value -/

theorem nextSlot_cases (m : SlotTable α) :
    (m.nextSlot = m.slots.size ∧ m.free = []) ∨ m.nextSlot ∈ m.free := by
  unfold nextSlot
  cases m.free with
  | nil => exact .inl ⟨rfl, rfl⟩
  | cons i rest => exact .inr List.mem_cons_self

theorem index_insert : (m.insert a).1.index = m.nextSlot.toUInt32 := by
  unfold insert nextSlot
  split
  · rename_i hf
    rw [hf]
    rfl
  · rename_i i rest hf
    rw [hf]
    rfl

theorem version_insert_of_added (hf : m.free = []) : (m.insert a).1.version = 1 := by
  rw [insert, hf]

theorem free_insert : (m.insert a).2.free = m.free.tail := by
  unfold insert
  split <;> rename_i hf <;> rw [hf] <;> rfl

/-- An insertion fills one slot and leaves the others as they are. -/
theorem getElem?_slots_insert (hfree : ∀ i ∈ m.free, i < m.slots.size) (i : Nat) :
    (m.insert a).2.slots[i]? =
      if i = m.nextSlot then some ⟨(m.insert a).1.version, some a⟩ else m.slots[i]? := by
  unfold insert nextSlot
  split
  · rename_i hf
    simp only [hf, List.head?_nil, Option.getD_none, Array.getElem?_push]
  · rename_i j rest hf
    have hj : j < m.slots.size := hfree j (hf ▸ List.mem_cons_self)
    simp only [hf, List.head?_cons, Option.getD_some, Array.getElem?_setIfInBounds, hj, if_true,
      eq_comm (a := i)]

theorem size_slots_insert :
    (m.insert a).2.slots.size = if m.free = [] then m.slots.size + 1 else m.slots.size := by
  unfold insert
  split <;> rename_i hf <;> simp [hf]

/-- What resolves beside a new handle resolved before, however many handles have been handed out. -/
theorem contains_of_contains_insert (hc : (m.insert a).2.contains k = true)
    (hne : k ≠ (m.insert a).1) : m.contains k = true := by
  obtain ⟨s, hs, hv, hsome⟩ := contains_iff.1 hc
  have hold : m.slots[k.index.toNat]? = some s := by
    unfold insert at hs hne
    split at hs <;> rename_i hf <;> simp only [hf] at hs hne
    · rw [Array.getElem?_push] at hs
      split at hs
      · rename_i hi
        obtain rfl := Option.some.inj hs
        have hindex : k.index = m.slots.size.toUInt32 := by
          rw [← hi]
          exact UInt32.ofNat_toNat.symm
        exact absurd (Handle.ext hindex hv.symm) hne
      · exact hs
    · rename_i i rest
      rw [Array.getElem?_setIfInBounds] at hs
      split at hs
      · rename_i hi
        split at hs
        · obtain rfl := Option.some.inj hs
          have hindex : k.index = i.toUInt32 := by
            rw [hi]
            exact UInt32.ofNat_toNat.symm
          exact absurd (Handle.ext hindex hv.symm) hne
        · cases hs
      · exact hs
  exact contains_iff.2 ⟨s, hold, hv, hsome⟩

/-! ## Removing a value -/

theorem erase_eq_self (hc : ¬ m.contains h = true) : m.erase h = m := if_neg hc

theorem free_erase (hc : m.contains h = true) : (m.erase h).free = h.index.toNat :: m.free := by
  rw [erase, if_pos hc]

/-- A removal empties one slot and leaves the others as they are. -/
theorem getElem?_slots_erase (hc : m.contains h = true) (i : Nat) :
    (m.erase h).slots[i]? =
      if h.index.toNat = i then some ⟨h.version + 1, none⟩ else m.slots[i]? := by
  obtain ⟨s, hs, -⟩ := contains_iff.1 hc
  have hlt := (Array.getElem?_eq_some_iff.1 hs).1
  rw [erase, if_pos hc, Array.getElem?_setIfInBounds, if_pos hlt]

theorem size_slots_erase : (m.erase h).slots.size = m.slots.size := by
  unfold erase
  split
  · exact Array.size_setIfInBounds
  · rfl

/-! ## Empty slots -/

namespace Vacant

variable (hv : m.Vacant)

include hv

theorem free_lt : ∀ i ∈ m.free, i < m.slots.size := by
  intro i hi
  obtain ⟨s, hs, -⟩ := hv.empty i hi
  exact (Array.getElem?_eq_some_iff.1 hs).1

/-- The slot that is filled next is empty, if there is one yet. -/
theorem nextSlot_empty {s : Slot α} (hs : m.slots[m.nextSlot]? = some s) : s.content = none := by
  rcases nextSlot_cases m with ⟨hnew, -⟩ | hfree
  · rw [hnew, Array.getElem?_eq_none (Nat.le_refl _)] at hs
    cases hs
  · obtain ⟨s', hs', hempty⟩ := hv.empty _ hfree
    rw [hs] at hs'
    rw [Option.some.inj hs']
    exact hempty

theorem insert : (m.insert a).2.Vacant := by
  constructor
  · rw [free_insert]
    exact hv.nodup.tail
  · intro i hi
    rw [free_insert] at hi
    have hother : i ≠ m.nextSlot := by
      cases hf : m.free with
      | nil =>
        rw [hf] at hi
        cases hi
      | cons j rest =>
        rw [hf] at hi
        rw [nextSlot, hf]
        rintro rfl
        exact (List.nodup_cons.1 (hf ▸ hv.nodup)).1 hi
    rw [getElem?_slots_insert hv.free_lt, if_neg hother]
    exact hv.empty i (List.mem_of_mem_tail hi)

theorem erase : (m.erase h).Vacant := by
  by_cases hc : m.contains h = true
  · constructor
    · rw [free_erase hc]
      refine List.nodup_cons.2 ⟨fun hmem => ?_, hv.nodup⟩
      obtain ⟨s, hs, -, hsome⟩ := contains_iff.1 hc
      obtain ⟨s', hs', hempty⟩ := hv.empty _ hmem
      obtain rfl := Option.some.inj (hs.symm.trans hs')
      rw [hempty] at hsome
      cases hsome
    · intro i hi
      rw [getElem?_slots_erase hc]
      rw [free_erase hc] at hi
      rcases List.mem_cons.1 hi with rfl | hi
      · exact ⟨_, if_pos rfl, rfl⟩
      · split
        · exact ⟨_, rfl, rfl⟩
        · exact hv.empty i hi
  · rwa [erase_eq_self hc]

end Vacant

/-! ## How long handles stay distinct -/

/-- Every handle handed out has a version that its slot has reached. A slot is filled at most as
    often as handles are handed out, so versions do not come round as long as these are few. -/
structure Growing (m : SlotTable α) (issued : List Handle) : Prop where
  nodup : issued.Nodup
  size_le : m.slots.size ≤ issued.length + 1
  vacant : m.Vacant
  version_le : ∀ (i : Nat) s, m.slots[i]? = some s →
    s.version.toNat + (if s.content.isSome then 1 else 0) ≤ 2 * issued.length
  reached : ∀ h ∈ issued, ∃ s, m.slots[h.index.toNat]? = some s ∧ h.version.toNat ≤ s.version.toNat

theorem growing_empty : ({} : SlotTable α).Growing [] where
  nodup := .nil
  size_le := by simp
  vacant := vacant_empty
  version_le i s hs := by
    obtain ⟨hi, rfl⟩ := Array.getElem?_eq_some_iff.1 hs
    obtain rfl : i = 0 := Nat.lt_one_iff.1 hi
    simp
  reached h hh := by cases hh

namespace Growing

variable (hg : m.Growing issued)

include hg

theorem index_insert_toNat (few : issued.length < 2 ^ 31) :
    (m.insert a).1.index.toNat = m.nextSlot := by
  rw [index_insert]
  refine UInt32.toNat_ofNat_of_lt' ?_
  have hsize := hg.size_le
  rcases nextSlot_cases m with ⟨hs, -⟩ | hfree
  · simp only [hs, UInt32.size]
    omega
  · obtain ⟨s, hs, -⟩ := hg.vacant.empty _ hfree
    have hlt := (Array.getElem?_eq_some_iff.1 hs).1
    simp only [UInt32.size]
    omega

/-- The next slot is new, or has not reached the version that the new handle gets. -/
theorem version_insert (few : issued.length < 2 ^ 31) :
    (m.slots[m.nextSlot]? = none ∧ (m.insert a).1.version.toNat = 1) ∨
    ∃ s, m.slots[m.nextSlot]? = some s ∧ s.version.toNat ≤ 2 * issued.length ∧
      (m.insert a).1.version.toNat = s.version.toNat + 1 := by
  cases hf : m.free with
  | nil =>
    refine .inl ⟨?_, ?_⟩
    · rw [nextSlot, hf]
      exact Array.getElem?_eq_none (Nat.le_refl _)
    · rw [version_insert_of_added hf]
      rfl
  | cons i rest =>
    have hnext : m.nextSlot = i := by rw [nextSlot, hf]; rfl
    obtain ⟨s, hs, hempty⟩ := hg.vacant.empty i (hf ▸ List.mem_cons_self)
    have hle : s.version.toNat ≤ 2 * issued.length := Nat.le_of_add_right_le (hg.version_le i s hs)
    refine .inr ⟨s, hnext ▸ hs, hle, ?_⟩
    have hv : (m.insert a).1.version = s.version + 1 := by
      simp only [SlotTable.insert, hf, hs, Option.map_some, Option.getD_some]
    rw [hv, UInt32.toNat_add, UInt32.toNat_one, Nat.mod_eq_of_lt (by omega)]

theorem version_insert_le (few : issued.length < 2 ^ 31) :
    (m.insert a).1.version.toNat ≤ 2 * issued.length + 1 := by
  rcases hg.version_insert (a := a) few with ⟨-, hv⟩ | ⟨s, -, hle, hv⟩ <;> omega

/-- A new handle has a greater version than those handed out for its slot before. -/
theorem version_lt_insert (few : issued.length < 2 ^ 31) (hk : k ∈ issued)
    (hi : k.index = (m.insert a).1.index) : k.version.toNat < (m.insert a).1.version.toNat := by
  obtain ⟨s, hs, hle⟩ := hg.reached k hk
  rw [hi, hg.index_insert_toNat few] at hs
  rcases hg.version_insert (a := a) few with ⟨hnone, -⟩ | ⟨s', hs', -, hv⟩
  · cases hnone.symm.trans hs
  · obtain rfl := Option.some.inj (hs'.symm.trans hs)
    omega

theorem insert_notMem (few : issued.length < 2 ^ 31) : (m.insert a).1 ∉ issued := fun hmem =>
  Nat.lt_irrefl _ (hg.version_lt_insert few hmem rfl)

theorem insert (few : issued.length < 2 ^ 31) :
    (m.insert a).2.Growing (issued ++ [(m.insert a).1]) := by
  have hslots := getElem?_slots_insert (a := a) hg.vacant.free_lt
  have hindex := hg.index_insert_toNat (a := a) few
  have hversion := hg.version_insert (a := a) few
  have hlength : (issued ++ [(m.insert a).1]).length = issued.length + 1 := List.length_append
  constructor
  · exact List.nodup_append.2 ⟨hg.nodup, List.nodup_singleton _, fun k hk c hc hkc =>
      hg.insert_notMem few (List.mem_singleton.1 hc ▸ hkc ▸ hk)⟩
  · rw [size_slots_insert, hlength]
    have := hg.size_le
    split <;> omega
  · exact hg.vacant.insert
  · intro i s hs
    rw [hslots] at hs
    rw [hlength]
    split at hs
    · obtain rfl := Option.some.inj hs
      simp only [Option.isSome_some, if_true]
      rcases hversion with ⟨-, hv⟩ | ⟨s', -, hle, hv⟩ <;> omega
    · have := hg.version_le i s hs
      omega
  · intro k hk
    rw [hslots]
    rcases List.mem_append.1 hk with hk | hk
    · obtain ⟨s, hs, hle⟩ := hg.reached k hk
      split
      · -- The slot of an old handle is filled again, under a later version.
        rename_i hi
        rw [hi] at hs
        rcases hversion with ⟨hnone, -⟩ | ⟨s', hs', -, hv⟩
        · cases hnone.symm.trans hs
        · obtain rfl := Option.some.inj (hs'.symm.trans hs)
          exact ⟨_, rfl, Nat.le_trans hle (hv ▸ Nat.le_succ _)⟩
      · exact ⟨s, hs, hle⟩
    · rw [List.mem_singleton.1 hk, if_pos hindex]
      exact ⟨_, rfl, Nat.le_refl _⟩

theorem erase (few : issued.length < 2 ^ 31) : (m.erase h).Growing issued := by
  by_cases hc : m.contains h = true
  · obtain ⟨s, hs, hv, hsome⟩ := contains_iff.1 hc
    have hbound := hg.version_le _ s hs
    rw [if_pos hsome] at hbound
    have hnext : (h.version + 1).toNat = s.version.toNat + 1 := by
      rw [← hv, UInt32.toNat_add, UInt32.toNat_one, Nat.mod_eq_of_lt (by omega)]
    refine ⟨hg.nodup, ?_, hg.vacant.erase, fun i s' hs' => ?_, fun k hk => ?_⟩
    · rw [size_slots_erase]
      exact hg.size_le
    · rw [getElem?_slots_erase hc] at hs'
      split at hs'
      · obtain rfl := Option.some.inj hs'
        simp only [hnext, Option.isSome_none, Bool.false_eq_true, if_false]
        omega
      · exact hg.version_le i s' hs'
    · obtain ⟨s', hs', hle⟩ := hg.reached k hk
      rw [getElem?_slots_erase hc]
      split
      · rename_i hi
        rw [← hi] at hs'
        obtain rfl := Option.some.inj (hs.symm.trans hs')
        exact ⟨_, rfl, Nat.le_trans hle (hnext ▸ Nat.le_succ _)⟩
      · exact ⟨s', hs', hle⟩
  · rwa [erase_eq_self hc]

end Growing

end AccessBridge.SlotTable
