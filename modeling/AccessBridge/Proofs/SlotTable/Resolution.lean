import AccessBridge.Proofs.SlotTable

/-!
# What handles resolve to

Each operation of a slot table is described by what the handles resolve to after it: a removal
and a change concern the handle they are made through and no other (`get?_erase`, `get?_modify`),
and an insertion concerns the new handle alone (`Growing.get?_insert`), as long as fewer than
`2 ^ 31` handles have been handed out. Handles that are handed out have odd versions
(`Alternating`), so they survive being written as a word and read back (`Handle.ofRaw_toRaw`).
-/

namespace AccessBridge

/-! ## Handles as words -/

namespace Handle

variable {h k : Handle} {i : Nat}

/-- The index fills the lower half of the word and the version the upper one. -/
theorem getLsbD_toRaw (h : Handle) (i : Nat) : h.toRaw.toBitVec.getLsbD i =
    if i < 32 then h.index.toBitVec.getLsbD i else h.version.toBitVec.getLsbD (i - 32) := by
  split
  · rename_i hlow
    have hi : i < 64 := by omega
    simp [toRaw, hlow, hi]
  · rename_i hlow
    have hindex : h.index.toBitVec.getLsbD i = false := BitVec.getLsbD_of_ge _ _ (by omega)
    by_cases hi : i < 64
    · have hhigh : i - 32 < 32 := by omega
      simp [toRaw, hlow, hhigh, hi, hindex]
    · have hversion : h.version.toBitVec.getLsbD (i - 32) = false :=
        BitVec.getLsbD_of_ge _ _ (by omega)
      simp [toRaw, hlow, hi, hindex, hversion]

theorem toRaw_inj : h.toRaw = k.toRaw ↔ h = k := by
  constructor
  · intro heq
    have hbits : ∀ i, h.toRaw.toBitVec.getLsbD i = k.toRaw.toBitVec.getLsbD i := by
      intro i
      rw [heq]
    apply Handle.ext
    · apply UInt32.toBitVec_inj.1
      apply BitVec.eq_of_getLsbD_eq
      intro i hi
      have hbit := hbits i
      simpa [getLsbD_toRaw, hi] using hbit
    · apply UInt32.toBitVec_inj.1
      apply BitVec.eq_of_getLsbD_eq
      intro i hi
      have hbit := hbits (i + 32)
      have hhigh : ¬ i + 32 < 32 := by omega
      simpa [getLsbD_toRaw, hhigh] using hbit
  · intro heq
    rw [heq]

/-- The lowest bit of the version, as a word. -/
theorem getLsbD_versionBit (i : Nat) :
    ((1 : UInt64) <<< 32).toBitVec.getLsbD i = decide (i = 32) := by
  have hpow : ((1 : UInt64) <<< 32).toBitVec = BitVec.twoPow 64 32 := rfl
  rw [hpow, BitVec.getLsbD_twoPow]
  by_cases h : i = 32 <;> simp [h, eq_comm]

/-- Reading a handle from a word changes nothing but the lowest bit of the version. -/
theorem toRaw_ofRaw (raw : UInt64) : (ofRaw raw).toRaw = raw ||| (1 : UInt64) <<< 32 := by
  apply UInt64.toBitVec_inj.1
  apply BitVec.eq_of_getLsbD_eq
  intro i hi
  rw [getLsbD_toRaw, UInt64.toBitVec_or, BitVec.getLsbD_or, getLsbD_versionBit]
  by_cases hlow : i < 32
  · have hne : ¬ i = 32 := by omega
    simp [ofRaw, hlow, hne]
  · have hhigh : i - 32 < 32 := by omega
    have hsum : 32 + (i - 32) = i := by omega
    have hbit : i - 32 = 0 ↔ i = 32 := by omega
    simp [ofRaw, hlow, hi, hhigh, hsum, hbit]

theorem ofRaw_toRaw (odd : h.version.toNat % 2 = 1) : ofRaw h.toRaw = h := by
  apply toRaw_inj.1
  rw [toRaw_ofRaw]
  apply UInt64.toBitVec_inj.1
  apply BitVec.eq_of_getLsbD_eq
  intro i hi
  rw [UInt64.toBitVec_or, BitVec.getLsbD_or, getLsbD_versionBit]
  by_cases hbit : i = 32
  · subst hbit
    have hlowest : h.version.toBitVec.getLsbD 0 = true := by
      simp [BitVec.getLsbD, Nat.testBit_zero, odd]
    simp [getLsbD_toRaw, hlowest]
  · simp [hbit]

end Handle

namespace SlotTable

variable {α : Type} {m m' : SlotTable α} {a : α} {h k : Handle} {issued : List Handle}
  {f : α → α} {s : Slot α} {i : Nat}

/-! ## One slot and its handles -/

/-- A handle resolves to what its slot holds under its version. -/
theorem get?_eq_some : m.get? h = some a ↔ m.slots[h.index.toNat]? = some ⟨h.version, some a⟩ := by
  rw [get?]
  constructor
  · intro hg
    split at hg
    · rename_i s hs
      split at hg
      · rename_i hv
        rw [hs, ← hv, ← hg]
      · cases hg
    · cases hg
  · intro hs
    rw [hs]
    simp only [if_true]

theorem contains_of_get? (hg : m.get? h = some a) : m.contains h = true := by
  rw [contains, hg]
  rfl

theorem get?_congr (hslot : m'.slots[k.index.toNat]? = m.slots[k.index.toNat]?) :
    m'.get? k = m.get? k := by
  rw [get?, get?, hslot]

/-- An empty slot resolves no handle. -/
theorem get?_of_empty (hs : m.slots[k.index.toNat]? = some s) (hempty : s.content = none) :
    m.get? k = none := by
  rw [get?, hs]
  simp [hempty]

/-- A slot resolves one handle at most. -/
theorem get?_eq_none_of_contains (hc : m.contains h = true) (hi : k.index = h.index)
    (hne : k ≠ h) : m.get? k = none := by
  obtain ⟨s, hs, hv, -⟩ := contains_iff.1 hc
  have hother : s.version ≠ k.version := by
    intro hk
    apply hne
    exact Handle.ext hi (hk.symm.trans hv)
  rw [get?, hi, hs]
  simp [hother]

theorem index_toNat_ne (hi : k.index ≠ h.index) : h.index.toNat ≠ k.index.toNat := by
  intro heq
  apply hi
  exact (UInt32.toNat_inj.1 heq).symm

/-! ## What handles resolve to after an operation -/

theorem get?_erase : (m.erase h).get? k = if k = h then none else m.get? k := by
  split
  · rename_i heq
    rw [heq, get?_erase_self]
  · rename_i hne
    unfold erase
    split
    · rename_i hc
      by_cases hi : k.index = h.index
      · rw [get?_eq_none_of_contains hc hi hne]
        obtain ⟨s, hs, -⟩ := contains_iff.1 hc
        have hlt := (Array.getElem?_eq_some_iff.1 hs).1
        apply get?_of_empty (s := ⟨h.version + 1, none⟩)
        · simp [hi, hlt]
        · rfl
      · have hslot := index_toNat_ne hi
        apply get?_congr
        simp [hslot]
    · rfl

theorem get?_modify : (m.modify h f).get? k = if k = h then (m.get? h).map f else m.get? k := by
  unfold modify
  cases hg : m.get? h with
  | none =>
    dsimp only
    split
    · rename_i heq
      rw [heq, hg]
      rfl
    · rfl
  | some a =>
    have hlt := (Array.getElem?_eq_some_iff.1 (get?_eq_some.1 hg)).1
    have hself : SlotTable.get?
        ⟨m.slots.setIfInBounds h.index.toNat ⟨h.version, some (f a)⟩, m.free⟩ h = some (f a) := by
      apply get?_eq_some.2
      simp [hlt]
    dsimp only
    split
    · rename_i heq
      rw [heq, hself]
      rfl
    · rename_i hne
      by_cases hi : k.index = h.index
      · rw [get?_eq_none_of_contains (contains_of_get? hself) hi hne,
          get?_eq_none_of_contains (contains_of_get? hg) hi hne]
      · have hslot := index_toNat_ne hi
        apply get?_congr
        simp [hslot]

namespace Growing

variable (hg : m.Growing issued)

include hg

theorem get?_insert_self (few : issued.length < 2 ^ 31) :
    (m.insert a).2.get? (m.insert a).1 = some a := by
  apply get?_eq_some.2
  rw [hg.index_insert_toNat few, getElem?_slots_insert hg.vacant.free_lt, if_pos rfl]

/-- Nothing resolves yet in the slot of a new handle. -/
theorem get?_eq_none_of_index (few : issued.length < 2 ^ 31)
    (hi : k.index = (m.insert a).1.index) : m.get? k = none := by
  have hnext : k.index.toNat = m.nextSlot := by
    rw [hi]
    exact hg.index_insert_toNat few
  cases hs : m.slots[m.nextSlot]? with
  | none => rw [get?, hnext, hs]
  | some s =>
    apply get?_of_empty (s := s)
    · rw [hnext, hs]
    · exact hg.vacant.nextSlot_empty hs

theorem get?_insert (few : issued.length < 2 ^ 31) :
    (m.insert a).2.get? k = if k = (m.insert a).1 then some a else m.get? k := by
  have hself := hg.get?_insert_self (a := a) few
  split
  · rename_i heq
    rw [heq, hself]
  · rename_i hne
    by_cases hi : k.index = (m.insert a).1.index
    · rw [hg.get?_eq_none_of_index few hi]
      exact get?_eq_none_of_contains (contains_of_get? hself) hi hne
    · apply get?_congr
      rw [getElem?_slots_insert hg.vacant.free_lt, if_neg]
      intro hnext
      apply hi
      apply UInt32.toNat_inj.1
      rw [hnext, hg.index_insert_toNat few]

end Growing

/-! ## Counting -/

theorem size_insert (hg : m.Growing issued) : (m.insert a).2.size = m.size + 1 := by
  unfold insert size
  split
  · simp
  · rename_i i rest hf
    obtain ⟨s, hs, hempty⟩ := hg.vacant.empty i (hf ▸ List.mem_cons_self)
    obtain ⟨hlt, heq⟩ := Array.getElem?_eq_some_iff.1 hs
    simp [List.countP_set, hlt, heq, hempty]

theorem size_pos (hc : m.contains h = true) : 0 < m.size := by
  obtain ⟨s, hs, -, hsome⟩ := contains_iff.1 hc
  obtain ⟨hlt, rfl⟩ := Array.getElem?_eq_some_iff.1 hs
  apply List.countP_pos_iff.2
  exact ⟨_, Array.getElem_mem_toList hlt, hsome⟩

/-- Writing to an occupied slot leaves the others as they are. -/
theorem countP_setIfInBounds (hlt : i < m.slots.size)
    (hsome : m.slots[i].content.isSome = true) :
    (m.slots.setIfInBounds i s).toList.countP (·.content.isSome) =
      m.size - 1 + (if s.content.isSome then 1 else 0) := by
  rw [Array.toList_setIfInBounds, List.countP_set (by simpa using hlt), size]
  simp only [Array.getElem_toList, hsome, if_true]

theorem size_erase (hc : m.contains h = true) : (m.erase h).size + 1 = m.size := by
  have hpos := size_pos hc
  obtain ⟨s, hs, -, hsome⟩ := contains_iff.1 hc
  obtain ⟨hlt, rfl⟩ := Array.getElem?_eq_some_iff.1 hs
  rw [erase, if_pos hc, size, countP_setIfInBounds hlt hsome]
  simp only [Option.isSome_none, Bool.false_eq_true, if_false]
  omega

theorem size_modify : (m.modify h f).size = m.size := by
  unfold modify
  cases hg : m.get? h with
  | none => rfl
  | some a =>
    have hpos := size_pos (contains_of_get? hg)
    obtain ⟨hlt, heq⟩ := Array.getElem?_eq_some_iff.1 (get?_eq_some.1 hg)
    have hsome : m.slots[h.index.toNat].content.isSome = true := by
      rw [heq]
      rfl
    dsimp only
    rw [size, countP_setIfInBounds hlt hsome]
    simp only [Option.isSome_some, if_true]
    omega

/-! ## Changing a value -/

theorem free_modify : (m.modify h f).free = m.free := by
  unfold modify
  split <;> rfl

theorem size_slots_modify : (m.modify h f).slots.size = m.slots.size := by
  unfold modify
  split
  · rfl
  · exact Array.size_setIfInBounds

/-- A change leaves every slot its version, and filled or empty as it was. -/
theorem slot_modify (hs : m.slots[i]? = some s) : ∃ s', (m.modify h f).slots[i]? = some s' ∧
    s'.version = s.version ∧ s'.content.isSome = s.content.isSome := by
  unfold modify
  cases hg : m.get? h with
  | none => exact ⟨s, hs, rfl, rfl⟩
  | some a =>
    by_cases hi : h.index.toNat = i
    · have hslot := get?_eq_some.1 hg
      rw [hi, hs] at hslot
      obtain rfl := Option.some.inj hslot
      have hlt := (Array.getElem?_eq_some_iff.1 hs).1
      refine ⟨⟨h.version, some (f a)⟩, ?_, rfl, rfl⟩
      simp [hi, hlt]
    · refine ⟨s, ?_, rfl, rfl⟩
      simpa [hi] using hs

theorem slot_of_modify {s' : Slot α} (hs' : (m.modify h f).slots[i]? = some s') :
    ∃ s, m.slots[i]? = some s ∧ s'.version = s.version ∧
      s'.content.isSome = s.content.isSome := by
  have hlt := (Array.getElem?_eq_some_iff.1 hs').1
  rw [size_slots_modify] at hlt
  obtain ⟨t, ht, hv, hsome⟩ := slot_modify (h := h) (f := f) (Array.getElem?_eq_getElem hlt)
  obtain rfl := Option.some.inj (hs'.symm.trans ht)
  exact ⟨_, Array.getElem?_eq_getElem hlt, hv, hsome⟩

theorem Growing.modify (hg : m.Growing issued) : (m.modify h f).Growing issued := by
  constructor
  · exact hg.nodup
  · rw [size_slots_modify]
    exact hg.size_le
  · refine ⟨?_, fun i hi => ?_⟩
    · rw [free_modify]
      exact hg.vacant.nodup
    · rw [free_modify] at hi
      obtain ⟨s, hs, hempty⟩ := hg.vacant.empty i hi
      obtain ⟨s', hs', -, hsome⟩ := slot_modify (h := h) (f := f) hs
      refine ⟨s', hs', ?_⟩
      simpa [hempty] using hsome
  · intro i s' hs'
    obtain ⟨s, hs, hv, hsome⟩ := slot_of_modify hs'
    rw [hv, hsome]
    exact hg.version_le i s hs
  · intro k hk
    obtain ⟨s, hs, hle⟩ := hg.reached k hk
    obtain ⟨s', hs', hv, -⟩ := slot_modify (h := h) (f := f) hs
    refine ⟨s', hs', ?_⟩
    rw [hv]
    exact hle

/-! ## Odd versions -/

/-- A slot has an odd version while it is filled and an even one while it is empty, so the handles
    that have been handed out have odd versions. -/
structure Alternating (m : SlotTable α) (issued : List Handle) : Prop where
  parity : ∀ (i : Nat) s, m.slots[i]? = some s →
    s.version.toNat % 2 = if s.content.isSome then 1 else 0
  odd : ∀ h ∈ issued, h.version.toNat % 2 = 1

theorem alternating_empty : ({} : SlotTable α).Alternating [] where
  parity i s hs := by
    obtain ⟨hi, rfl⟩ := Array.getElem?_eq_some_iff.1 hs
    obtain rfl : i = 0 := Nat.lt_one_iff.1 hi
    simp
  odd h hh := by cases hh

namespace Alternating

variable (ha : m.Alternating issued)

include ha

theorem insert (hg : m.Growing issued) (few : issued.length < 2 ^ 31) :
    (m.insert a).2.Alternating (issued ++ [(m.insert a).1]) := by
  have hnew : (m.insert a).1.version.toNat % 2 = 1 := by
    rcases hg.version_insert (a := a) few with ⟨-, hv⟩ | ⟨s, hs, -, hv⟩
    · omega
    · have heven := ha.parity _ s hs
      rw [hg.vacant.nextSlot_empty hs] at heven
      simp at heven
      omega
  constructor
  · intro i s hs
    rw [getElem?_slots_insert hg.vacant.free_lt] at hs
    split at hs
    · obtain rfl := Option.some.inj hs
      simpa using hnew
    · exact ha.parity i s hs
  · intro k hk
    rcases List.mem_append.1 hk with hk | hk
    · exact ha.odd k hk
    · rw [List.mem_singleton.1 hk]
      exact hnew

theorem erase : (m.erase h).Alternating issued := by
  refine ⟨?_, ha.odd⟩
  intro i s hs
  by_cases hc : m.contains h = true
  · rw [getElem?_slots_erase hc] at hs
    split at hs
    · obtain rfl := Option.some.inj hs
      obtain ⟨t, ht, hv, hsome⟩ := contains_iff.1 hc
      have hodd := ha.parity _ t ht
      rw [if_pos hsome, hv] at hodd
      have hnext : (h.version + 1).toNat = (h.version.toNat + 1) % 2 ^ 32 := by
        rw [UInt32.toNat_add, UInt32.toNat_one]
      simp only [Option.isSome_none, Bool.false_eq_true, if_false, hnext]
      omega
    · exact ha.parity i s hs
  · rw [erase_eq_self hc] at hs
    exact ha.parity i s hs

theorem modify : (m.modify h f).Alternating issued := by
  refine ⟨?_, ha.odd⟩
  intro i s' hs'
  obtain ⟨s, hs, hv, hsome⟩ := slot_of_modify hs'
  rw [hv, hsome]
  exact ha.parity i s hs

end Alternating

end SlotTable

end AccessBridge
