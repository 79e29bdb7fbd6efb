import AccessBridge.SlotTable
import Std.Data.ExtTreeMap

/-!
# Maps keyed by handle

A map that stands beside a slot table and is keyed by the table's handles. It keeps at most one
value per slot, the one under the newest handle: a value put under a newer handle of a slot replaces
the one left by an older handle, and a value put under an older handle is not kept.
-/

namespace AccessBridge

open Std (ExtTreeMap)

/-- Values under handles that a slot table has handed out. -/
structure HandleMap (β : Type) where
  entries : ExtTreeMap Nat (UInt32 × β) := ∅

namespace HandleMap

variable {β : Type}

/-- The value under exactly this handle. -/
def get? (m : HandleMap β) (h : Handle) : Option β :=
  match m.entries[h.index.toNat]? with
  | some (version, b) => if version = h.version then some b else none
  | none => none

/-- Whether the first of two versions of a slot is the older one. Versions wrap around, so of two
    versions the older is the one from which the other is less than half the way around ahead. -/
def isOlder (version other : UInt32) : Bool := decide (0x80000000 ≤ version - other)

/-- Whether the slot of a handle has a value under a newer handle. -/
def holdsNewer (m : HandleMap β) (h : Handle) : Bool :=
  match m.entries[h.index.toNat]? with
  | some (version, _) => isOlder h.version version
  | none => false

/-- Puts a value under a handle, in place of any other value of its slot, unless the slot has a
    value under a newer handle. -/
def insert (m : HandleMap β) (h : Handle) (b : β) : HandleMap β :=
  if m.holdsNewer h then m else ⟨m.entries.insert h.index.toNat (h.version, b)⟩

/-- Removes the value under exactly this handle. -/
def erase (m : HandleMap β) (h : Handle) : HandleMap β :=
  match m.get? h with
  | some _ => ⟨m.entries.erase h.index.toNat⟩
  | none => m

@[simp] theorem get?_erase_handle {m : HandleMap β} {h : Handle} : (m.erase h).get? h = none := by
  unfold erase
  split
  · simp [get?]
  · assumption

variable {m : HandleMap β} {h k : Handle} {b c : β}

theorem get?_eq_some : m.get? h = some b ↔ m.entries[h.index.toNat]? = some (h.version, b) := by
  unfold get?
  constructor
  · intro hg
    split at hg
    · rename_i v c he
      split at hg
      · rename_i hv
        rw [he, hv, Option.some.inj hg]
      · cases hg
    · cases hg
  · intro he
    rw [he]
    simp only [if_true]

/-- Nothing is newer than a handle in whose slot there is no value. -/
theorem holdsNewer_of_vacant (vacant : ∀ k, k.index = h.index → m.get? k = none) :
    m.holdsNewer h = false := by
  unfold holdsNewer
  split
  · rename_i version c he
    have hg : m.get? ⟨h.index, version⟩ = some c := get?_eq_some.2 he
    cases hg.symm.trans (vacant _ rfl)
  · rfl

/-- A version is not older than one that it exceeds by less than half the way around. -/
theorem isOlder_eq_false {version other : UInt32} (hle : other.toNat ≤ version.toNat)
    (hlt : version.toNat - other.toNat < 0x80000000) : isOlder version other = false := by
  have hsub : (version - other).toNat = version.toNat - other.toNat :=
    UInt32.toNat_sub_of_le _ _ (UInt32.le_iff_toNat_le.2 hle)
  rw [isOlder, decide_eq_false_iff_not, UInt32.le_iff_toNat_le, hsub, Nat.not_le]
  exact hlt

example : isOlder 1 0xFFFFFFFF = false ∧ isOlder 0xFFFFFFFF 1 = true := by decide

/-- What a map gives after an insertion is what was inserted, or was there before. -/
theorem get?_insert_eq_some (hg : (m.insert h b).get? k = some c) :
    (k = h ∧ c = b) ∨ m.get? k = some c := by
  unfold insert at hg
  split at hg
  · exact .inr hg
  · rw [get?_eq_some, ExtTreeMap.getElem?_insert] at hg
    split at hg
    · rename_i hi
      obtain ⟨hv, rfl⟩ := Prod.mk.inj (Option.some.inj hg)
      have hindex : h.index = k.index := UInt32.toNat_inj.1 (Nat.compare_eq_eq.1 hi)
      exact .inl ⟨Handle.ext hindex.symm hv.symm, rfl⟩
    · exact .inr (get?_eq_some.2 hg)

/-- An insertion concerns one slot. -/
theorem get?_insert_of_index_ne (hne : h.index.toNat ≠ k.index.toNat) :
    (m.insert h b).get? k = m.get? k := by
  unfold insert
  split
  · rfl
  · simp [get?, ExtTreeMap.getElem?_insert, hne]

theorem get?_insert_self (hn : m.holdsNewer h = false) : (m.insert h b).get? h = some b := by
  simp [insert, hn, get?]

@[simp] theorem get?_insert_empty : (insert {} h b).get? h = some b :=
  get?_insert_self (holdsNewer_of_vacant fun _ _ => rfl)

/-- A value that nothing newer keeps out is found under its handle, and takes the place of any other
    value of the slot. -/
theorem get?_insert (hn : m.holdsNewer h = false) : (m.insert h b).get? k =
    if k = h then some b else if k.index = h.index then none else m.get? k := by
  split
  · rename_i heq
    rw [heq, get?_insert_self hn]
  · rename_i hne
    split
    · rename_i hi
      have hv : h.version ≠ k.version := by
        intro hv
        apply hne
        exact Handle.ext hi hv.symm
      simp [get?, insert, hn, hi, hv]
    · rename_i hi
      apply get?_insert_of_index_ne
      intro heq
      apply hi
      exact (UInt32.toNat_inj.1 heq).symm

theorem get?_erase_of_ne (hne : k ≠ h) : (m.erase h).get? k = m.get? k := by
  unfold erase
  split
  · rename_i b hb
    by_cases hi : h.index.toNat = k.index.toNat
    · have hv : h.version ≠ k.version := fun hv =>
        hne (Handle.ext (UInt32.toNat_inj.1 hi).symm hv.symm)
      have he := get?_eq_some.1 hb
      rw [hi] at he
      simp [get?, hi, he, hv]
    · simp [get?, ExtTreeMap.getElem?_erase, hi]
  · rfl

end HandleMap

end AccessBridge
