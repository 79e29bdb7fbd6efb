/-!
# Slot tables

A slot table hands out a handle for every value it takes in. A handle names a slot and a version
of it. A slot's version is odd while it is occupied and grows by one whenever the slot is filled
or emptied, so a handle stops resolving when its value is removed, also when the slot is used
again. The slot emptied last is filled first.
-/

namespace AccessBridge

/-- A key to a slot table. -/
structure Handle where
  index : UInt32
  version : UInt32
deriving DecidableEq, Repr, Inhabited

namespace Handle

/-- The handle as one word, the version in the upper half. -/
def toRaw (h : Handle) : UInt64 :=
  (h.version.toUInt64 <<< 32) ||| h.index.toUInt64

/-- The handle in a word. Versions of handles are odd, so the lowest bit of the version is set. -/
def ofRaw (raw : UInt64) : Handle where
  index := raw.toUInt32
  version := (raw >>> 32).toUInt32 ||| 1

/-- A handle that is never handed out. -/
def null : Handle := ⟨0xFFFFFFFF, 1⟩

@[ext] theorem ext {h k : Handle} (hi : h.index = k.index) (hv : h.version = k.version) :
    h = k := by
  cases h
  cases k
  exact (mk.injEq ..).symm ▸ ⟨hi, hv⟩

end Handle

/-- One place of a slot table. -/
structure Slot (α : Type) where
  version : UInt32
  content : Option α

/-- Values under handles. The slot with index zero is never filled. -/
structure SlotTable (α : Type) where
  slots : Array (Slot α) := #[⟨0, none⟩]
  /-- The empty slots, the one emptied last in front. -/
  free : List Nat := []

namespace SlotTable

variable {α : Type}

/-- The value under a handle. -/
def get? (m : SlotTable α) (h : Handle) : Option α :=
  match m.slots[h.index.toNat]? with
  | some s => if s.version = h.version then s.content else none
  | none => none

/-- Whether a handle resolves. -/
def contains (m : SlotTable α) (h : Handle) : Bool := (m.get? h).isSome

/-- The handles that resolve, by index. -/
def handles (m : SlotTable α) : List Handle :=
  m.slots.toList.zipIdx.filterMap fun (s, i) =>
    if s.content.isSome then some ⟨i.toUInt32, s.version⟩ else none

/-- The number of values. -/
def size (m : SlotTable α) : Nat := m.slots.toList.countP (·.content.isSome)

/-- Whether there are no values. -/
def isEmpty (m : SlotTable α) : Bool := m.size == 0

/-- Takes in a value and hands out its handle. -/
def insert (m : SlotTable α) (a : α) : Handle × SlotTable α :=
  match m.free with
  | [] => (⟨m.slots.size.toUInt32, 1⟩, { m with slots := m.slots.push ⟨1, some a⟩ })
  | i :: rest =>
    let version := ((m.slots[i]?).map (·.version)).getD 0 + 1
    (⟨i.toUInt32, version⟩, { slots := m.slots.setIfInBounds i ⟨version, some a⟩, free := rest })

/-- Removes the value under a handle. A handle that does not resolve changes nothing. -/
def erase (m : SlotTable α) (h : Handle) : SlotTable α :=
  if m.contains h then
    { slots := m.slots.setIfInBounds h.index.toNat ⟨h.version + 1, none⟩
      free := h.index.toNat :: m.free }
  else m

/-- Changes the value under a handle. A handle that does not resolve changes nothing. -/
def modify (m : SlotTable α) (h : Handle) (f : α → α) : SlotTable α :=
  match m.get? h with
  | none => m
  | some a => { m with slots := m.slots.setIfInBounds h.index.toNat ⟨h.version, some (f a)⟩ }

theorem get?_erase_self {m : SlotTable α} {h : Handle} : (m.erase h).get? h = none := by
  unfold erase
  split
  · unfold get?
    simp only [Array.getElem?_setIfInBounds_self]
    split
    · rename_i h'
      split at h'
      · injection h' with h'
        subst h'
        simp
      · cases h'
    · rfl
  · rename_i hc
    simpa [contains] using hc

theorem modify_of_get?_eq_none {m : SlotTable α} {h : Handle} {f : α → α} (hn : m.get? h = none) :
    m.modify h f = m := by
  simp [modify, hn]

end SlotTable

end AccessBridge
