import AccessBridge.Notifier

/-!
# What a request does to a mailbox

On an open inbox a request either folds into one that waits and changes nothing, or is posted at
the end of the inbox with its flag up (`Notifier.requestUpdate_cases`).
-/

namespace AccessBridge

/-! ## Flags -/

namespace Mailbox

variable {m : Mailbox} {f g : FlagId} {up : Bool}

theorem isRaised_setFlag : (m.setFlag f up).isRaised g =
    if f = g ∧ f < m.flags.size then up else m.isRaised g := by
  simp only [isRaised, setFlag, Array.getElem?_setIfInBounds]
  by_cases hfg : f = g
  · subst hfg
    by_cases hf : f < m.flags.size
    · simp [hf]
    · simp [hf]
  · simp [hfg]

/-- A flag that is put down is down, also one that the mailbox does not have. -/
theorem isRaised_setFlag_false : (m.setFlag f false).isRaised f = false := by
  rw [isRaised_setFlag]
  split
  · rfl
  · rename_i hf
    have hsize : m.flags.size ≤ f := by simpa using hf
    rw [isRaised, Array.getElem?_eq_none hsize]
    rfl

theorem isRaised_newFlag : m.newFlag.2.isRaised g = m.isRaised g := by
  simp only [isRaised, newFlag, Array.getElem?_push]
  split
  · rename_i hg
    rw [hg, Array.getElem?_eq_none (Nat.le_refl _)]
    rfl
  · rfl

theorem inbox_newFlag : m.newFlag.2.inbox = m.inbox := rfl

theorem take?_eq_some {h : Handle} {m' : Mailbox} (ht : m.take? = some (h, m')) :
    m.inbox.messages = h :: m'.inbox.messages ∧
      m'.inbox = { m.inbox with messages := m'.inbox.messages } ∧ m'.flags = m.flags := by
  obtain ⟨⟨k, inbox⟩, hk, heq⟩ := Option.map_eq_some_iff.1 ht
  obtain ⟨rfl, rfl⟩ := Prod.mk.inj heq
  unfold Inbox.take? at hk
  split at hk
  · cases hk
  · rename_i k' rest hm
    obtain ⟨rfl, rfl⟩ := Prod.mk.inj (Option.some.inj hk)
    exact ⟨hm, rfl, rfl⟩

theorem take?_eq_none (ht : m.take? = none) : m.inbox.messages = [] := by
  have hk := Option.map_eq_none_iff.1 ht
  unfold Inbox.take? at hk
  split at hk
  · assumption
  · cases hk

end Mailbox

/-! ## Requests -/

namespace Notifier

variable {n : Notifier} {m : Mailbox} {f : FlagId}

/-- A request on an open inbox folds if the notifier folds and the flag is up, and is posted
    otherwise. -/
theorem requestUpdate_cases (hopen : m.inbox.isOpen = true) :
    (n.coalesce = true ∧ m.isRaised n.flag = true ∧
      (n.requestUpdate m).answer = .ok false ∧ (n.requestUpdate m).state = m) ∨
    (¬ (n.coalesce = true ∧ m.isRaised n.flag = true) ∧
      (n.requestUpdate m).answer = .ok true ∧
      (n.requestUpdate m).state =
        { (if n.coalesce then m.setFlag n.flag true else m) with
          inbox := { m.inbox with messages := m.inbox.messages ++ [n.handle] } }) := by
  by_cases hfold : n.coalesce = true ∧ m.isRaised n.flag = true
  · obtain ⟨hc, hr⟩ := hfold
    exact .inl ⟨hc, hr, by simp [requestUpdate, hc, hr], by simp [requestUpdate, hc, hr]⟩
  · refine .inr ⟨hfold, ?_⟩
    have hpost : ∀ m' : Mailbox, m'.inbox = m.inbox → m'.inbox.post n.handle =
        .ok ({ m.inbox with messages := m.inbox.messages ++ [n.handle] }, m.inbox.waker) := by
      intro m' hm'
      rw [hm', Inbox.post, if_pos hopen]
    cases hc : n.coalesce with
    | false => simp [requestUpdate, hc, hpost m rfl]
    | true =>
      have hr : m.isRaised n.flag = false := by simpa [hc] using hfold
      simp [requestUpdate, hc, hr, hpost (m.setFlag n.flag true) rfl]

/-- A request that is posted comes last in the inbox, and the waker runs if there is one. Any other
    request leaves the inbox alone and runs no waker. -/
theorem requestUpdate_posted_or_not :
    ((n.requestUpdate m).answer = .ok true ∧
      (n.requestUpdate m).signals = m.inbox.waker.toList.map .woken ∧
      (n.requestUpdate m).state.inbox =
        { m.inbox with messages := m.inbox.messages ++ [n.handle] }) ∨
    ((n.requestUpdate m).answer ≠ .ok true ∧ (n.requestUpdate m).signals = [] ∧
      (n.requestUpdate m).state.inbox = m.inbox) := by
  unfold requestUpdate
  split
  · exact .inr ⟨by simp, rfl, rfl⟩
  · dsimp only
    generalize hm : (if n.coalesce then m.setFlag n.flag true else m) = raised
    have hinbox : raised.inbox = m.inbox := by
      subst hm
      split <;> rfl
    rw [Inbox.post, hinbox]
    cases m.inbox.isOpen with
    | true => exact .inl ⟨rfl, rfl, rfl⟩
    | false => exact .inr ⟨by simp, rfl, hinbox⟩

/-- A request leaves those in the inbox where they are. -/
theorem messages_requestUpdate_grow :
    m.inbox.messages <+: (n.requestUpdate m).state.inbox.messages := by
  rcases requestUpdate_posted_or_not (n := n) (m := m) with ⟨-, -, hinbox⟩ | ⟨-, -, hinbox⟩
  · rw [hinbox]
    exact List.prefix_append _ _
  · simp [hinbox]

/-- A request that may fold leaves its own flag up, and the others as they are. -/
theorem isRaised_requestUpdate_iff (hopen : m.inbox.isOpen = true) (hc : n.coalesce = true)
    (hbound : n.flag < m.flags.size) :
    (n.requestUpdate m).state.isRaised f = true ↔ m.isRaised f = true ∨ n.flag = f := by
  rcases requestUpdate_cases (n := n) hopen with ⟨-, hr, -, hm⟩ | ⟨-, -, hm⟩
  · rw [hm]
    constructor
    · intro hf
      left
      exact hf
    · rintro (hf | rfl)
      · exact hf
      · exact hr
  · rw [hm, if_pos hc]
    change (m.setFlag n.flag true).isRaised f = true ↔ _
    rw [Mailbox.isRaised_setFlag]
    by_cases hf : n.flag = f
    · simp [hf ▸ hbound, hf]
    · simp [hf]

/-- A notifier that does not fold raises no flag. -/
theorem isRaised_requestUpdate (hc : n.coalesce = false)
    (hr : (n.requestUpdate m).state.isRaised f = true) : m.isRaised f = true := by
  unfold requestUpdate at hr
  simp only [hc, Bool.false_and, Bool.false_eq_true, if_false] at hr
  split at hr
  · rw [Mailbox.isRaised_setFlag] at hr
    split at hr
    · cases hr
    · exact hr
  · exact hr

end Notifier

end AccessBridge
