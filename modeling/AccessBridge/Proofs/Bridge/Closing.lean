import AccessBridge.Proofs.Bridge.Notifiers

/-!
# Requests when the bridge is gone

A notifier outlives its bridge, and its requests are then delivered by nobody. Whether a request
says so depends on the pending flag that the bridge has left behind: one that finds the flag up is
folded into a request that no longer exists, and one that finds it down fails and leaves it down
(`Notifier.requestUpdate_of_closed`). So the flags decide once and for all
(`Session.requests_after_close`).
-/

namespace AccessBridge

namespace Notifier

variable {n : Notifier} {ns : List Notifier} {m : Mailbox}

/-- Requests that are made one after another. -/
def requestEach : List Notifier → Mailbox → Reply Mailbox (List (Except InboxClosed Bool))
  | [], m => ⟨[], m, []⟩
  | n :: ns, m =>
    let first := n.requestUpdate m
    let others := requestEach ns first.state
    ⟨first.answer :: others.answer, others.state, first.signals ++ others.signals⟩

theorem requestUpdates_eq_requestEach (times : Nat) :
    n.requestUpdates times m = requestEach (List.replicate times n) m := by
  induction times generalizing m with
  | zero => rfl
  | succ times ih =>
    rw [List.replicate_succ, requestUpdates, requestEach, ih]

/-! ## Requests that nobody delivers -/

/-- A request that finds its flag up folds. -/
theorem requestUpdate_of_raised (hc : n.coalesce = true) (hr : m.isRaised n.flag = true) :
    n.requestUpdate m = ⟨.ok false, m, []⟩ := by
  simp [requestUpdate, hc, hr]

/-- A request that finds its flag down fails, and puts the flag down again. -/
theorem requestUpdate_of_closed (hclosed : m.inbox.isOpen = false)
    (hr : m.isRaised n.flag = false) :
    n.requestUpdate m = ⟨.error .closed,
      (if n.coalesce then m.setFlag n.flag true else m).setFlag n.flag false, []⟩ := by
  have hinbox : (if n.coalesce then m.setFlag n.flag true else m).inbox = m.inbox := by
    split <;> rfl
  have hpost : (if n.coalesce then m.setFlag n.flag true else m).inbox.post n.handle =
      .error .closed := by
    rw [hinbox]
    exact Inbox.post_closed hclosed
  simp only [requestUpdate, hr, Bool.and_false, Bool.false_eq_true, if_false, hpost]

/-- A request on a closed inbox leaves every flag as it is, if only flags of notifiers that fold are
    up. -/
theorem requestUpdate_closed (hclosed : m.inbox.isOpen = false)
    (hfolds : m.isRaised n.flag = true → n.coalesce = true) :
    (n.requestUpdate m).answer = (if n.isPending m then .ok false else .error .closed) ∧
    (n.requestUpdate m).signals = [] ∧ (n.requestUpdate m).state.inbox = m.inbox ∧
    ∀ f, (n.requestUpdate m).state.isRaised f = m.isRaised f := by
  rw [isPending]
  cases hr : m.isRaised n.flag with
  | true =>
    rw [requestUpdate_of_raised (hfolds hr) hr]
    exact ⟨rfl, rfl, rfl, fun _ => rfl⟩
  | false =>
    rw [requestUpdate_of_closed hclosed hr]
    refine ⟨rfl, rfl, ?_, ?_⟩
    · change (if n.coalesce then m.setFlag n.flag true else m).inbox = m.inbox
      split <;> rfl
    · intro f
      by_cases hf : n.flag = f
      · rw [← hf, hr]
        exact Mailbox.isRaised_setFlag_false
      · rw [Mailbox.isRaised_setFlag, if_neg (by simp [hf])]
        split
        · rw [Mailbox.isRaised_setFlag, if_neg (by simp [hf])]
        · rfl

theorem requestEach_closed (hclosed : m.inbox.isOpen = false)
    (hfolds : ∀ n ∈ ns, m.isRaised n.flag = true → n.coalesce = true) :
    (requestEach ns m).answer =
      ns.map (fun n => if n.isPending m then .ok false else .error .closed) ∧
    (requestEach ns m).signals = [] := by
  induction ns generalizing m with
  | nil => exact ⟨rfl, rfl⟩
  | cons n ns ih =>
    rw [List.forall_mem_cons] at hfolds
    obtain ⟨hanswer, hsignals, hinbox, hflags⟩ := requestUpdate_closed hclosed hfolds.1
    have hrest : ∀ k ∈ ns, (n.requestUpdate m).state.isRaised k.flag = true →
        k.coalesce = true := by
      intro k hk hr
      rw [hflags] at hr
      exact hfolds.2 k hk hr
    obtain ⟨hanswers, hothers⟩ := ih (by rw [hinbox, hclosed]) hrest
    have hpending : ∀ k : Notifier, k.isPending (n.requestUpdate m).state = k.isPending m := by
      intro k
      exact hflags k.flag
    simp only [hpending] at hanswers
    constructor
    · rw [requestEach, List.map_cons, hanswer, hanswers]
    · rw [requestEach, hsignals, hothers]
      rfl

end Notifier

namespace Session

variable {config : Config} {past : List Occurrence} {s : Session} {ns : List Notifier}

/-- **Requests after the bridge is gone.** Whatever has happened to a bridge before, and whichever
    of its notifiers are used after it is gone, in any order and however often: no waker runs, and a
    request fails unless the flag of its notifier was up when the bridge went. If it was, the
    request and all later ones fold into one that is gone. Where requests do not fold, no flag is
    ever up, and they all fail. -/
theorem requests_after_close (history : History config past s)
    (held : ∀ n ∈ ns, n ∈ s.notifiers) :
    (Notifier.requestEach ns s.bridge.close).answer =
      ns.map (fun n => if n.isPending s.bridge.mailbox then .ok false else .error .closed) ∧
    (Notifier.requestEach ns s.bridge.close).signals = [] ∧
    (∀ n ∈ ns, ∀ times, (n.requestUpdates times s.bridge.close).answer =
      List.replicate times (if n.isPending s.bridge.mailbox then .ok false else .error .closed)) ∧
    (config.coalesceUpdates = false → ∀ n ∈ ns, n.isPending s.bridge.mailbox = false) := by
  have hu := history.uniform
  have hfolds : ∀ n ∈ ns, s.bridge.close.isRaised n.flag = true → n.coalesce = true := by
    intro n hn hr
    rw [hu.coalesce n (held n hn)]
    exact hu.folds n.flag hr
  obtain ⟨hanswer, hsignals⟩ := Notifier.requestEach_closed (m := s.bridge.close) rfl hfolds
  refine ⟨hanswer, hsignals, ?_, ?_⟩
  · intro n hn times
    have hsame : ∀ k ∈ List.replicate times n, s.bridge.close.isRaised k.flag = true →
        k.coalesce = true := by
      intro k hk
      rw [List.eq_of_mem_replicate hk]
      exact hfolds n hn
    rw [Notifier.requestUpdates_eq_requestEach, (Notifier.requestEach_closed rfl hsame).1,
      List.map_replicate]
    rfl
  · intro hc n _
    exact hu.isPending_eq_false hc n

/-- Of two notifiers, the first has a request in the inbox when the bridge goes. -/
theorem requests_after_close_beside :
    ∃ past s n₁ n₂, History {} past s ∧ (∀ n ∈ [n₁, n₂, n₁], n ∈ s.notifiers) ∧
      (Notifier.requestEach [n₁, n₂, n₁] s.bridge.close).answer =
        [.ok false, .error .closed, .ok false] := by
  let n₁ : Notifier := ⟨⟨1, 1⟩, 0, true⟩
  let n₂ : Notifier := ⟨⟨2, 1⟩, 1, true⟩
  have hstart : History {} [] (start {}) := .start
  have hfirst := hstart.next (.step (.create (h := n₁.handle) rfl rfl))
  have hasked := hfirst.next (.step (.notifier (h := n₁.handle) (n := n₁) rfl
    (congrArg (Option.map _) HandleMap.get?_insert_empty)))
  have hposted := hasked.next (.step (.request (n := n₁) List.mem_cons_self))
  have hvacant : (HandleMap.insert {} n₁.handle n₁.flag).holdsNewer n₂.handle = false := by
    decide +kernel
  have hsecond := hposted.next (.step (.create (h := n₂.handle) rfl rfl))
  have hboth := hsecond.next (.step (.notifier (h := n₂.handle) (n := n₂) rfl
    (congrArg (Option.map _) (HandleMap.get?_insert_self hvacant))))
  have held : ∀ n ∈ [n₁, n₂, n₁], n ∈ [n₂, n₁] := by simp
  obtain ⟨hanswer, -⟩ := requests_after_close hboth held
  exact ⟨_, _, n₁, n₂, hboth, held, hanswer⟩

/-- A request that waits when the bridge goes leaves its flag up for good. -/
theorem not_forall_closed_fails :
    ¬ ∀ config past s n, History config past s → n ∈ s.notifiers →
      (n.requestUpdate s.bridge.close).answer = .error .closed := by
  intro hall
  let n : Notifier := ⟨⟨1, 1⟩, 0, true⟩
  have hstart : History {} [] (start {}) := .start
  have hcreate := hstart.next (.step (.create (h := n.handle) rfl rfl))
  have hasked := hcreate.next (.step (.notifier (h := n.handle) (n := n) rfl
    (congrArg (Option.map _) HandleMap.get?_insert_empty)))
  have hposted := hasked.next (.step (.request (n := n) List.mem_cons_self))
  have hfails := hall _ _ _ n hposted List.mem_cons_self
  cases hfails

end Session

end AccessBridge
