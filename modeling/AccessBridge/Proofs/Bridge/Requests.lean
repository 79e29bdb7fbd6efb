import AccessBridge.Proofs.Bridge.Flags

/-!
# No request is lost

A notifier that folds asks the flag whether a request waits, and posts only if the flag is down. So
no request is lost as long as a flag that is up always has a request that waits
(`Session.Folding.waits`), and one that waits is delivered or waits on
(`Session.RunWithin.delivered_or_waits`). From the two: `Session.no_request_lost`. A notifier speaks
for the adapter that it was handed out for. Should its handle be handed out again, after `2 ^ 31`
uses of one slot, it is not a notifier of the new adapter, whose flag is another one.
-/

namespace AccessBridge.Session

variable {config : Config} {P : Session → Prop} {s s' : Session} {tr : List Happening}
  {e : Happening} {n : Notifier} {h : Handle}

/-! ## A request that waits -/

/-- A delivery for the handle has started along the way, and the host was told in it. Starting means
    that the flag goes down: a request made after that is not folded into this delivery. -/
def Delivered (h : Handle) (tr : List Happening) : Prop := [.lowered h, .told h].Sublist tr

/-- A request that waits goes on waiting until its flag is lowered. -/
theorem Step.waits_or_lowered (step : Step s e s') (hw : h ∈ s.waiting) :
    h ∈ s'.waiting ∨ e = .lowered h ∧ ∃ left, s'.stage = .lowered h left := by
  cases step with
  | create _ ok =>
    obtain ⟨-, -, hmailbox, -, -⟩ := Bridge.create_eq_ok ok
    rw [waiting, queue, ← Mailbox.inbox_newFlag, ← hmailbox] at hw
    exact .inl hw
  | request _ =>
    rcases List.mem_append.1 hw with hw | hw
    · exact .inl (List.mem_append_left _ hw)
    · exact .inl (List.mem_append_right _ (Notifier.messages_requestUpdate_grow.subset hw))
  | take ready some =>
    rw [waiting, queue, ready, (Mailbox.take?_eq_some some).1] at hw
    exact .inl hw
  | lower taken =>
    rw [waiting, taken] at hw
    rcases List.mem_cons.1 hw with rfl | hw
    · exact .inr ⟨rfl, _, rfl⟩
    · refine .inl ?_
      rw [waiting, queue, withStage, withMailbox, Bridge.inbox_lowerFlag]
      exact hw
  | destroy | notifier => exact .inl hw
  | begin idle => exact .inl (by rwa [waiting, idle] at hw)
  | tell lowered | drop lowered => exact .inl (by rwa [waiting, lowered] at hw)
  | finish ready => exact .inl (by rwa [waiting, ready] at hw)

/-- Once the flag is lowered, the host is told next, as long as the adapter lives. -/
theorem Step.lowered_or_told {left : Nat} (step : Step s e s') (live : s.isLive h = true)
    (lowered : s.stage = .lowered h left) : s'.stage = .lowered h left ∨ e = .told h := by
  cases step with
  | request => exact .inl lowered
  | tell here =>
    rw [here] at lowered
    cases lowered
    exact .inr rfl
  | drop here gone =>
    rw [here] at lowered
    cases lowered
    cases live.symm.trans gone
  | create idle | destroy _ idle | notifier idle | begin idle =>
    rw [idle] at lowered
    cases lowered
  | take ready | finish ready =>
    rw [ready] at lowered
    cases lowered
  | lower taken =>
    rw [taken] at lowered
    cases lowered

theorem RunWithin.lowered_or_told {left : Nat} (run : RunWithin (·.isLive h = true) s tr s')
    (lowered : s.stage = .lowered h left) : s'.stage = .lowered h left ∨ .told h ∈ tr := by
  induction run with
  | refl => exact .inl lowered
  | step live first _ ih =>
    rcases first.lowered_or_told live lowered with hl | rfl
    · exact (ih hl).imp_right (List.mem_cons_of_mem _)
    · exact .inr List.mem_cons_self

/-- A request that waits is delivered, is being delivered, or waits still. -/
theorem RunWithin.delivered_or_waits (run : RunWithin (·.isLive h = true) s tr s')
    (hw : h ∈ s.waiting) :
    Delivered h tr ∨ h ∈ s'.waiting ∨ ∃ left, s'.stage = .lowered h left := by
  induction run with
  | refl => exact .inr (.inl hw)
  | step _ first rest ih =>
    rcases first.waits_or_lowered hw with hw | ⟨rfl, left, hl⟩
    · exact (ih hw).imp_left (List.Sublist.cons _)
    · -- The delivery has started here, and `ih` says nothing of a request that waits no longer.
      rcases rest.lowered_or_told hl with hl | htold
      · exact .inr (.inr ⟨left, hl⟩)
      · exact .inl (List.Sublist.cons_cons _ (List.singleton_sublist.2 htold))

/-- A request by a notifier of an adapter is accepted and waits, as its own entry of the inbox or as
    part of another one: it folds only if the flag is up, and this flag is up only while one
    waits. -/
theorem Step.waits_of_requested {answer : Except InboxClosed Bool}
    (step : Step s (.requested n answer) s') (hs : s.Sound)
    (hf : s.bridge.config.coalesceUpdates = true → s.Folding) (hn : n.handle = h)
    (own : s.bridge.config.coalesceUpdates = true → s.bridge.notifier? h = some n) :
    (answer = .ok true ∨ answer = .ok false) ∧ h ∈ s'.waiting := by
  cases step with
  | request held =>
    obtain ⟨-, hcoalesce⟩ := hs.notifiers n held
    rcases n.requestUpdate_cases hs.isOpen with ⟨hc, hr, ha, hm⟩ | ⟨-, ha, hm⟩
    · have folds := hcoalesce.symm.trans hc
      obtain ⟨f, hpending, rfl⟩ := Option.map_eq_some_iff.1 (own folds)
      refine ⟨.inr ha, ?_⟩
      rw [hm]
      exact (hf folds).waits h f hpending hr
    · refine ⟨.inl ha, ?_⟩
      rw [hm, ← hn]
      exact List.mem_append_right _ (List.mem_append_right _ List.mem_cons_self)

/-! ## Whole runs -/

theorem Step.config_eq (step : Step s e s') : s'.bridge.config = s.bridge.config := by
  cases step with
  | create _ ok => exact (Bridge.create_eq_ok ok).2.2.2.2
  | _ => rfl

theorem RunWithin.config_eq (run : RunWithin P s tr s') : s'.bridge.config = s.bridge.config := by
  induction run with
  | refl => rfl
  | step _ first _ ih => exact ih.trans first.config_eq

theorem Run.invariants (run : Run (start config) tr s) :
    s.Sound ∧ (s.bridge.config.coalesceUpdates = true → s.Folding) :=
  ⟨run.sound sound_start, fun folds =>
    run.folding sound_start (folding_start ((congrArg _ run.config_eq).symm.trans folds))⟩

/-- Until handles run out, any notifier of an adapter that is alive is the one that the bridge would
    hand out for it now. -/
theorem Sound.notifier?_eq (hs : s.Sound) (hh : s.Housed) (held : n ∈ s.notifiers)
    (live : s.isLive n.handle = true) : s.bridge.notifier? n.handle = some n := by
  obtain ⟨hflag, hcoalesce⟩ := hs.notifiers n held
  obtain ⟨f, hpending⟩ := Option.isSome_iff_exists.1 ((hh.flagged n.handle).2 live)
  have hsame : f = n.flag := flag_unique hh.growing.nodup (hs.pending _ _ hpending) hflag
  rw [Bridge.notifier?, hpending, Option.map_some, hsame, ← hcoalesce]

theorem mem_waiting : h ∈ s.waiting ↔ h ∈ s.queue ∨ s.stage.unlowered? = some h := by
  rw [waiting, List.mem_append, Option.mem_toList, or_comm]

/-- A request by a notifier of an adapter is never lost. -/
theorem RunWithin.kept {before after : List Happening} {s₀ s₁ : Session}
    {answer : Except InboxClosed Bool} (run : Run (start config) before s₀) (hn : n.handle = h)
    (own : config.coalesceUpdates = true → s₀.bridge.notifier? h = some n)
    (step : Step s₀ (.requested n answer) s₁) (rest : RunWithin (·.isLive h = true) s₁ after s) :
    (answer = .ok true ∨ answer = .ok false) ∧
    (Delivered h after ∨ h ∈ s.queue ∨ s.stage.inHand? = some h) := by
  obtain ⟨hs, hf⟩ := run.invariants
  have own : s₀.bridge.config.coalesceUpdates = true → s₀.bridge.notifier? h = some n := by
    rw [run.config_eq]
    exact own
  obtain ⟨hanswer, hw⟩ := step.waits_of_requested hs hf hn own
  refine ⟨hanswer, ?_⟩
  rcases rest.delivered_or_waits hw with hd | hw | ⟨left, hl⟩
  · exact .inl hd
  · rcases mem_waiting.1 hw with hw | htaken
    · exact .inr (.inl hw)
    · exact .inr (.inr (Stage.inHand?_of_unlowered? htaken))
  · exact .inr (.inr (hl ▸ rfl))

/-- A flag of an adapter that is alive tells whether a request for it waits. If it is down, those
    that wait are left over from older adapters under the same handle, and there are fewer of them
    than the handle has had adapters. -/
theorem Folding.tells (hf : s.Folding) (hs : s.Sound) (own : s.bridge.notifier? h = some n) :
    (n.isPending s.bridge.mailbox = true → h ∈ s.waiting) ∧
    (n.isPending s.bridge.mailbox = false → s.waiting.count h < s.issued.count h) := by
  obtain ⟨f, hpending, rfl⟩ := Option.map_eq_some_iff.1 own
  constructor
  · exact hf.waits h f hpending
  · intro hdown
    exact Nat.lt_of_le_of_lt (hf.covered h) (hs.raisedCount_lt (hs.pending h f hpending) hdown)

end AccessBridge.Session
