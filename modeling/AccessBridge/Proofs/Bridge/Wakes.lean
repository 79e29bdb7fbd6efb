import AccessBridge.Proofs.Bridge.Order

/-!
# Wakes

The waker runs after every post, to have the host call `Bridge.processPending`. A host that calls
at most once for each wake is owed as many calls as requests wait, or more (`Session.Covered`): a
call that finds a request takes one at least, and whoever posts meanwhile runs the waker again. So
no request is left waiting for a wake that never comes (`Session.requests_have_wakes`).
-/

namespace AccessBridge

/-- Whether a waker runs. -/
def Signal.isWoken : Signal → Bool
  | woken _ => true
  | _ => false

namespace Session

/-- The waker that was set last. -/
def waker? : List Occurrence → Option String
  | [] => none
  | .wakerSet waker :: _ => some waker
  | _ :: past => waker? past

/-- How often a waker has run. -/
def wakes : List Occurrence → Nat
  | [] => 0
  | .stepped e :: past => wakes past + (e.sent (waker? past)).countP (·.isWoken)
  | _ :: past => wakes past

/-- How many calls of `Bridge.processPending` have begun. -/
def calls : List Occurrence → Nat
  | [] => 0
  | .stepped .begun :: past => calls past + 1
  | _ :: past => calls past

/-- Requests were made only after a waker had been set. -/
def WakerFirst : List Occurrence → Prop
  | [] => True
  | .stepped (.requested ..) :: past => (∃ waker, .wakerSet waker ∈ past) ∧ WakerFirst past
  | _ :: past => WakerFirst past

/-- Calls began only while there were wakes for which none had begun. -/
def Heeded : List Occurrence → Prop
  | [] => True
  | .stepped .begun :: past => calls past < wakes past ∧ Heeded past
  | _ :: past => Heeded past

variable {config : Config} {past : List Occurrence} {s s' : Session} {tr : List Happening}
  {o : Occurrence} {e : Happening} {waker : String}

theorem WakerFirst.tail (hw : WakerFirst (o :: past)) : WakerFirst past := by
  cases o with
  | stepped e =>
    cases e with
    | requested => exact hw.2
    | _ => exact hw
  | _ => exact hw

theorem Heeded.tail (hh : Heeded (o :: past)) : Heeded past := by
  cases o with
  | stepped e =>
    cases e with
    | begun => exact hh.2
    | _ => exact hh
  | _ => exact hh

/-! ## What the waker does -/

theorem exists_waker (hset : ∃ waker, .wakerSet waker ∈ past) :
    ∃ waker, waker? past = some waker := by
  induction past with
  | nil => simp at hset
  | cons o past ih =>
    cases o with
    | wakerSet waker => exact ⟨waker, rfl⟩
    | _ => exact ih (by simpa using hset)

/-- The waker of the inbox is the one that was set last. -/
theorem History.waker_eq (history : History config past s) :
    s.bridge.mailbox.inbox.waker = waker? past := by
  induction history with
  | start => rfl
  | next _ now ih =>
    cases now with
    | step step => exact step.waker_eq.trans ih
    | createInRegistry _ ok =>
      rw [(Bridge.createInRegistry_eq_ok ok).2]
      exact ih
    | setWaker => rfl
    | _ => exact ih

/-- Where there is a waker, it runs once for every request that is posted. -/
theorem countP_isWoken_sent :
    (e.sent (some waker)).countP (·.isWoken) = e.posted?.toList.length := by
  cases e with
  | requested n answer =>
    rcases answer with _ | posted
    · rfl
    · cases posted <;> rfl
  | _ => rfl

/-- What happens along a run wakes the host as often as the run sends the signal for it. -/
theorem wakes_run : wakes ((tr.map .stepped).reverse ++ past) =
    wakes past + (tr.flatMap (·.sent (waker? past))).countP (·.isWoken) := by
  induction tr generalizing past with
  | nil => rfl
  | cons e tr ih =>
    rw [List.map_cons, List.reverse_cons, List.append_assoc, List.singleton_append, ih,
      List.flatMap_cons, List.countP_append, ← Nat.add_assoc]
    rfl

theorem calls_of_ne (hne : e ≠ .begun) : calls (.stepped e :: past) = calls past := by
  cases e with
  | begun => exact absurd rfl hne
  | _ => rfl

theorem calls_run (hnone : .begun ∉ tr) :
    calls ((tr.map .stepped).reverse ++ past) = calls past := by
  induction tr generalizing past with
  | nil => rfl
  | cons e tr ih =>
    rw [List.mem_cons, not_or] at hnone
    rw [List.map_cons, List.reverse_cons, List.append_assoc, List.singleton_append, ih hnone.2,
      calls_of_ne (Ne.symm hnone.1)]

/-! ## Requests and the calls owed for them -/

/-- What is posted and what is taken make up how the inbox grows. -/
theorem Step.length_queue (step : Step s e s') :
    s.queue.length + e.posted?.toList.length = e.taken?.toList.length + s'.queue.length := by
  have hlength := congrArg List.length step.inbox.1
  rwa [List.length_append, List.length_append] at hlength

/-- A wake that has not been answered is left for every request in the inbox. For one of them it
    may be the wake that is being answered, as long as the call has still to take a request. -/
def Covered (past : List Occurrence) (s : Session) : Prop :=
  s.queue.length + calls past ≤ wakes past ∨
  (∃ left, s.stage = .ready (left + 1)) ∧ 0 < s.queue.length ∧
    s.queue.length + calls past ≤ wakes past + 1

theorem deliveryLimit_pos (hbatch : 0 < s.bridge.mailbox.inbox.batchSize)
    (hwaits : 0 < s.queue.length) : 0 < s.bridge.deliveryLimit := by
  unfold Bridge.deliveryLimit
  split
  · exact hwaits
  · exact hbatch

/-- A request is covered by the wake that it causes. A call that begins while requests wait may take
    one, and until it has done so, it cannot end. -/
theorem Step.covered (step : Step s e s') (hbatch : 0 < s.bridge.mailbox.inbox.batchSize)
    (hwoken : (e.sent (waker? past)).countP (·.isWoken) = e.posted?.toList.length)
    (heeded : Heeded (.stepped e :: past)) (hc : Covered past s) :
    Covered (.stepped e :: past) s' := by
  have hlength := step.length_queue
  rw [Covered, wakes, hwoken]
  rcases hc with hle | ⟨⟨left, ready⟩, hwaits, hle⟩
  · cases step with
    | begin idle =>
      have hwake : calls past < wakes past := heeded.1
      change s.queue.length + (calls past + 1) ≤ wakes past ∨
        (∃ left, Stage.ready s.bridge.deliveryLimit = .ready (left + 1)) ∧ 0 < s.queue.length ∧
          s.queue.length + (calls past + 1) ≤ wakes past + 1
      rcases Nat.eq_zero_or_pos s.queue.length with hempty | hwaits
      · left
        omega
      · right
        obtain ⟨left, hlimit⟩ := Nat.exists_eq_add_one.2 (deliveryLimit_pos hbatch hwaits)
        exact ⟨⟨left, congrArg Stage.ready hlimit⟩, hwaits, by omega⟩
    | _ =>
      left
      rw [calls_of_ne (by simp)]
      omega
  -- The call has still to take a request, so it cannot end before it has taken one, and then the
  -- wake that it answers is accounted for.
  · cases step with
    | @request n _ =>
      right
      have hnone :
          (Happening.requested n (n.requestUpdate s.bridge.mailbox).answer).taken? = none := rfl
      rw [hnone, Option.toList_none, List.length_nil] at hlength
      rw [calls_of_ne (by simp)]
      exact ⟨⟨left, ready⟩, by omega, by omega⟩
    | @take h _ _ _ _ =>
      left
      have hone : (Happening.taken h).taken? = some h := rfl
      rw [hone, Option.toList_some, List.length_singleton] at hlength
      rw [calls_of_ne (by simp)]
      omega
    | finish here done =>
      rw [ready] at here
      cases here
      rcases done with hzero | hempty
      · cases hzero
      · rw [hempty] at hwaits
        cases hwaits
    | create idle | destroy _ idle | notifier idle | begin idle | lower idle | tell idle
    | drop idle =>
      rw [ready] at idle
      cases idle

/-- Every other occurrence leaves requests and wakes as they are. -/
theorem Occurs.covered (now : Occurs s o s') (hbatch : 0 < s.bridge.mailbox.inbox.batchSize)
    (first : WakerFirst (o :: past)) (heeded : Heeded (o :: past)) (hc : Covered past s) :
    Covered (o :: past) s' := by
  cases o with
  | stepped e =>
    cases now with
    | step step =>
      refine step.covered hbatch ?_ heeded hc
      cases e with
      | requested n answer =>
        obtain ⟨waker, hset⟩ := exists_waker first.1
        rw [hset]
        exact countP_isWoken_sent
      | _ => rfl
  | _ =>
    obtain ⟨hqueue, hstage⟩ := now.queue_eq nofun
    rw [Covered, hqueue, hstage]
    exact hc

theorem History.covered (history : History config past s) (first : WakerFirst past)
    (heeded : Heeded past) : Covered past s := by
  induction history with
  | start => exact .inl (Nat.le_refl _)
  | next before now ih =>
    have hbatch := before.batchSize_eq
    exact now.covered (by omega) first heeded (ih first.tail heeded.tail)

/-! ## Calls that reach the host -/

/-- A call of `Bridge.processPending` is one call more, and as many wakes more as it lets others
    notice. -/
theorem History.processPending (history : History config past s) (idle : s.stage = .idle)
    (host : Host) (held : ∀ ns ∈ host.reactions, ∀ n ∈ ns, n ∈ s.notifiers) :
    ∃ now, History config (now ++ past)
        { s with bridge := (s.bridge.processPending host).state.1 } ∧
      wakes (now ++ past) =
        wakes past + (s.bridge.processPending host).signals.countP (·.isWoken) ∧
      calls (now ++ past) = calls past + 1 := by
  obtain ⟨tr, hsends, -, hunfinished⟩ := processPending_sends host idle held
  obtain ⟨-, last, left, hrun, -⟩ := WholeCall.phases ⟨hsends.run, hunfinished⟩
  refine ⟨_, history.run hsends.run, ?_, ?_⟩
  · rw [wakes_run, hsends.countP_eq fun _ _ => rfl, history.waker_eq]
  · have hnone : .begun ∉ tr ++ [.finished] := by
      have hprogress := hrun.progress (by simp [withStage]) hunfinished
      simpa using hprogress.not_begun
    rw [List.cons_append, List.map_cons, List.reverse_cons, List.append_assoc, calls_run hnone]
    rfl

/-- A call of `Bridge.requestUpdate` is no call to deliver requests, and as many wakes more as it
    lets others notice. -/
theorem History.requestUpdate (history : History config past s) (host : Host)
    (held : ∀ ns ∈ host.reactions, ∀ n ∈ ns, n ∈ s.notifiers) (h : Handle) :
    ∃ now, History config (now ++ past)
        { s with bridge := (s.bridge.requestUpdate host h).state.1 } ∧
      wakes (now ++ past) =
        wakes past + (s.bridge.requestUpdate host h).signals.countP (·.isWoken) ∧
      calls (now ++ past) = calls past := by
  obtain ⟨tr, signals, hsends, hsignals, hothers⟩ := requestUpdate_run host held h
  refine ⟨_, history.run hsends.run, ?_, ?_⟩
  · have hdirect : (if s.isLive h then [Signal.invalidated] else []).countP (·.isWoken) = 0 := by
      split <;> rfl
    rw [wakes_run, hsignals, List.countP_append, hdirect, Nat.zero_add,
      hsends.countP_eq fun _ _ => rfl, history.waker_eq]
  · apply calls_run
    intro hmem
    cases hothers _ hmem

/-- **A request that waits has a wake.** Consider a bridge with a waker that is set before the first
    request, and a host that calls `Bridge.processPending` at most once for each wake. Whatever the
    batch size, whether or not requests fold, and however requests fall between the calls and the
    parts of a delivery, also those that the host makes while it is told:

    * Between two operations, no more requests wait than there are wakes for which no call has
      begun. So if a call has begun for every wake, none waits.
    * A wake is a run of the waker: a request on any notifier counts as many as it runs, and so does
      a call of `Bridge.processPending`, and one of `Bridge.requestUpdate`. -/
theorem requests_have_wakes (history : History config past s) (first : WakerFirst past)
    (heeded : Heeded past) :
    (s.stage = .idle → s.queue.length + calls past ≤ wakes past ∧
      (calls past = wakes past → s.queue = [])) ∧
    (∀ n, wakes (.stepped (.requested n (n.requestUpdate s.bridge.mailbox).answer) :: past) =
      wakes past + (n.requestUpdate s.bridge.mailbox).signals.countP (·.isWoken)) ∧
    (∀ host, s.stage = .idle → (∀ ns ∈ host.reactions, ∀ n ∈ ns, n ∈ s.notifiers) →
      (∃ now, History config (now ++ past)
          { s with bridge := (s.bridge.processPending host).state.1 } ∧
        wakes (now ++ past) =
          wakes past + (s.bridge.processPending host).signals.countP (·.isWoken) ∧
        calls (now ++ past) = calls past + 1) ∧
      ∀ h, ∃ now, History config (now ++ past)
          { s with bridge := (s.bridge.requestUpdate host h).state.1 } ∧
        wakes (now ++ past) =
          wakes past + (s.bridge.requestUpdate host h).signals.countP (·.isWoken) ∧
        calls (now ++ past) = calls past) := by
  refine ⟨?_, ?_, ?_⟩
  · intro idle
    have hle : s.queue.length + calls past ≤ wakes past := by
      rcases history.covered first heeded with hle | ⟨⟨left, ready⟩, -⟩
      · exact hle
      · rw [idle] at ready
        cases ready
    refine ⟨hle, ?_⟩
    intro heq
    apply List.eq_nil_of_length_eq_zero
    omega
  · intro n
    rw [sent_requested, history.waker_eq]
    rfl
  · intro host idle held
    exact ⟨history.processPending idle host held, history.requestUpdate host held⟩

/-- Batches of one: a call delivers one of two requests while the host asks once more. Two wakes
    are left for the two requests that wait. -/
theorem requests_have_wakes_asking_again :
    ∃ config past s, History config past s ∧ WakerFirst past ∧ Heeded past ∧ s.stage = .idle ∧
      s.queue = [⟨1, 1⟩, ⟨1, 1⟩] ∧ calls past = 1 ∧ s.queue.length + 1 ≤ wakes past ∧
      wakes past = 3 := by
  let config : Config := { drainBatchSize := 1, coalesceUpdates := false }
  let n : Notifier := ⟨⟨1, 1⟩, 0, false⟩
  have hstart : History config [] (start config) := .start
  have hset := hstart.next (.setWaker "wake" rfl)
  have hcreated := hset.next (.step (.create (h := n.handle) rfl rfl))
  have hasked := hcreated.next (.step (.notifier (h := n.handle) (n := n) rfl
    (congrArg (Option.map _) HandleMap.get?_insert_empty)))
  have hposted := hasked.next (.step (.request (n := n) List.mem_cons_self))
  have hagain := hposted.next (.step (.request (n := n) List.mem_cons_self))
  have hbegun := hagain.next (.step (.begin rfl))
  have htaken := hbegun.next (.step (.take (h := n.handle) rfl rfl))
  have hlowered := htaken.next (.step (.lower rfl))
  have htold := hlowered.next (.step (.tell rfl rfl))
  have hreposted := htold.next (.step (.request (n := n) List.mem_cons_self))
  have hfinished := hreposted.next (.step (.finish rfl (.inl rfl)))
  let before : List Occurrence := [.stepped (.requested n (.ok true)),
    .stepped (.requested n (.ok true)), .stepped (.handedOut n), .stepped (.created n.handle),
    .wakerSet "wake"]
  let past : List Occurrence := [.stepped .finished, .stepped (.requested n (.ok true)),
    .stepped (.told n.handle), .stepped (.lowered n.handle), .stepped (.taken n.handle),
    .stepped .begun] ++ before
  have history : History config past _ := hfinished
  have first : WakerFirst past := by simp [past, before, WakerFirst]
  have hwakes : calls before < wakes before := by decide
  have heeded : Heeded past := ⟨hwakes, trivial⟩
  obtain ⟨hidle, -⟩ := requests_have_wakes history first heeded
  exact ⟨config, past, _, history, first, heeded, rfl, rfl, rfl, (hidle rfl).1, rfl⟩

end Session

end AccessBridge
