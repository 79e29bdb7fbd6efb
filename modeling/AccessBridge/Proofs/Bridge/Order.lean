import AccessBridge.Proofs.Bridge.Notifiers

/-!
# Requests in order

Requests leave the inbox in the order in which they entered it, and each leaves it once
(`Session.RunWithin.in_order`). A call of `Bridge.processPending` handles a number of requests that
is settled when it begins, so nobody who posts meanwhile can keep it busy (`Session.Progress`). The
host is told of a request only if the adapter is alive. From the three:
`Session.delivery_in_order`.
-/

namespace AccessBridge

/-- The request that has been dealt with: the host has been told, or the adapter is gone. -/
def Happening.handled? : Happening → Option Handle
  | told h | dropped h => some h
  | _ => none

/-- How many requests the interface thread has still to handle, at most. -/
def Stage.quota : Stage → Nat
  | idle => 0
  | ready left => left
  | taken _ left | lowered _ left => left + 1

/-- How many parts of the delivery are still to come, at most. -/
def Stage.work : Stage → Nat
  | idle => 0
  | ready left => 3 * left + 1
  | taken _ left => 3 * left + 3
  | lowered _ left => 3 * left + 2

namespace Session

variable {config : Config} {P : Session → Prop} {past : List Occurrence} {s s' s'' : Session}
  {tr tr' : List Happening} {e : Happening} {h : Handle}

/-! ## What enters the inbox and what leaves it -/

/-- The requests that were posted, the oldest first. -/
def posted (tr : List Happening) : List Handle := tr.filterMap Happening.posted?

/-- The requests that were dealt with, the oldest first. -/
def handled (tr : List Happening) : List Handle := tr.filterMap Happening.handled?

theorem posted_append : posted (tr ++ tr') = posted tr ++ posted tr' := List.filterMap_append

theorem handled_append : handled (tr ++ tr') = handled tr ++ handled tr' := List.filterMap_append

/-- The request in hand and those in the inbox, the oldest first. -/
def backlog (s : Session) : List Handle := s.stage.inHand?.toList ++ s.queue

/-- A request that is taken comes into the interface thread's hand, and leaves it when it has been
    dealt with. -/
theorem Step.inHand (step : Step s e s') : s.stage.inHand?.toList ++ e.taken?.toList =
    e.handled?.toList ++ s'.stage.inHand?.toList := by
  cases step with
  | begin idle | take idle | lower idle | tell idle | drop idle | finish idle =>
    rw [idle]
    rfl
  | create | destroy | notifier | request => exact List.append_nil _

theorem Step.in_order (step : Step s e s') :
    s.backlog ++ posted [e] = handled [e] ++ s'.backlog := by
  have hposted : posted [e] = e.posted?.toList := by
    rw [posted, List.filterMap_cons]
    cases e.posted? <;> rfl
  have hhandled : handled [e] = e.handled?.toList := by
    rw [handled, List.filterMap_cons]
    cases e.handled? <;> rfl
  rw [hposted, hhandled, backlog, backlog, List.append_assoc, step.inbox.1, ← List.append_assoc,
    step.inHand, List.append_assoc]

/-- What is dealt with comes first among what waited and what was posted, in this order. -/
theorem RunWithin.in_order (run : RunWithin P s tr s') :
    s.backlog ++ posted tr = handled tr ++ s'.backlog := by
  induction run with
  | refl => exact List.append_nil _
  | step _ first _ ih =>
    rw [← List.singleton_append, posted_append, handled_append, ← List.append_assoc,
      first.in_order, List.append_assoc, ih, List.append_assoc]

/-! ## A call in progress -/

/-- What a call has come to, from a moment within it to another one. -/
structure Progress (s : Session) (tr : List Happening) (s' : Session) : Prop where
  busy : s'.stage ≠ .idle
  not_begun : .begun ∉ tr
  registry_eq : s'.bridge.registry = s.bridge.registry
  quota : (handled tr).length + s'.stage.quota = s.stage.quota
  told_eq : told tr = (handled tr).filter s.isLive
  work : tr.countP (·.isOwn) + s'.stage.work = s.stage.work

theorem Progress.refl (busy : s.stage ≠ .idle) : Progress s [] s where
  busy := busy
  not_begun := List.not_mem_nil
  registry_eq := rfl
  quota := Nat.zero_add _
  told_eq := rfl
  work := Nat.zero_add _

theorem Progress.append (before : Progress s tr s') (after : Progress s' tr' s'') :
    Progress s (tr ++ tr') s'' where
  busy := after.busy
  not_begun := by
    rw [List.mem_append, not_or]
    exact ⟨before.not_begun, after.not_begun⟩
  registry_eq := after.registry_eq.trans before.registry_eq
  quota := by
    have hbefore := before.quota
    have hafter := after.quota
    rw [handled_append, List.length_append]
    omega
  told_eq := by
    have hlive : s'.isLive = s.isLive := by
      funext h
      rw [isLive, before.registry_eq, isLive]
    rw [told_append, handled_append, List.filter_append, before.told_eq, after.told_eq, hlive]
  work := by
    have hbefore := before.work
    have hafter := after.work
    rw [List.countP_append]
    omega

/-- Within a call, its own parts and the requests of others are all that happens. Each part that
    does not end the call brings its end nearer. -/
theorem Step.progress (step : Step s e s') (busy : s.stage ≠ .idle) (unfinished : e ≠ .finished) :
    Progress s [e] s' := by
  cases step with
  | create idle | destroy _ idle | notifier idle | begin idle => exact absurd idle busy
  | request => exact ⟨busy, by simp, rfl, Nat.zero_add _, rfl, Nat.zero_add _⟩
  | take ready =>
    refine ⟨nofun, by simp, rfl, ?_, rfl, ?_⟩
    · rw [ready]
      exact Nat.zero_add _
    · rw [ready]
      exact Nat.add_comm 1 _
  | lower taken =>
    refine ⟨nofun, by simp, rfl, ?_, rfl, ?_⟩
    · rw [taken]
      exact Nat.zero_add _
    · rw [taken]
      exact Nat.add_comm 1 _
  | @tell h _ lowered live =>
    refine ⟨nofun, by simp, rfl, ?_, ?_, ?_⟩
    · rw [lowered]
      exact Nat.add_comm 1 _
    · change [h] = [h].filter s.isLive
      rw [List.filter_cons_of_pos live, List.filter_nil]
    · rw [lowered]
      exact Nat.add_comm 1 _
  | @drop h _ lowered gone =>
    refine ⟨nofun, by simp, rfl, ?_, ?_, ?_⟩
    · rw [lowered]
      exact Nat.add_comm 1 _
    · change [] = [h].filter s.isLive
      rw [List.filter_cons_of_neg (by simp [gone]), List.filter_nil]
    · rw [lowered]
      exact Nat.add_comm 1 _
  | finish => exact absurd rfl unfinished

theorem RunWithin.progress (run : RunWithin P s tr s') (busy : s.stage ≠ .idle)
    (unfinished : .finished ∉ tr) : Progress s tr s' := by
  induction run with
  | refl => exact .refl busy
  | step _ first _ ih =>
    rw [List.mem_cons, not_or] at unfinished
    have hfirst := first.progress busy (Ne.symm unfinished.1)
    exact hfirst.append (ih hfirst.busy unfinished.2)

/-- A call of `Bridge.processPending` from its beginning to its end, with what others do
    meanwhile. -/
structure WholeCall (s : Session) (tr : List Happening) (s' : Session) : Prop where
  run : Run s (.begun :: tr ++ [.finished]) s'
  unfinished : .finished ∉ tr

/-- A call begins when the interface thread is idle, and ends when it has reached its limit or
    nothing is left. -/
theorem WholeCall.phases (call : WholeCall s tr s') : s.stage = .idle ∧
    ∃ last left, Run (s.withStage (.ready s.bridge.deliveryLimit)) tr last ∧
      last.stage = .ready left ∧ (left = 0 ∨ last.queue = []) ∧ s' = last.withStage .idle := by
  obtain ⟨hrun, -⟩ := call
  cases hrun with
  | step _ first rest =>
    cases first with
    | begin idle =>
      obtain ⟨last, hrun, hlast⟩ := Run.of_append rest
      cases hlast with
      | step _ hfinish hnil =>
        cases hnil
        cases hfinish with
        | finish ready done => exact ⟨idle, last, _, hrun, ready, done, rfl⟩

/-- What a whole call comes to. -/
theorem WholeCall.outcome (call : WholeCall s tr s') :
    handled tr ++ s'.queue = s.queue ++ posted tr ∧
    (handled tr).length ≤ s.bridge.deliveryLimit ∧
    ((handled tr).length < s.bridge.deliveryLimit → s'.queue = []) ∧
    told tr = (handled tr).filter s.isLive := by
  obtain ⟨-, last, left, hrun, hready, hdone, rfl⟩ := call.phases
  have horder := hrun.in_order
  have hprogress := hrun.progress (by simp [withStage]) call.unfinished
  have hquota := hprogress.quota
  rw [backlog, backlog, hready] at horder
  rw [hready] at hquota
  have hquota : (handled tr).length + left = s.bridge.deliveryLimit := hquota
  refine ⟨horder.symm, by omega, ?_, hprogress.told_eq⟩
  intro hfew
  rcases hdone with hzero | hempty
  · omega
  · exact hempty

/-- The bridge keeps its batch size. -/
theorem Occurs.batchSize_eq {o : Occurrence} (now : Occurs s o s') :
    s'.bridge.mailbox.inbox.batchSize = s.bridge.mailbox.inbox.batchSize := by
  cases now with
  | step step => rw [step.inbox.2]
  | createInRegistry _ ok => rw [(Bridge.createInRegistry_eq_ok ok).2]
  | _ => rfl

theorem History.batchSize_eq (history : History config past s) :
    s.bridge.mailbox.inbox.batchSize = max config.drainBatchSize 1 := by
  induction history with
  | start => rfl
  | next _ now ih => exact now.batchSize_eq.trans ih

/-- The steps of a history, the oldest first. -/
def steps : List Occurrence → List Happening
  | [] => []
  | .stepped e :: past => steps past ++ [e]
  | _ :: past => steps past

/-- Only steps move requests. -/
theorem Occurs.queue_eq {o : Occurrence} (now : Occurs s o s') (hstep : ∀ e, o ≠ .stepped e) :
    s'.queue = s.queue ∧ s'.stage = s.stage := by
  cases now with
  | step => exact absurd rfl (hstep _)
  | createInRegistry _ ok =>
    rw [queue, queue, (Bridge.createInRegistry_eq_ok ok).2]
    exact ⟨rfl, rfl⟩
  | _ => exact ⟨rfl, rfl⟩

theorem History.in_order (history : History config past s) :
    posted (steps past) = handled (steps past) ++ s.backlog := by
  induction history with
  | start => rfl
  | @next past s s' o _ now ih =>
    cases o with
    | stepped e =>
      cases now with
      | step step =>
        have horder := step.in_order
        rw [steps, posted_append, handled_append, ih, List.append_assoc, horder, List.append_assoc]
    | _ =>
      obtain ⟨hqueue, hstage⟩ := now.queue_eq nofun
      rw [backlog, hqueue, hstage]
      exact ih

end Session

end AccessBridge
