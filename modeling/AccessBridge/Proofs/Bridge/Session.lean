import AccessBridge.Proofs.Bridge.Mailbox
import AccessBridge.Bridge

/-!
# Runs of a bridge

A notifier may be used on any thread and at any moment, also between two things that the interface
thread does while it delivers requests. A `Session` is a bridge with the notifiers handed out and
what its interface thread is at, and `Step` is one thing that happens: a call on the bridge, a
request, or one part of a delivery (a request is taken, its flag is lowered, the host is told). A
call of `Bridge.processPending` is a run in which only the host makes requests, each while it is
told (`processPending_run`).
-/

namespace AccessBridge

/-- What the interface thread is at. While it delivers requests, it may take `left` more. -/
inductive Stage where
  | idle
  /-- Between two requests. -/
  | ready (left : Nat)
  /-- A request is out of the inbox and its flag has not been lowered yet. -/
  | taken (h : Handle) (left : Nat)
  /-- The flag has been lowered and the host has not been told yet. -/
  | lowered (h : Handle) (left : Nat)

/-- The request that the interface thread has in hand. -/
def Stage.inHand? : Stage → Option Handle
  | idle | ready _ => none
  | taken h _ | lowered h _ => some h

/-- The request in hand whose flag has not been lowered yet. -/
def Stage.unlowered? : Stage → Option Handle
  | idle | ready _ | lowered .. => none
  | taken h _ => some h

theorem Stage.inHand?_of_unlowered? {stage : Stage} {h : Handle} (hu : stage.unlowered? = some h) :
    stage.inHand? = some h := by
  cases stage with
  | taken => exact hu
  | _ => cases hu

/-- A bridge, what its interface thread is at, and what it has handed out. -/
structure Session where
  bridge : Bridge
  stage : Stage := .idle
  /-- The handles of all adapters created so far, the oldest first. -/
  issued : List Handle := []
  /-- Any copy of these may be used at any time. -/
  notifiers : List Notifier := []

/-- What happens in one step. -/
inductive Happening where
  | created (h : Handle)
  | destroyed (h : Handle)
  | handedOut (n : Notifier)
  | requested (n : Notifier) (answer : Except InboxClosed Bool)
  /-- A call of `Bridge.processPending` begins. -/
  | begun
  | taken (h : Handle)
  | lowered (h : Handle)
  /-- The host is told to query again, on behalf of the adapter. -/
  | told (h : Handle)
  /-- The adapter is gone and the host is not told. -/
  | dropped (h : Handle)
  /-- A call of `Bridge.processPending` ends. -/
  | finished

/-- The adapter on whose behalf the host is told. -/
def Happening.told? : Happening → Option Handle
  | told h => some h
  | _ => none

/-- The request that enters the inbox. -/
def Happening.posted? : Happening → Option Handle
  | requested n (.ok true) => some n.handle
  | _ => none

/-- The request that leaves the inbox. -/
def Happening.taken? : Happening → Option Handle
  | taken h => some h
  | _ => none

/-- What others notice, the waker being as given. -/
def Happening.sent (waker : Option String) : Happening → List Signal
  | requested _ (.ok true) => waker.toList.map .woken
  | told _ => [.invalidated]
  | _ => []

/-- Whether this is a part of a delivery, and not a request that somebody makes. -/
def Happening.isOwn : Happening → Bool
  | requested .. => false
  | _ => true

/-- Whether a signal only says what the host itself has done. -/
def Signal.isReport : Signal → Bool
  | rerequested .. => true
  | _ => false

/-- Whether the host is told to query again. -/
def Signal.isInvalidated : Signal → Bool
  | invalidated => true
  | _ => false

/-- A request that is not posted neither enters the inbox nor wakes anybody. -/
theorem Happening.requested_of_ne {n : Notifier} {answer : Except InboxClosed Bool}
    (hne : answer ≠ .ok true) : (requested n answer).posted? = none ∧
      ∀ waker, (requested n answer).sent waker = [] := by
  match answer, hne with
  | .ok true, hne => contradiction
  | .ok false, _ => exact ⟨rfl, fun _ => rfl⟩
  | .error _, _ => exact ⟨rfl, fun _ => rfl⟩

theorem Happening.told?_of_not_own {e : Happening} (hothers : e.isOwn = false) :
    e.told? = none := by
  cases e with
  | requested => rfl
  | _ => cases hothers

theorem Happening.filter_sent {waker : Option String} {e : Happening} :
    (e.sent waker).filter (!·.isReport) = e.sent waker := by
  apply List.filter_eq_self.2
  intro signal hmem
  unfold sent at hmem
  split at hmem
  · obtain ⟨w, -, rfl⟩ := List.mem_map.1 hmem
    rfl
  · cases List.mem_singleton.1 hmem
    rfl
  · cases hmem

/-- What creating an adapter does to a bridge. -/
theorem Bridge.create_eq_ok {b b' : Bridge} {h : Handle} (hok : b.create = .ok (h, b')) :
    h = (b.registry.adapters.insert b.registry.newAdapter).1 ∧
      b'.registry.adapters = (b.registry.adapters.insert b.registry.newAdapter).2 ∧
      b'.mailbox = b.mailbox.newFlag.2 ∧
      b'.pending = b.pending.insert h b.mailbox.flags.size ∧ b'.config = b.config := by
  unfold create Registry.create at hok
  split at hok
  · cases hok
  · rename_i h' registry hreg
    obtain ⟨rfl, rfl⟩ := Prod.mk.inj (Except.ok.inj hok)
    split at hreg
    · cases hreg
    · obtain ⟨rfl, rfl⟩ := Prod.mk.inj (Except.ok.inj hreg)
      exact ⟨rfl, rfl, rfl, rfl, rfl⟩

theorem Bridge.registry_of_create {b b' : Bridge} {h : Handle} (ok : b.create = .ok (h, b')) :
    b.registry.create = .ok (h, b'.registry) := by
  unfold create at ok
  split at ok
  · cases ok
  · rename_i hr
    obtain ⟨rfl, rfl⟩ := Prod.mk.inj (Except.ok.inj ok)
    exact hr

/-- The mailbox after the flag of a request has been lowered. -/
def Bridge.lowerFlag (b : Bridge) (h : Handle) (m : Mailbox) : Mailbox :=
  match b.pending.get? h with
  | some flag => m.setFlag flag false
  | none => m

theorem Bridge.inbox_lowerFlag {b : Bridge} {h : Handle} {m : Mailbox} :
    (b.lowerFlag h m).inbox = m.inbox := by
  unfold lowerFlag
  split <;> rfl

theorem Bridge.size_flags_lowerFlag {b : Bridge} {h : Handle} {m : Mailbox} :
    (b.lowerFlag h m).flags.size = m.flags.size := by
  unfold lowerFlag
  split
  · exact Array.size_setIfInBounds
  · rfl

theorem Bridge.isRaised_lowerFlag {b : Bridge} {h : Handle} {m : Mailbox} {f : FlagId} :
    (b.lowerFlag h m).isRaised f = true ↔ m.isRaised f = true ∧ b.pending.get? h ≠ some f := by
  unfold lowerFlag
  split
  · rename_i g hg
    rw [hg]
    by_cases hgf : g = f
    · subst hgf
      simp [Mailbox.isRaised_setFlag_false]
    · simp [Mailbox.isRaised_setFlag, hgf]
  · rename_i hg
    simp [hg]

namespace Session

/-- A bridge that has just been made. -/
def start (config : Config) : Session where
  bridge := .ofConfig config

/-- The requests in the inbox, the oldest first. -/
def queue (s : Session) : List Handle := s.bridge.mailbox.inbox.messages

/-- The requests whose flag has not been lowered yet: the one in hand, if it is so far, and those in
    the inbox. -/
def waiting (s : Session) : List Handle := s.stage.unlowered?.toList ++ s.queue

/-- Whether an adapter is alive. -/
def isLive (s : Session) (h : Handle) : Bool := s.bridge.registry.contains h

/-- The session with another mailbox. -/
def withMailbox (s : Session) (m : Mailbox) : Session :=
  { s with bridge := { s.bridge with mailbox := m } }

/-- The session with its interface thread at another stage. -/
def withStage (s : Session) (stage : Stage) : Session := { s with stage }

/-- The adapters on whose behalf the host was told, the oldest first. -/
def told (tr : List Happening) : List Handle := tr.filterMap Happening.told?

theorem told_append {tr tr' : List Happening} : told (tr ++ tr') = told tr ++ told tr' :=
  List.filterMap_append

/-- One step. Calls on the bridge belong to the interface thread and wait until it is idle; a
    request may be made at any stage. A call that is refused changes nothing and is no step. -/
inductive Step : Session → Happening → Session → Prop where
  | create {s : Session} {h : Handle} {b : Bridge} (idle : s.stage = .idle)
      (ok : s.bridge.create = .ok (h, b)) :
      Step s (.created h) { s with bridge := b, issued := s.issued ++ [h] }
  | destroy {s : Session} (h : Handle) (idle : s.stage = .idle) :
      Step s (.destroyed h) { s with bridge := (s.bridge.destroy h).2 }
  | notifier {s : Session} {h : Handle} {n : Notifier} (idle : s.stage = .idle)
      (some : s.bridge.notifier? h = some n) :
      Step s (.handedOut n) { s with notifiers := n :: s.notifiers }
  | request {s : Session} {n : Notifier} (held : n ∈ s.notifiers) :
      Step s (.requested n (n.requestUpdate s.bridge.mailbox).answer)
        (s.withMailbox (n.requestUpdate s.bridge.mailbox).state)
  | begin {s : Session} (idle : s.stage = .idle) :
      Step s .begun (s.withStage (.ready s.bridge.deliveryLimit))
  | take {s : Session} {h : Handle} {m : Mailbox} {left : Nat} (ready : s.stage = .ready (left + 1))
      (some : s.bridge.mailbox.take? = some (h, m)) :
      Step s (.taken h) ((s.withMailbox m).withStage (.taken h left))
  | lower {s : Session} {h : Handle} {left : Nat} (taken : s.stage = .taken h left) :
      Step s (.lowered h)
        ((s.withMailbox (s.bridge.lowerFlag h s.bridge.mailbox)).withStage (.lowered h left))
  | tell {s : Session} {h : Handle} {left : Nat} (lowered : s.stage = .lowered h left)
      (live : s.isLive h = true) : Step s (.told h) (s.withStage (.ready left))
  | drop {s : Session} {h : Handle} {left : Nat} (lowered : s.stage = .lowered h left)
      (gone : s.isLive h = false) : Step s (.dropped h) (s.withStage (.ready left))
  | finish {s : Session} {left : Nat} (ready : s.stage = .ready left)
      (done : left = 0 ∨ s.queue = []) : Step s .finished (s.withStage .idle)

/-- A run along which `P` holds of every session, the first and the last included. -/
inductive RunWithin (P : Session → Prop) : Session → List Happening → Session → Prop where
  | refl {s : Session} (here : P s) : RunWithin P s [] s
  | step {s s' s'' : Session} {e : Happening} {tr : List Happening} (here : P s)
      (first : Step s e s') (rest : RunWithin P s' tr s'') : RunWithin P s (e :: tr) s''

/-- A run. -/
abbrev Run : Session → List Happening → Session → Prop := RunWithin fun _ => True

variable {s s' s'' : Session} {tr tr' : List Happening} {e : Happening}

theorem Run.refl : Run s [] s := RunWithin.refl trivial

theorem Run.step (first : Step s e s') (rest : Run s' tr s'') : Run s (e :: tr) s'' :=
  RunWithin.step trivial first rest

theorem Run.append (run : Run s tr s') (rest : Run s' tr' s'') : Run s (tr ++ tr') s'' := by
  induction run with
  | refl => exact rest
  | step _ first _ ih => exact .step first (ih rest)

/-- A run passes through a session wherever it is cut. -/
theorem Run.of_append (run : Run s (tr ++ tr') s'') : ∃ s', Run s tr s' ∧ Run s' tr' s'' := by
  induction tr generalizing s with
  | nil => exact ⟨s, .refl, run⟩
  | cons e tr ih =>
    cases run with
    | step _ first rest =>
      obtain ⟨s', hrun, hrest⟩ := ih rest
      exact ⟨s', .step first hrun, hrest⟩

/-! ## The inbox -/

/-- Requests enter the inbox at its end and leave it at its front, and no step does anything else
    to the inbox. -/
theorem Step.inbox (step : Step s e s') :
    s.queue ++ e.posted?.toList = e.taken?.toList ++ s'.queue ∧
    s'.bridge.mailbox.inbox = { s.bridge.mailbox.inbox with messages := s'.queue } := by
  cases step with
  | create _ ok =>
    obtain ⟨-, -, hmailbox, -, -⟩ := Bridge.create_eq_ok ok
    rw [queue, queue, hmailbox, Mailbox.inbox_newFlag]
    exact ⟨List.append_nil _, rfl⟩
  | @request n _ =>
    rw [queue, queue, withMailbox]
    rcases Notifier.requestUpdate_posted_or_not (n := n) (m := s.bridge.mailbox) with
      ⟨hanswer, -, hinbox⟩ | ⟨hanswer, -, hinbox⟩
    · rw [hanswer, hinbox]
      exact ⟨rfl, rfl⟩
    · rw [(Happening.requested_of_ne hanswer).1, hinbox]
      exact ⟨List.append_nil _, rfl⟩
  | take _ some =>
    obtain ⟨hmessages, hinbox, -⟩ := Mailbox.take?_eq_some some
    exact ⟨(List.append_nil _).trans hmessages, hinbox⟩
  | lower _ =>
    rw [queue, queue, withStage, withMailbox, Bridge.inbox_lowerFlag]
    exact ⟨List.append_nil _, rfl⟩
  | _ => exact ⟨List.append_nil _, rfl⟩

/-- No step changes the waker. -/
theorem Step.waker_eq (step : Step s e s') :
    s'.bridge.mailbox.inbox.waker = s.bridge.mailbox.inbox.waker := by
  rw [step.inbox.2]

theorem RunWithin.waker_eq {P : Session → Prop} (run : RunWithin P s tr s') :
    s'.bridge.mailbox.inbox.waker = s.bridge.mailbox.inbox.waker := by
  induction run with
  | refl => rfl
  | step _ first _ ih => exact ih.trans first.waker_eq

/-! ## A whole call -/

/-- A run, and the signals sent along it, less the host's own reports. -/
structure Sends (s : Session) (tr : List Happening) (signals : List Signal) (s' : Session) :
    Prop where
  run : Run s tr s'
  signals_eq : signals.filter (!·.isReport) = tr.flatMap (·.sent s.bridge.mailbox.inbox.waker)

variable {signals signals' : List Signal}

theorem Sends.refl : Sends s [] [] s := ⟨.refl, rfl⟩

theorem Sends.append (sends : Sends s tr signals s') (rest : Sends s' tr' signals' s'') :
    Sends s (tr ++ tr') (signals ++ signals') s'' where
  run := sends.run.append rest.run
  signals_eq := by
    rw [List.filter_append, List.flatMap_append, sends.signals_eq, rest.signals_eq,
      sends.run.waker_eq]

/-- As many signals of a kind are sent as the steps of the run send. -/
theorem Sends.countP_eq {p : Signal → Bool} (sends : Sends s tr signals s')
    (hp : ∀ outcome wasPending, p (.rerequested outcome wasPending) = false) : signals.countP p =
      (tr.flatMap (·.sent s.bridge.mailbox.inbox.waker)).countP p := by
  rw [← sends.signals_eq, List.countP_filter]
  apply List.countP_congr
  intro signal _
  cases signal with
  | rerequested outcome wasPending => simp [hp]
  | _ => simp [Signal.isReport]

theorem countP_isInvalidated_sent (waker : Option String) :
    (e.sent waker).countP (·.isInvalidated) = if e.told?.isSome then 1 else 0 := by
  cases e with
  | requested n answer =>
    rcases answer with _ | posted
    · rfl
    · cases posted <;> cases waker <;> rfl
  | _ => rfl

/-- The host is sent the signal to query again as often as it is told. -/
theorem Sends.told_eq {signals : List Signal} (sends : Sends s tr signals s') :
    signals.countP (·.isInvalidated) = (told tr).length := by
  rw [sends.countP_eq fun _ _ => rfl, told, List.length_filterMap_eq_countP]
  clear sends
  induction tr with
  | nil => rfl
  | cons e tr ih =>
    rw [List.flatMap_cons, List.countP_append, List.countP_cons, ih, countP_isInvalidated_sent,
      Nat.add_comm]

/-- A step that sends nothing, and what is sent after it. -/
theorem Sends.quiet (first : Step s e s') (quiet : e.sent s.bridge.mailbox.inbox.waker = [])
    (rest : Sends s' tr signals s'') : Sends s (e :: tr) signals s'' where
  run := .step first rest.run
  signals_eq := by
    rw [List.flatMap_cons, quiet, rest.signals_eq, first.waker_eq]
    rfl

/-- What a request sends is the waker, if it is posted and there is one. -/
theorem sent_requested {n : Notifier} {m : Mailbox} :
    (n.requestUpdate m).signals =
      (Happening.requested n (n.requestUpdate m).answer).sent m.inbox.waker := by
  rcases Notifier.requestUpdate_posted_or_not (n := n) (m := m) with
    ⟨hanswer, hsignals, -⟩ | ⟨hanswer, hsignals, -⟩
  · rw [hanswer, hsignals]
    rfl
  · rw [hsignals, (Happening.requested_of_ne hanswer).2]

/-- What the host does while it is told is a run of requests. -/
theorem react_run (ns : List Notifier) (held : ∀ n ∈ ns, n ∈ s.notifiers) :
    ∃ tr, Sends s tr (Host.react s.bridge.mailbox ns).2
        (s.withMailbox (Host.react s.bridge.mailbox ns).1) ∧
      ∀ e ∈ tr, e.isOwn = false := by
  induction ns generalizing s with
  | nil => exact ⟨[], .refl, by simp⟩
  | cons n ns ih =>
    have first := Step.request (held n List.mem_cons_self)
    obtain ⟨tr, rest, hothers⟩ :=
      ih (s := s.withMailbox (n.requestUpdate s.bridge.mailbox).state) fun k hk =>
        held k (List.mem_cons_of_mem n hk)
    have hasked : Sends s [.requested n (n.requestUpdate s.bridge.mailbox).answer]
        (Host.rerequest s.bridge.mailbox n).2
        (s.withMailbox (n.requestUpdate s.bridge.mailbox).state) := by
      refine ⟨.step first .refl, ?_⟩
      rw [Host.rerequest, List.filter_append, sent_requested, Happening.filter_sent]
      rfl
    refine ⟨_, hasked.append rest, ?_⟩
    rw [List.singleton_append, List.forall_mem_cons]
    exact ⟨rfl, hothers⟩

/-- The delivery of one request: it is taken, its flag is lowered, and then the host is told, if
    the adapter is alive, and reacts. -/
theorem deliver_run {h : Handle} {m : Mailbox} {d : Bridge.Delivery} {left : Nat}
    (ready : s.stage = .ready (left + 1)) (some : s.bridge.mailbox.take? = some (h, m))
    (hm : d.mailbox = m) (held : ∀ ns ∈ d.host.reactions, ∀ n ∈ ns, n ∈ s.notifiers) :
    ∃ tr signals, Sends s tr signals
        ((s.withMailbox (s.bridge.deliver h d).mailbox).withStage (.ready left)) ∧
      (s.bridge.deliver h d).signals = d.signals ++ signals ∧
      (s.bridge.deliver h d).told = d.told + (tr.filterMap Happening.told?).length ∧
      .finished ∉ tr ∧
      ∀ ns ∈ (s.bridge.deliver h d).host.reactions, ∀ n ∈ ns, n ∈ s.notifiers := by
  subst hm
  have htake := Step.take ready some
  have hlower := Step.lower (s := (s.withMailbox d.mailbox).withStage (.taken h left)) rfl
  let lowered : Session :=
    (s.withMailbox (s.bridge.lowerFlag h d.mailbox)).withStage (.lowered h left)
  cases hlive : s.bridge.registry.contains h with
  | false =>
    have hdrop := Step.drop (s := lowered) rfl hlive
    have hd : s.bridge.deliver h d = { d with mailbox := s.bridge.lowerFlag h d.mailbox } := by
      rw [Bridge.deliver, if_neg (by simp [hlive])]
      rfl
    rw [hd]
    exact ⟨_, [], .quiet htake rfl (.quiet hlower rfl (.quiet hdrop rfl .refl)),
      (List.append_nil _).symm, rfl, by simp, held⟩
  | true =>
    have htell := Step.tell (s := lowered) rfl hlive
    have hd : s.bridge.deliver h d =
        { mailbox := (Host.react (s.bridge.lowerFlag h d.mailbox)
            (d.host.reactions.head?.getD [])).1
          host := { d.host with reactions := d.host.reactions.tail }
          told := d.told + 1
          signals := d.signals ++ .invalidated :: (Host.react (s.bridge.lowerFlag h d.mailbox)
            (d.host.reactions.head?.getD [])).2 } := by
      rw [Bridge.deliver, if_pos hlive]
      rfl
    have hreaction : ∀ n ∈ d.host.reactions.head?.getD [], n ∈ s.notifiers := by
      cases hr : d.host.reactions with
      | nil => exact fun n hn => nomatch hn
      | cons ns rest => exact held ns (hr ▸ List.mem_cons_self)
    obtain ⟨tr, hreact, hothers⟩ :=
      react_run (s := lowered.withStage (.ready left)) _ hreaction
    have htold : tr.filterMap Happening.told? = [] := by
      apply List.filterMap_eq_nil_iff.2
      intro e he
      exact Happening.told?_of_not_own (hothers e he)
    have hunfinished : .finished ∉ tr := fun hmem => nomatch hothers _ hmem
    have hinvalidated : Sends lowered [.told h] [.invalidated] (lowered.withStage (.ready left)) :=
      ⟨.step htell .refl, rfl⟩
    rw [hd]
    refine ⟨_, _, .quiet htake rfl (.quiet hlower rfl (hinvalidated.append hreact)), rfl, ?_,
      by simpa using hunfinished, fun ns hns => ?_⟩
    · have honce : (.taken h :: .lowered h :: .told h :: tr).filterMap Happening.told? = [h] := by
        change h :: tr.filterMap Happening.told? = [h]
        rw [htold]
      rw [List.singleton_append, honce]
      rfl
    · exact held ns (List.mem_of_mem_tail hns)

/-- Requests are delivered until the limit is reached or none is left. -/
theorem drain_run (left : Nat) (d : Bridge.Delivery) (ready : s.stage = .ready left)
    (hd : d.mailbox = s.bridge.mailbox)
    (held : ∀ ns ∈ d.host.reactions, ∀ n ∈ ns, n ∈ s.notifiers) :
    ∃ tr signals, Sends s (tr ++ [.finished]) signals ((s.withMailbox
        (drain Bridge.Delivery.take? s.bridge.deliver left d).2.mailbox).withStage .idle) ∧
      (drain Bridge.Delivery.take? s.bridge.deliver left d).2.signals = d.signals ++ signals ∧
      (drain Bridge.Delivery.take? s.bridge.deliver left d).2.told =
        d.told + (tr.filterMap Happening.told?).length ∧
      .finished ∉ tr := by
  induction left generalizing s d with
  | zero =>
    rw [drain, hd]
    exact ⟨[], [], .quiet (.finish ready (.inl rfl)) rfl .refl, (List.append_nil _).symm, rfl,
      List.not_mem_nil⟩
  | succ left ih =>
    rw [drain, Bridge.Delivery.take?, hd]
    cases htake : s.bridge.mailbox.take? with
    | none =>
      have hempty : s.queue = [] := Mailbox.take?_eq_none htake
      rw [Option.map_none]
      dsimp only
      rw [hd]
      exact ⟨[], [], .quiet (.finish ready (.inr hempty)) rfl .refl, (List.append_nil _).symm, rfl,
        List.not_mem_nil⟩
    | some p =>
      obtain ⟨h, m⟩ := p
      obtain ⟨tr, signals, hsends, hsignals, htold, hunfinished, hheld⟩ :=
        deliver_run (d := { d with mailbox := m }) ready htake rfl held
      obtain ⟨tr', signals', hrest, hsignals', htold', hunfinished'⟩ := ih (s := (s.withMailbox
        (s.bridge.deliver h { d with mailbox := m }).mailbox).withStage (.ready left))
        (s.bridge.deliver h { d with mailbox := m }) rfl rfl hheld
      refine ⟨tr ++ tr', signals ++ signals', List.append_assoc .. ▸ hsends.append hrest, ?_, ?_,
        by simp [hunfinished, hunfinished']⟩
      · rw [← List.append_assoc]
        exact hsignals'.trans (congrArg (· ++ _) hsignals)
      · rw [List.filterMap_append, List.length_append, ← Nat.add_assoc]
        exact htold'.trans (congrArg (· + _) htold)

/-- A call of `Bridge.processPending` is a run from the beginning of a delivery to its end, and
    sends what is sent along this run. It answers how often the host was told. -/
theorem processPending_sends (host : Host) (idle : s.stage = .idle)
    (held : ∀ ns ∈ host.reactions, ∀ n ∈ ns, n ∈ s.notifiers) :
    ∃ tr, Sends s (.begun :: tr ++ [.finished]) (s.bridge.processPending host).signals
        { s with bridge := (s.bridge.processPending host).state.1 } ∧
      (s.bridge.processPending host).answer = (tr.filterMap Happening.told?).length ∧
      .finished ∉ tr := by
  obtain ⟨tr, signals, hsends, hsignals, htold, hunfinished⟩ :=
    drain_run (s := s.withStage (.ready s.bridge.deliveryLimit)) s.bridge.deliveryLimit
      { mailbox := s.bridge.mailbox, host } rfl rfl held
  have hback : { s with bridge := (s.bridge.processPending host).state.1 } =
      Session.withStage { s with bridge := (s.bridge.processPending host).state.1 } .idle := by
    rw [withStage, ← idle]
  have hsent : (s.bridge.processPending host).signals = signals := hsignals
  rw [hback, hsent]
  exact ⟨tr, .quiet (.begin idle) rfl hsends, htold.trans (Nat.zero_add _), hunfinished⟩

/-- A call of `Bridge.processPending` is a run from the beginning of a delivery to its end that
    tells the host as often as it answers. -/
theorem processPending_run (host : Host) (idle : s.stage = .idle)
    (held : ∀ ns ∈ host.reactions, ∀ n ∈ ns, n ∈ s.notifiers) :
    ∃ tr, Run s (.begun :: tr ++ [.finished])
        { s with bridge := (s.bridge.processPending host).state.1 } ∧
      (s.bridge.processPending host).answer = (tr.filterMap Happening.told?).length := by
  obtain ⟨tr, hsends, htold, -⟩ := processPending_sends host idle held
  exact ⟨tr, hsends.run, htold⟩

/-- A call of `Bridge.requestUpdate` tells the host at once, if the adapter is alive, and what the
    host does then is a run of requests. -/
theorem requestUpdate_run (host : Host) (held : ∀ ns ∈ host.reactions, ∀ n ∈ ns, n ∈ s.notifiers)
    (h : Handle) : ∃ tr signals, Sends s tr signals
        { s with bridge := (s.bridge.requestUpdate host h).state.1 } ∧
      (s.bridge.requestUpdate host h).signals =
        (if s.isLive h then [.invalidated] else []) ++ signals ∧
      ∀ e ∈ tr, e.isOwn = false := by
  rw [isLive]
  unfold Bridge.requestUpdate
  split
  · have hreaction : ∀ n ∈ host.reactions.head?.getD [], n ∈ s.notifiers := by
      cases hr : host.reactions with
      | nil =>
        intro n hn
        cases hn
      | cons ns rest =>
        apply held
        rw [hr]
        exact List.mem_cons_self
    obtain ⟨tr, hreact, hothers⟩ := react_run _ hreaction
    exact ⟨tr, _, hreact, rfl, hothers⟩
  · exact ⟨[], [], .refl, rfl, by simp⟩

end Session

end AccessBridge
