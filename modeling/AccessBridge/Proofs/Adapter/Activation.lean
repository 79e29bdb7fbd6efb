import AccessBridge.Bridge
import AccessBridge.Proofs.Adapter.Turns

/-!
# Activation

Nothing happens to an adapter until the host asks its first question (`Unasked`): whatever the owner
does, no signal is sent, and of the activation handlers only the one installed last is kept. The
first question calls that handler and takes in the tree that it supplies; from there on it is a
question to an active adapter (`Unasked.ask`), which calls no handler any more (`after_of_active`).
-/

namespace AccessBridge.Adapter

/-! ## Questions -/

/-- What the host may ask, by the type of the answer. -/
inductive Question : Type → Type where
  | nodeInfo (frame : HostFrame) (v : VirtualId) : Question (Option NodeInfo)
  | findFocus (frame : HostFrame) (kind : FocusKind) : Question (Option NodeInfo)
  | hitTest (frame : HostFrame) (p : Point) : Question (Option VirtualId)
  | perform (frame : HostFrame) (v : VirtualId) (action : HostAction) : Question Bool
  | hover (frame : HostFrame) (motion : Option HoverMotion) (p : Point) : Question Bool

namespace Question

variable {α : Type}

/-- The question as a call. -/
def call : Question α → Call
  | nodeInfo frame v => .nodeInfo frame v
  | findFocus frame kind => .findFocus frame kind
  | hitTest frame p => .hitTest frame p
  | perform frame v action => .perform frame v action
  | hover frame motion p => .hover frame motion p

/-- Where the host has put the surface at the time. -/
def frame : Question α → HostFrame
  | nodeInfo frame _ | findFocus frame _ | hitTest frame _ | perform frame _ _ | hover frame _ _ =>
    frame

end Question

/-- The answer to a question. -/
def ask {α : Type} (a : Adapter) : Question α → Reply Adapter α
  | .nodeInfo frame v => a.nodeInfo frame v
  | .findFocus frame kind => a.findFocus frame kind
  | .hitTest frame p => a.hitTest frame p
  | .perform frame v action => a.perform frame v action
  | .hover frame motion p => a.hover frame motion p

variable {α : Type} {a b : Adapter} {c : Call} {cs : List Call} {q : Question α}
  {frame : HostFrame} {name : String} {u : TreeUpdate}

theorem call_question : a.call q.call = answered (a.ask q) := by
  cases q <;> rfl

theorem exists_question (h : c.isQuestion = true) : ∃ (α : Type) (q : Question α), c = q.call := by
  cases c with
  | edit | setActivationHandler | setActionHandler | update => cases h
  | nodeInfo frame v => exact ⟨_, .nodeInfo frame v, rfl⟩
  | findFocus frame kind => exact ⟨_, .findFocus frame kind, rfl⟩
  | hitTest frame p => exact ⟨_, .hitTest frame p, rfl⟩
  | perform frame v action => exact ⟨_, .perform frame v action, rfl⟩
  | hover frame motion p => exact ⟨_, .hover frame motion p, rfl⟩

theorem observe_observe : (a.observe frame).1.observe frame = ((a.observe frame).1, []) :=
  observe_of_active phase_observe

/-- To ask is to activate and then to ask an active adapter. -/
theorem ask_eq (a : Adapter) (q : Question α) :
    a.ask q = ⟨((a.observe q.frame).1.ask q).answer, ((a.observe q.frame).1.ask q).state,
      (a.observe q.frame).2 ++ ((a.observe q.frame).1.ask q).signals⟩ := by
  cases q with
  | nodeInfo frame v | findFocus frame kind | hitTest frame p =>
    simp only [ask, Question.frame, nodeInfo, findFocus, hitTest, observe_observe, List.append_nil]
  | perform frame v action =>
    simp only [ask, Question.frame, perform, observe_observe]
    split
    · rw [List.append_nil]
    · rfl
  | hover frame motion p =>
    simp only [ask, Question.frame, hover, observe_observe]
    rfl

theorem ask_congr (same : (a.observe q.frame).1 = (b.observe q.frame).1)
    (silent : (b.observe q.frame).2 = []) :
    a.ask q = ⟨(b.ask q).answer, (b.ask q).state, (a.observe q.frame).2 ++ (b.ask q).signals⟩ := by
  rw [ask_eq a, ask_eq b, same, silent, List.nil_append]

/-! ## Before the first question -/

/-- The host has asked nothing yet. -/
structure Unasked (a : Adapter) : Prop where
  created : a.phase = .created
  cursor : a.cursor = none
  pointed : a.pointed = none

/-- The activation handler that a call installs. -/
def Call.installs? : Call → Option ActivationHandler
  | .setActivationHandler handler => some handler
  | _ => none

/-- The activation handler installed last. -/
def lastInstalled? (cs : List Call) : Option ActivationHandler :=
  (cs.filterMap Call.installs?).getLast?

theorem unasked_ofTree (t : Tree) : (ofTree t).Unasked := ⟨rfl, rfl, rfl⟩

theorem lastInstalled?_cons : lastInstalled? (c :: cs) = (lastInstalled? cs).or c.installs? := by
  rw [lastInstalled?, lastInstalled?, List.filterMap_cons]
  cases c.installs? with
  | none => exact (Option.or_none).symm
  | some handler =>
    dsimp only
    rw [List.getLast?_cons]
    cases (cs.filterMap Call.installs?).getLast? <;> rfl

theorem Unasked.not_isActive (h : a.Unasked) : ¬ a.isActive = true := fun hp =>
  nomatch h.created.symm.trans (isActive_iff.1 hp)

/-- Short of a question, no call is noticed, and none leaves more behind than its handler. -/
theorem Unasked.call (h : a.Unasked) (quiet : c.isQuestion = false) :
    (a.call c).1.Unasked ∧ (a.call c).2 = [] ∧
      (a.call c).1.activationHandler = c.installs?.or a.activationHandler := by
  cases c with
  | nodeInfo | findFocus | hitTest | perform | hover => cases quiet
  | edit e => exact ⟨⟨h.created, h.cursor, h.pointed⟩, rfl, rfl⟩
  | setActionHandler name => exact ⟨⟨h.created, h.cursor, h.pointed⟩, rfl, rfl⟩
  | setActivationHandler handler =>
    have hset : (a.call (.setActivationHandler handler)).1 =
        { a with activationHandler := some handler } := if_neg h.not_isActive
    rw [hset]
    exact ⟨⟨h.created, h.cursor, h.pointed⟩, rfl, rfl⟩
  | update u =>
    have hcall : a.call (.update u) = (a, []) := by
      rw [Adapter.call, updateIfActive, if_neg h.not_isActive]
      rfl
    rw [hcall]
    exact ⟨h, rfl, rfl⟩

/-- A run without a question is not noticed, and leaves the handler installed last. -/
theorem Unasked.after (h : a.Unasked) (quiet : ∀ c ∈ cs, c.isQuestion = false) :
    (a.after cs).Unasked ∧ a.sent cs = [] ∧
      (a.after cs).activationHandler = (lastInstalled? cs).or a.activationHandler := by
  induction cs generalizing a with
  | nil => exact ⟨h, rfl, rfl⟩
  | cons c cs ih =>
    obtain ⟨hc, hcs⟩ := List.forall_mem_cons.1 quiet
    obtain ⟨hunasked, hsignals, hhandler⟩ := h.call hc
    obtain ⟨hafter, hsent, hlast⟩ := ih hunasked hcs
    refine ⟨hafter, ?_, ?_⟩
    · rw [sent, hsignals, hsent, List.nil_append]
    · rw [Adapter.after, hlast, hhandler, lastInstalled?_cons, Option.or_assoc]

/-! ## The first question -/

/-- The adapter once it is active, with what its activation handler supplied. -/
def supplied (a : Adapter) (handler : Option ActivationHandler) : Adapter :=
  { a with
    tree := a.tree.given (handler.bind (·.initialTree))
    phase := .active
    activationHandler := none }

/-- Nothing is remembered yet that the supplied tree could make the adapter forget. -/
theorem Unasked.supply (h : a.Unasked) {update : Option TreeUpdate} :
    Adapter.supply { a with phase := .active, activationHandler := none } update =
      { a with tree := a.tree.given update, phase := .active, activationHandler := none } := by
  obtain ⟨tree, phase, handler, actions, cursor, pointed, transform⟩ := a
  obtain ⟨-, rfl : cursor = none, rfl : pointed = none⟩ := h
  cases update with
  | none => rfl
  | some u =>
    unfold Adapter.supply applyUpdate
    dsimp only
    split <;> rfl

theorem Unasked.activate (h : a.Unasked) :
    a.activate = (a.supplied a.activationHandler,
      a.activationHandler.toList.map (.activated ·.name)) := by
  unfold Adapter.activate supplied
  rw [h.created]
  cases a.activationHandler with
  | none => rfl
  | some handler =>
    dsimp only
    rw [h.supply]
    rfl

/-- The first question of the host is answered as the active adapter answers it, after its handler
    has been called. -/
theorem Unasked.ask (h : a.Unasked) (q : Question α) :
    (a.ask q).answer = ((a.supplied a.activationHandler).ask q).answer ∧
    (a.ask q).state = ((a.supplied a.activationHandler).ask q).state ∧
    (a.ask q).signals = a.activationHandler.toList.map (.activated ·.name) ++
      ((a.supplied a.activationHandler).ask q).signals := by
  have hactive : (a.supplied a.activationHandler).observe q.frame =
      ({ a.supplied a.activationHandler with transform := q.frame.transform }, []) :=
    observe_of_active rfl
  have hobserve : a.observe q.frame =
      ({ a.supplied a.activationHandler with transform := q.frame.transform },
        a.activationHandler.toList.map (.activated ·.name)) := by
    rw [observe, h.activate]
  rw [ask_congr (b := a.supplied a.activationHandler) (by rw [hobserve, hactive]) (by rw [hactive]),
    hobserve]
  exact ⟨rfl, rfl, rfl⟩

/-! ## Ever after -/

theorem activated_notMem_raise {es : List Event} : Signal.activated name ∉ raise es := by
  intro h
  obtain ⟨e, -, he⟩ := List.mem_map.1 h
  cases he

theorem phase_updateIfActive : (a.updateIfActive u).state.phase = a.phase := by
  rcases a.updateIfActive_cases u with hb | ⟨tree, -, -, -, hb⟩ <;> rw [hb]
  rfl

theorem phase_carryOut {id : NodeId} {effect : Effect} :
    (a.carryOut id effect).1.phase = a.phase := by
  cases effect <;> rfl

theorem phase_ask (q : Question α) : (a.ask q).state.phase = .active := by
  have hobserve : (a.observe q.frame).1.phase = .active := phase_observe
  cases q with
  | nodeInfo frame v | findFocus frame kind | hitTest frame p => exact hobserve
  | perform frame v action =>
    change (a.perform frame v action).state.phase = .active
    rcases a.perform_cases frame v action with hb | ⟨id, r, -, hb⟩ <;> rw [hb]
    · exact hobserve
    · exact phase_carryOut.trans hobserve
  | hover frame motion p =>
    change (a.hover frame motion p).state.phase = .active
    rcases a.hover_cases frame motion p with hb | hb | hb <;> rw [hb] <;> exact hobserve

theorem activated_notMem_carryOutAction {id : NodeId} {kind : ActionKind} {r : Resolution} :
    Signal.activated name ∉ (a.carryOutAction id kind r).2 := by
  intro hmem
  rcases List.mem_append.1 hmem with hmem | hmem
  · unfold demandSignals at hmem
    split at hmem
    · cases List.mem_singleton.1 hmem
    · cases hmem
  · exact activated_notMem_raise hmem

/-- Of what a question sends, only activation calls a handler. -/
theorem exists_signals_ask (a : Adapter) (q : Question α) :
    ∃ signals, (a.ask q).signals = (a.observe q.frame).2 ++ signals ∧
      ∀ name, Signal.activated name ∉ signals := by
  cases q with
  | nodeInfo frame v | findFocus frame kind | hitTest frame p =>
    exact ⟨[], (List.append_nil _).symm, nofun⟩
  | perform frame v action =>
    change ∃ signals, (a.perform frame v action).signals = (a.observe frame).2 ++ signals ∧ _
    unfold perform
    dsimp only
    split
    · exact ⟨[], (List.append_nil _).symm, nofun⟩
    · exact ⟨_, rfl, fun name => activated_notMem_carryOutAction⟩
  | hover frame motion p => exact ⟨_, rfl, fun name => activated_notMem_raise⟩

theorem activated_notMem_ask (active : a.phase = .active) (q : Question α) :
    Signal.activated name ∉ (a.ask q).signals := by
  obtain ⟨signals, hsignals, hno⟩ := a.exists_signals_ask q
  rw [hsignals, observe_of_active active]
  exact hno name

/-- An update is built just for an active adapter. -/
theorem signals_updateIfActive : (a.phase = .active ∧ ∃ events,
      (a.updateIfActive u).signals = .updateBuilt :: raise events) ∨
    ¬ a.phase = .active ∧ (a.updateIfActive u).signals = [] := by
  unfold updateIfActive
  split
  · rename_i active
    refine .inl ⟨isActive_iff.1 active, ?_⟩
    dsimp only
    split
    · exact ⟨[], rfl⟩
    · exact ⟨_, rfl⟩
  · rename_i active
    exact .inr ⟨fun hp => active (isActive_iff.2 hp), rfl⟩

/-- An active adapter stays active, and calls no activation handler. -/
theorem call_of_active (active : a.phase = .active) :
    (a.call c).1.phase = .active ∧ ∀ name, Signal.activated name ∉ (a.call c).2 := by
  cases hc : c.isQuestion with
  | true =>
    obtain ⟨α, q, rfl⟩ := exists_question hc
    rw [call_question]
    exact ⟨phase_ask q, fun name => activated_notMem_ask active q⟩
  | false =>
    cases c with
    | nodeInfo | findFocus | hitTest | perform | hover => cases hc
    | edit e => exact ⟨active, nofun⟩
    | setActionHandler name => exact ⟨active, nofun⟩
    | setActivationHandler handler =>
      have hset : (a.call (.setActivationHandler handler)).1 = a := if_pos (isActive_iff.2 active)
      rw [hset]
      exact ⟨active, nofun⟩
    | update u =>
      refine ⟨phase_updateIfActive.trans active, fun name hmem => ?_⟩
      change _ ∈ (a.updateIfActive u).signals at hmem
      rcases signals_updateIfActive (a := a) (u := u) with ⟨-, events, hsignals⟩ | ⟨created, -⟩
      · rw [hsignals] at hmem
        exact activated_notMem_raise ((List.mem_cons.1 hmem).resolve_left nofun)
      · exact created active

theorem after_of_active (active : a.phase = .active) :
    (a.after cs).phase = .active ∧ ∀ name, Signal.activated name ∉ a.sent cs := by
  induction cs generalizing a with
  | nil => exact ⟨active, nofun⟩
  | cons c cs ih =>
    obtain ⟨hphase, hsignals⟩ := call_of_active active
    obtain ⟨hafter, hsent⟩ := ih hphase
    refine ⟨hafter, fun name hmem => ?_⟩
    exact (List.mem_append.1 hmem).elim (hsignals name) (hsent name)

/-- An adapter that has not been asked is active after a run just if the run asks a question. -/
theorem Unasked.phase_after_iff (h : a.Unasked) :
    (a.after cs).phase = .active ↔ ∃ c ∈ cs, c.isQuestion = true := by
  induction cs generalizing a with
  | nil =>
    have hphase : ¬ a.phase = .active := by
      rw [h.created]
      exact nofun
    exact iff_of_false hphase fun ⟨_, hmem, _⟩ => nomatch hmem
  | cons c cs ih =>
    cases hc : c.isQuestion with
    | true =>
      refine iff_of_true ?_ ⟨c, List.mem_cons_self, hc⟩
      obtain ⟨α, q, rfl⟩ := exists_question hc
      have hphase : (a.call q.call).1.phase = .active := by
        rw [call_question]
        exact phase_ask q
      exact (after_of_active hphase).1
    | false =>
      rw [Adapter.after, ih (h.call hc).1]
      simp only [List.exists_mem_cons_iff, hc, Bool.false_eq_true, false_or]

theorem tree_supplied {handler : Option ActivationHandler} :
    (∀ u, handler.bind (·.initialTree) = some u → ∀ tree s, a.tree.update u = .ok (tree, s) →
      (a.supplied handler).tree = tree) ∧
    ((∀ u, handler.bind (·.initialTree) = some u → ∃ e, a.tree.update u = .error e) →
      (a.supplied handler).tree = a.tree) := by
  have htree : (a.supplied handler).tree = a.tree.given (handler.bind (·.initialTree)) := rfl
  rw [htree]
  cases handler.bind (·.initialTree) with
  | none => exact ⟨nofun, fun _ => rfl⟩
  | some u =>
    constructor
    · intro v hv tree s hu
      obtain rfl := Option.some.inj hv
      exact Tree.step_update_of_ok hu
    · intro hrefused
      obtain ⟨e, he⟩ := hrefused u rfl
      exact Tree.step_update_of_error he

/-- **The first question activates an adapter, once.** A new adapter is active after a run just if
    the run asks a question. A run without one sends no signal. The question after it calls the
    handler installed last, if there is one; the adapter takes in the tree that the handler
    supplies, or keeps its own if that is none or is refused; and as an active adapter it answers
    the question and whatever follows, which calls no activation handler. An update is built just
    for an active adapter, and to have the host told that a tree changed touches no adapter. -/
theorem first_question_activates (t : Tree) (early : List Call)
    (quiet : ∀ c ∈ early, c.isQuestion = false) (q : Question α) :
    let a := (ofTree t).after early
    let handler := lastInstalled? early
    let b := a.supplied handler
    (∀ cs, ((ofTree t).after cs).phase = .active ↔ ∃ c ∈ cs, c.isQuestion = true) ∧
    (ofTree t).sent early = [] ∧
    (a.ask q).answer = (b.ask q).answer ∧ (a.ask q).state = (b.ask q).state ∧
    (∀ later, (ofTree t).sent (early ++ q.call :: later) =
        handler.toList.map (.activated ·.name) ++
          ((b.ask q).signals ++ (b.ask q).state.sent later) ∧
      ∀ name, Signal.activated name ∉ (b.ask q).signals ++ (b.ask q).state.sent later) ∧
    ((∀ u, handler.bind (·.initialTree) = some u → ∀ tree s, a.tree.update u = .ok (tree, s) →
        b.tree = tree) ∧
      ((∀ u, handler.bind (·.initialTree) = some u → ∃ e, a.tree.update u = .error e) →
        b.tree = a.tree)) ∧
    (∀ (a : Adapter) u, .updateBuilt ∈ (a.updateIfActive u).signals ↔ a.phase = .active) ∧
    ∀ (bridge : Bridge) host h,
      (bridge.requestUpdate host h).state.1.registry = bridge.registry := by
  intro a handler b
  obtain ⟨hunasked, hsent, hhandler⟩ := (unasked_ofTree t).after quiet
  have hlast : a.activationHandler = handler := hhandler.trans Option.or_none
  obtain ⟨hanswer, hstate, hsignals⟩ := hunasked.ask q
  rw [hlast] at hanswer hstate hsignals
  refine ⟨fun cs => (unasked_ofTree t).phase_after_iff, hsent, hanswer, hstate,
    fun later => ⟨?_, ?_⟩, tree_supplied, fun a u => ?_, fun bridge host h => ?_⟩
  · rw [sent_append, hsent, sent, call_question, answered]
    dsimp only
    rw [hsignals, hstate, List.nil_append, List.append_assoc]
  · intro name hmem
    rcases List.mem_append.1 hmem with hmem | hmem
    · exact activated_notMem_ask rfl q hmem
    · exact (after_of_active (phase_ask q)).2 name hmem
  · rcases signals_updateIfActive (a := a) (u := u) with ⟨active, events, h⟩ | ⟨created, h⟩
    · rw [h]
      exact iff_of_true List.mem_cons_self active
    · rw [h]
      exact iff_of_false List.not_mem_nil created
  · unfold Bridge.requestUpdate
    split <;> rfl

/-- The handler installed last supplies the tree in which the first question finds focus. -/
theorem first_question_activates_reinstalled :
    let t := Tree.ofRoot {}
    let u : TreeUpdate :=
      { nodes := [(⟨5⟩, { role := "Window", children := [⟨1⟩] })]
        info := some { root := ⟨5⟩ }
        focus := ⟨1⟩ }
    let early : List Call := [.setActivationHandler ⟨"first", none⟩, .update u,
      .edit (.insert ⟨0⟩ ⟨1⟩ {}), .setActivationHandler ⟨"second", some u⟩]
    let a := (ofTree t).after early
    (∀ c ∈ early, c.isQuestion = false) ∧ a.tree.focus = none ∧
      (ofTree t).sent (early ++ [.findFocus {} .input]) = [.activated "second"] ∧
      ((a.findFocus {} .input).answer.map (·.virtualId)) = some 1 := by
  intro t u early a
  have quiet : ∀ c ∈ early, c.isQuestion = false := by decide
  obtain ⟨-, -, hanswer, -, hsent, -⟩ :=
    first_question_activates t early quiet (.findFocus {} .input)
  refine ⟨quiet, by decide +kernel, (hsent []).1, ?_⟩
  exact (congrArg (Option.map NodeInfo.virtualId) hanswer).trans (by decide +kernel)

end AccessBridge.Adapter
