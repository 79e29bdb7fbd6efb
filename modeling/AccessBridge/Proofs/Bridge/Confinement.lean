import AccessBridge.Proofs.Bridge.History

/-!
# Operations stay with their handle

Everything that is asked of an adapter is asked by handle. `Operation` lists what can be asked, and
`Operation.run` is the call on the bridge or on its registry. Most operations run on the adapter
that the handle resolves to and on nothing else (`Operation.effect?`); the others destroy this
adapter or tell the host of it. An operation on a handle that does not resolve is refused and
reaches nobody: `Session.operations_confined`.
-/

namespace AccessBridge

/-- Something that is asked of an adapter by handle, and the type of the answer. -/
inductive Operation : Type → Type 1 where
  | editTree {α : Type} (f : Tree → α × Tree) : Operation (Option α)
  | setActivationHandler (handler : ActivationHandler) : Operation Bool
  | setActionHandler (name : String) : Operation Bool
  | nodeInfo (v : VirtualId) : Operation (Option NodeInfo)
  | findFocus (kind : FocusKind) : Operation (Option NodeInfo)
  | hitTest (p : Point) : Operation (Option VirtualId)
  | perform (v : VirtualId) (action : HostAction) : Operation Bool
  | hover (motion : Option HoverMotion) (p : Point) : Operation Bool
  | updateIfActive (u : TreeUpdate) : Operation (Except TreeError Bool)
  | requestUpdate : Operation Bool
  | destroy : Operation Bool
  | destroyInRegistry : Operation Bool

/-- Runs an operation of the registry, of which the host learns only by its signals. -/
def Bridge.ask {α : Type} (b : Bridge) (host : Host) (op : Registry → Reply Registry α) :
    Reply (Bridge × Host) α :=
  let reply := b.onRegistry op
  ⟨reply.answer, (reply.state, host), reply.signals⟩

namespace Operation

variable {α : Type} {b : Bridge} {host : Host} {h k : Handle}

/-- The call on a bridge, or on its registry, for an operation. -/
def run (b : Bridge) (host : Host) (h : Handle) : Operation α → Reply (Bridge × Host) α
  | editTree f => b.ask host (·.editTree h f)
  | setActivationHandler handler => b.ask host (·.setActivationHandler h handler)
  | setActionHandler name => b.ask host (·.setActionHandler h name)
  | nodeInfo v => b.ask host (·.nodeInfo h host.frame v)
  | findFocus kind => b.ask host (·.findFocus h host.frame kind)
  | hitTest p => b.ask host (·.hitTest h host.frame p)
  | perform v action => b.ask host (·.perform h host.frame v action)
  | hover motion p => b.ask host (·.hover h host.frame motion p)
  | updateIfActive u => b.ask host (·.updateIfActive h u)
  | requestUpdate => b.requestUpdate host h
  | destroy => ⟨(b.destroy h).1, ((b.destroy h).2, host), []⟩
  | destroyInRegistry => ⟨(b.destroyInRegistry h).1, ((b.destroyInRegistry h).2, host), []⟩

/-- The answer to an operation that is refused. -/
def refusal : Operation α → α
  | editTree _ | nodeInfo _ | findFocus _ | hitTest _ => none
  | setActivationHandler _ | setActionHandler _ | perform .. | hover .. | requestUpdate | destroy
  | destroyInRegistry => false
  | updateIfActive _ => .ok false

/-- What an operation does with the adapter, unless it is to destroy it or to tell the host. -/
def effect? : Operation α → Option (HostFrame → Adapter → Reply Adapter α)
  | editTree f => some fun _ a => ⟨some (f a.tree).1, a.editTree (f a.tree).2, []⟩
  | setActivationHandler handler => some fun _ a => ⟨true, a.setActivationHandler handler, []⟩
  | setActionHandler name => some fun _ a => ⟨true, a.setActionHandler name, []⟩
  | nodeInfo v => some fun frame a => a.nodeInfo frame v
  | findFocus kind => some fun frame a => a.findFocus frame kind
  | hitTest p => some fun frame a => a.hitTest frame p
  | perform v action => some fun frame a => a.perform frame v action
  | hover motion p => some fun frame a => a.hover frame motion p
  | updateIfActive u => some fun _ a => a.updateIfActive u
  | requestUpdate | destroy | destroyInRegistry => none

/-- An operation with an effect on the adapter runs on the adapter behind the handle. -/
theorem run_eq_ask {op : Operation α} {f : HostFrame → Adapter → Reply Adapter α}
    (hf : op.effect? = some f) :
    op.run b host h = b.ask host (·.onAdapter h op.refusal (f host.frame)) := by
  cases op with
  | requestUpdate | destroy | destroyInRegistry => cases hf
  | _ =>
    cases hf
    rfl

/-! ## What an operation leaves alone -/

/-- The adapters behind other handles, and the notifiers for them, stay as they are. -/
theorem other_handles (op : Operation α) (hne : k ≠ h) :
    (op.run b host h).state.1.registry.get? k = b.registry.get? k ∧
    (op.run b host h).state.1.notifier? k = b.notifier? k := by
  cases hf : op.effect? with
  | some f =>
    rw [run_eq_ask hf]
    have hget : (b.registry.onAdapter h op.refusal (f host.frame)).state.get? k =
        b.registry.get? k := by
      rw [Registry.get?_onAdapter, if_neg hne]
    exact ⟨hget, rfl⟩
  | none =>
    have hget : (b.registry.destroy h).2.get? k = b.registry.get? k := by
      rw [Registry.get?_destroy, if_neg hne]
    cases op with
    | requestUpdate =>
      rw [run, Bridge.requestUpdate]
      split
      · exact ⟨rfl, rfl⟩
      · exact ⟨rfl, rfl⟩
    | destroy =>
      have hpending : (b.pending.erase h).get? k = b.pending.get? k :=
        HandleMap.get?_erase_of_ne hne
      exact ⟨hget, congrArg (Option.map _) hpending⟩
    | destroyInRegistry => exact ⟨hget, rfl⟩
    | _ => cases hf

/-- An operation on a handle that does not resolve is refused and reaches nobody. -/
theorem refused (op : Operation α) (gone : b.registry.contains h = false) :
    (op.run b host h).answer = op.refusal ∧ (op.run b host h).signals = [] ∧
    (op.run b host h).state.1.registry = b.registry ∧
    (op.run b host h).state.1.mailbox = b.mailbox ∧ (op.run b host h).state.2 = host := by
  cases hf : op.effect? with
  | some f =>
    have hnone := Registry.get?_eq_none gone
    rw [run_eq_ask hf, Bridge.ask, Bridge.onRegistry, Registry.onAdapter_of_get?_eq_none hnone]
    exact ⟨rfl, rfl, rfl, rfl, rfl⟩
  | none =>
    cases op with
    | requestUpdate =>
      rw [run, Bridge.requestUpdate, if_neg (by simp [gone])]
      exact ⟨rfl, rfl, rfl, rfl, rfl⟩
    | destroy | destroyInRegistry =>
      have hsame := congrArg Prod.snd (Registry.destroy_eq_self gone)
      exact ⟨gone, rfl, hsame, rfl, rfl⟩
    | _ => cases hf

/-- What an operation does with the adapter behind the handle is all it does. -/
theorem applied {op : Operation α} {f : HostFrame → Adapter → Reply Adapter α} {a : Adapter}
    (hf : op.effect? = some f) (hget : b.registry.get? h = some a) :
    (op.run b host h).answer = (f host.frame a).answer ∧
    (op.run b host h).signals = (f host.frame a).signals ∧
    (op.run b host h).state.1.registry.get? h = some (f host.frame a).state ∧
    (op.run b host h).state.1.mailbox = b.mailbox ∧ (op.run b host h).state.2 = host := by
  rw [run_eq_ask hf]
  have hstate : (b.registry.onAdapter h op.refusal (f host.frame)).state.get? h =
      some (f host.frame a).state := by
    rw [Registry.get?_onAdapter, if_pos rfl, hget, Option.map_some]
  have hreply : (b.registry.onAdapter h op.refusal (f host.frame)).answer =
      (f host.frame a).answer ∧
      (b.registry.onAdapter h op.refusal (f host.frame)).signals = (f host.frame a).signals := by
    rw [Registry.onAdapter, hget]
    exact ⟨rfl, rfl⟩
  exact ⟨hreply.1, hreply.2, hstate, rfl, rfl⟩

end Operation

namespace Session

variable {config : Config} {past : List Occurrence} {s : Session} {α : Type} {h : Handle}

/-- What an operation makes of a bridge is part of its history. -/
theorem History.operate (history : History config past s) (idle : s.stage = .idle)
    (op : Operation α) (host : Host) (held : ∀ ns ∈ host.reactions, ∀ n ∈ ns, n ∈ s.notifiers)
    (h : Handle) : ∃ now, History config (now ++ past)
      { s with bridge := (op.run s.bridge host h).state.1 } := by
  cases hf : op.effect? with
  | some f =>
    rw [Operation.run_eq_ask hf]
    exact ⟨[_], history.next (.use h op.refusal (f host.frame) idle)⟩
  | none =>
    cases op with
    | requestUpdate => exact (history.tell idle host held h).2
    | destroy => exact ⟨[_], history.next (.step (.destroy h idle))⟩
    | destroyInRegistry => exact ⟨[_], history.next (.destroyInRegistry h idle)⟩
    | _ => cases hf

/-- **Operations stay with their handle.** Whatever has happened to a bridge and its registry, for
    every operation, every host and every handle:

    * The adapters behind all other handles stay as they are, and so do the notifiers for them.
    * If the handle does not resolve, the answer is that there was nothing to do. Nobody is told,
      called or asked for an update, no adapter is changed, and no request is posted.
    * If it resolves, an operation that runs on the adapter answers what the adapter answers, leaves
      behind what the adapter becomes, and reaches those whom the adapter reaches.
    * A handle does not resolve if it was never handed out, or has been destroyed since it was, or
      if another handle resolves in its slot.
    * The bridge that is left goes on with its history. -/
theorem operations_confined (history : History config past s) (op : Operation α) (host : Host)
    (h : Handle) :
    (∀ k, k ≠ h → (op.run s.bridge host h).state.1.registry.get? k = s.bridge.registry.get? k ∧
      (op.run s.bridge host h).state.1.notifier? k = s.bridge.notifier? k) ∧
    (s.bridge.registry.contains h = false →
      (op.run s.bridge host h).answer = op.refusal ∧ (op.run s.bridge host h).signals = [] ∧
      (op.run s.bridge host h).state.1.registry = s.bridge.registry ∧
      (op.run s.bridge host h).state.1.mailbox = s.bridge.mailbox ∧
      (op.run s.bridge host h).state.2 = host) ∧
    (∀ a f, s.bridge.registry.get? h = some a → op.effect? = some f →
      (op.run s.bridge host h).answer = (f host.frame a).answer ∧
      (op.run s.bridge host h).signals = (f host.frame a).signals ∧
      (op.run s.bridge host h).state.1.registry.get? h = some (f host.frame a).state ∧
      (op.run s.bridge host h).state.1.mailbox = s.bridge.mailbox ∧
      (op.run s.bridge host h).state.2 = host) ∧
    (¬ Registry.Stands (changes past) h → s.bridge.registry.contains h = false) ∧
    (∀ k, k ≠ h → k.index = h.index → s.bridge.registry.contains k = true →
      s.bridge.registry.contains h = false) ∧
    (s.stage = .idle → (∀ ns ∈ host.reactions, ∀ n ∈ ns, n ∈ s.notifiers) →
      ∃ now, History config (now ++ past)
        { s with bridge := (op.run s.bridge host h).state.1 }) := by
  refine ⟨?_, op.refused, ?_, ?_, ?_, ?_⟩
  · intro k hne
    exact op.other_handles hne
  · intro a f hget hf
    exact Operation.applied hf hget
  · intro gone
    apply Bool.eq_false_iff.2
    intro hc
    exact gone (history.registry.1.stands_of_contains hc)
  · intro k hne hi hc
    have hnone := SlotTable.get?_eq_none_of_contains hc hi.symm hne.symm
    rw [Registry.contains, SlotTable.contains, hnone]
    rfl
  · intro idle held
    exact history.operate idle op host held h

/-- The handle of an adapter that is gone does not reach the one in its place. -/
theorem operations_confined_reused :
    ∃ past s, History {} past s ∧ s.issued = [⟨1, 1⟩, ⟨1, 3⟩] ∧
      s.bridge.registry.contains ⟨1, 3⟩ = true ∧ s.bridge.registry.contains ⟨1, 1⟩ = false ∧
      ∀ v action host, ((Operation.perform v action).run s.bridge host ⟨1, 1⟩).answer = false ∧
        ((Operation.perform v action).run s.bridge host ⟨1, 1⟩).signals = [] ∧
        ((Operation.perform v action).run s.bridge host ⟨1, 1⟩).state.1.registry =
          s.bridge.registry := by
  have hstart : History {} [] (start {}) := .start
  have hcreate := hstart.next (.step (.create (h := ⟨1, 1⟩) rfl rfl))
  have hdestroy := hcreate.next (.step (.destroy ⟨1, 1⟩ rfl))
  have hagain := hdestroy.next (.createInRegistry (h := ⟨1, 3⟩) rfl rfl)
  obtain ⟨-, -, -, -, hslot, -⟩ := operations_confined hagain .requestUpdate {} ⟨1, 1⟩
  have hgone := hslot ⟨1, 3⟩ (by decide) rfl rfl
  refine ⟨_, _, hagain, rfl, rfl, hgone, ?_⟩
  intro v action host
  obtain ⟨-, hrefused, -⟩ := operations_confined hagain (.perform v action) host ⟨1, 1⟩
  obtain ⟨hanswer, hsignals, hregistry, -, -⟩ := hrefused hgone
  exact ⟨hanswer, hsignals, hregistry⟩

end Session

end AccessBridge
