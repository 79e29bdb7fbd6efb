import AccessBridge.Host.Event
import AccessBridge.Host.Resolution
import AccessBridge.Inbox
import AccessBridge.NodeId

/-!
# Signals

Everything that an operation lets others notice is a signal: what the host is told and which
callbacks run, in order. An operation answers, leaves a new state behind and sends signals; a
`Reply` holds the three. Callbacks go by name.
-/

namespace AccessBridge

/-- A demand on the application, and the node it is about. -/
structure ActionRequest where
  demand : Demand
  target : NodeId
deriving DecidableEq, Repr

/-- Something that others notice. -/
inductive Signal where
  /-- The host is told to query the surface again. -/
  | invalidated
  /-- The host is sent an event. -/
  | event (e : Event)
  /-- An action handler is called. -/
  | requested (handler : String) (request : ActionRequest)
  /-- An activation handler is asked for a tree. -/
  | activated (handler : String)
  /-- An update is asked for and built. -/
  | updateBuilt
  /-- A waker runs. -/
  | woken (waker : String)
  /-- The host has asked for another update while it was told to query again. `wasPending` says
      whether one was pending just before. -/
  | rerequested (outcome : Except InboxClosed Bool) (wasPending : Bool)

/-- The answer of an operation, the state after it and the signals it sent. -/
structure Reply (σ α : Type) where
  answer : α
  state : σ
  signals : List Signal := []

/-- The signals by which events reach the host. -/
def raise (events : List Event) : List Signal := events.map .event

end AccessBridge
