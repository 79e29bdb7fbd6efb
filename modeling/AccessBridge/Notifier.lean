import AccessBridge.Host.NodeInfo
import AccessBridge.Signal
import AccessBridge.SlotTable

/-!
# Notifiers

Any thread may ask that the host be told of a change in an adapter's tree. It holds a notifier,
which posts the adapter's handle to the mailbox of the interface thread. A notifier that folds
requests together raises the adapter's pending flag with the first of them and posts no further
one until the flag is down again. A notifier outlives its bridge; so do the flags.
-/

namespace AccessBridge

/-- The number of a pending flag. -/
abbrev FlagId := Nat

/-- What notifiers share with the interface thread: the requests on their way and the pending
    flags, by number. -/
structure Mailbox where
  inbox : Inbox Handle
  flags : Array Bool := #[]

namespace Mailbox

/-- A new flag, which is down. -/
def newFlag (m : Mailbox) : FlagId × Mailbox :=
  (m.flags.size, { m with flags := m.flags.push false })

/-- Whether a flag is up. -/
def isRaised (m : Mailbox) (f : FlagId) : Bool := m.flags[f]?.getD false

/-- Puts a flag up or down. -/
def setFlag (m : Mailbox) (f : FlagId) (up : Bool) : Mailbox :=
  { m with flags := m.flags.setIfInBounds f up }

/-- The oldest request and the mailbox without it. -/
def take? (m : Mailbox) : Option (Handle × Mailbox) :=
  m.inbox.take?.map fun (h, inbox) => (h, { m with inbox })

/-- The mailbox that nobody drains any more. Flags stay as they are. -/
def close (m : Mailbox) : Mailbox := { m with inbox := m.inbox.close }

end Mailbox

/-- A means to ask for the update of one adapter, on any thread. -/
structure Notifier where
  handle : Handle
  flag : FlagId
  /-- Whether requests fold into one while they wait. -/
  coalesce : Bool
deriving DecidableEq, Repr

namespace Notifier

/-- Whether a request waits, as far as the flag knows. -/
def isPending (n : Notifier) (m : Mailbox) : Bool := m.isRaised n.flag

/-- Asks for an update. Answers `false` if the request folds into one that waits; fails if nobody
    is left to deliver it. -/
def requestUpdate (n : Notifier) (m : Mailbox) : Reply Mailbox (Except InboxClosed Bool) :=
  if n.coalesce && m.isRaised n.flag then ⟨.ok false, m, []⟩
  else
    let m := if n.coalesce then m.setFlag n.flag true else m
    match m.inbox.post n.handle with
    | .error e => ⟨.error e, m.setFlag n.flag false, []⟩
    | .ok (inbox, waker) => ⟨.ok true, { m with inbox }, waker.toList.map .woken⟩

/-- Asks for an update a number of times. -/
def requestUpdates (n : Notifier) : Nat → Mailbox → Reply Mailbox (List (Except InboxClosed Bool))
  | 0, m => ⟨[], m, []⟩
  | times + 1, m =>
    let first := n.requestUpdate m
    let others := n.requestUpdates times first.state
    ⟨first.answer :: others.answer, others.state, first.signals ++ others.signals⟩

end Notifier

/-- The host of a bridge: where it has put the surface, and how it reacts to being told to query
    again. One reaction is used up each time it is told, and consists of requests for updates. -/
structure Host where
  frame : HostFrame := {}
  reactions : List (List Notifier) := []

namespace Host

/-- One request that the host makes while it is told to query again. -/
def rerequest (m : Mailbox) (n : Notifier) : Mailbox × List Signal :=
  let reply := n.requestUpdate m
  (reply.state, reply.signals ++ [.rerequested reply.answer (n.isPending m)])

/-- The requests of one reaction. -/
def react (m : Mailbox) : List Notifier → Mailbox × List Signal
  | [] => (m, [])
  | n :: ns =>
    let (m, first) := rerequest m n
    let (m, others) := react m ns
    (m, first ++ others)

/-- Tells the host to query again. -/
def invalidate (host : Host) (m : Mailbox) : Host × Mailbox × List Signal :=
  let (m, signals) := react m (host.reactions.head?.getD [])
  ({ host with reactions := host.reactions.tail }, m, .invalidated :: signals)

end Host

end AccessBridge
