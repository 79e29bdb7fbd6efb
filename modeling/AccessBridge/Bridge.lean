import AccessBridge.HandleMap
import AccessBridge.Notifier
import AccessBridge.Registry

/-!
# Bridges

A bridge serves one host: it owns the adapters of the host's surfaces and the mailbox through
which other threads ask for updates. An adapter created by the bridge has a pending flag; one
created in the registry alone has none, and nobody can be given a notifier for it.
-/

namespace AccessBridge

/-- The accessibility state behind one host. -/
structure Bridge where
  config : Config
  registry : Registry
  mailbox : Mailbox
  /-- The pending flags of adapters created by the bridge. -/
  pending : HandleMap FlagId := {}

namespace Bridge

/-- A bridge without adapters. -/
def ofConfig (config : Config) : Bridge where
  config
  registry := .ofConfig config
  mailbox := { inbox := .empty config.drainBatchSize }

/-! ## Adapters -/

/-- Creates an adapter and its pending flag. -/
def create (b : Bridge) : Except RegistryFull (Handle × Bridge) :=
  match b.registry.create with
  | .error e => .error e
  | .ok (h, registry) =>
    let (flag, mailbox) := b.mailbox.newFlag
    .ok (h, { b with registry, mailbox, pending := b.pending.insert h flag })

/-- Destroys an adapter and takes its flag away. Requests that wait for it will reach nobody. -/
def destroy (b : Bridge) (h : Handle) : Bool × Bridge :=
  let (found, registry) := b.registry.destroy h
  (found, { b with registry, pending := b.pending.erase h })

/-- Creates an adapter in the registry alone. -/
def createInRegistry (b : Bridge) : Except RegistryFull (Handle × Bridge) :=
  b.registry.create.map fun (h, registry) => (h, { b with registry })

/-- Destroys an adapter in the registry alone; its flag stays. -/
def destroyInRegistry (b : Bridge) (h : Handle) : Bool × Bridge :=
  let (found, registry) := b.registry.destroy h
  (found, { b with registry })

/-- Runs an operation of the registry. -/
def onRegistry {α : Type} (b : Bridge) (op : Registry → Reply Registry α) : Reply Bridge α :=
  let reply := op b.registry
  ⟨reply.answer, { b with registry := reply.state }, reply.signals⟩

/-! ## Notifications -/

/-- A notifier for an adapter. -/
def notifier? (b : Bridge) (h : Handle) : Option Notifier :=
  (b.pending.get? h).map fun flag => ⟨h, flag, b.config.coalesceUpdates⟩

/-- Installs the callback that runs after every request. -/
def setWaker (b : Bridge) (name : String) : Bridge :=
  { b with mailbox := { b.mailbox with inbox := b.mailbox.inbox.setWaker name } }

/-- Whether requests wait. -/
def hasPending (b : Bridge) : Bool := b.mailbox.inbox.hasPending

/-- Tells the host at once that an adapter's tree changed, and answers whether there is one. -/
def requestUpdate (b : Bridge) (host : Host) (h : Handle) : Reply (Bridge × Host) Bool :=
  if b.registry.contains h then
    let (host, mailbox, signals) := host.invalidate b.mailbox
    ⟨true, ({ b with mailbox }, host), signals⟩
  else ⟨false, (b, host), []⟩

/-- A delivery of requests in progress. -/
structure Delivery where
  mailbox : Mailbox
  host : Host
  /-- How many times the host was told. -/
  told : Nat := 0
  signals : List Signal := []

/-- Takes the oldest request out of a delivery. -/
def Delivery.take? (d : Delivery) : Option (Handle × Delivery) :=
  d.mailbox.take?.map fun (h, mailbox) => (h, { d with mailbox })

/-- Delivers one request: the adapter's flag goes down, and then the host is told if the adapter
    is alive. A request made by the host meanwhile finds the flag down. -/
def deliver (b : Bridge) (h : Handle) (d : Delivery) : Delivery :=
  let lowered := match b.pending.get? h with
    | some flag => d.mailbox.setFlag flag false
    | none => d.mailbox
  if b.registry.contains h then
    let (host, mailbox, signals) := d.host.invalidate lowered
    { mailbox, host, told := d.told + 1, signals := d.signals ++ signals }
  else { d with mailbox := lowered }

/-- How many requests are delivered at a time: a batch, or all that wait now. -/
def deliveryLimit (b : Bridge) : Nat :=
  if b.config.drainBatchSize = 0 then b.mailbox.inbox.size else b.mailbox.inbox.batchSize

/-- Delivers requests that wait, the oldest first, and answers how many times the host was told.
    Requests made meanwhile wait for the next time unless the batch has room for them. -/
def processPending (b : Bridge) (host : Host) : Reply (Bridge × Host) Nat :=
  let start : Delivery := { mailbox := b.mailbox, host }
  let (_, d) := drain Delivery.take? b.deliver b.deliveryLimit start
  ⟨d.told, ({ b with mailbox := d.mailbox }, d.host), d.signals⟩

/-- What is left when the bridge is gone: a mailbox that nobody drains. -/
def close (b : Bridge) : Mailbox := b.mailbox.close

end Bridge

end AccessBridge
