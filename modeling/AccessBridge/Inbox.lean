/-!
# The inbox of the interface thread

Messages cross from any thread to the interface thread through an inbox: they are posted at one
end and drained, in order, at the other. A waker, if one is set, runs after every post. `drain`
takes at most as many messages as it is told to, so that a handler which posts again cannot keep
it busy forever.
-/

namespace AccessBridge

/-- The reason for which a post fails: nobody is left to drain the inbox. -/
inductive InboxClosed where
  | closed
deriving DecidableEq, Repr

/-- The wording of a failed post. -/
def InboxClosed.message : InboxClosed → String
  | closed => "the UI executor has been dropped"

/-- Messages on their way to the interface thread. -/
structure Inbox (α : Type) where
  /-- The messages waiting, the oldest first. -/
  messages : List α := []
  /-- The name of the callback that runs after a post. -/
  waker : Option String := none
  isOpen : Bool := true
  /-- How many messages a batch may take; never none. -/
  batchSize : Nat

/-- Takes and delivers up to a number of messages of a state that holds them, and counts them. -/
def drain {σ α : Type} (take? : σ → Option (α × σ)) (deliver : α → σ → σ) : Nat → σ → Nat × σ
  | 0, s => (0, s)
  | n + 1, s =>
    match take? s with
    | none => (0, s)
    | some (m, s) =>
      let (count, s) := drain take? deliver n (deliver m s)
      (count + 1, s)

namespace Inbox

variable {α : Type}

/-- The batch size of an inbox for which none is chosen. -/
def defaultBatchSize : Nat := 64

/-- An inbox with nothing in it. -/
def empty (batchSize : Nat) : Inbox α where
  batchSize := max batchSize 1

/-- The number of messages waiting. -/
def size (q : Inbox α) : Nat := q.messages.length

/-- Whether messages are waiting. -/
def hasPending (q : Inbox α) : Bool := !q.messages.isEmpty

/-- Adds a message. Answers the inbox with it and the waker that ran. -/
def post (q : Inbox α) (m : α) : Except InboxClosed (Inbox α × Option String) :=
  if q.isOpen then .ok ({ q with messages := q.messages ++ [m] }, q.waker) else .error .closed

/-- The oldest message and the inbox without it. -/
def take? (q : Inbox α) : Option (α × Inbox α) :=
  match q.messages with
  | [] => none
  | m :: rest => some (m, { q with messages := rest })

/-- Sets the waker, also for senders that exist already. -/
def setWaker (q : Inbox α) (name : String) : Inbox α := { q with waker := some name }

/-- Takes the waker away. -/
def clearWaker (q : Inbox α) : Inbox α := { q with waker := none }

/-- The inbox that nobody drains any more. Its messages are lost. -/
def close (q : Inbox α) : Inbox α := { q with messages := [], waker := none, isOpen := false }

@[simp] theorem post_closed {q : Inbox α} {m : α} (h : q.isOpen = false) :
    q.post m = .error .closed := by
  simp [post, h]

end Inbox

end AccessBridge
