/-!
# Threads and the interface thread

Accessibility state belongs to one thread. A binding remembers that thread and tells whether
another one may touch the state.
-/

namespace AccessBridge

/-- A thread: its number, never used for another thread, and the name it may have. -/
structure Thread where
  number : Nat
  name : Option String := none
deriving DecidableEq, Repr

namespace Thread

/-- The name by which messages call the thread. -/
def label (t : Thread) : String := t.name.getD "<unnamed>"

/-- The text of a thread's number. -/
def numberText (t : Thread) : String := s!"ThreadId({t.number})"

end Thread

/-- The reason for which work is refused on a thread. -/
structure WrongThread where
  thread : Thread
deriving DecidableEq, Repr

/-- The wording of the refusal. -/
def WrongThread.message (e : WrongThread) : String :=
  s!"operation requires the UI thread (called from {e.thread.label})"

/-- A place in a program's text. -/
structure CodeLocation where
  file : String := ""
  line : Nat := 0

/-- The text of a place; a place without a file is unknown. -/
def CodeLocation.text (l : CodeLocation) : String :=
  if l.file = "" then "<unknown>" else s!"{l.file}:{l.line}"

/-- State bound to the thread it was created on. -/
structure ThreadBinding where
  owner : Thread

namespace ThreadBinding

/-- Whether a thread is the owner. -/
def isOwner (b : ThreadBinding) (t : Thread) : Bool := t.number == b.owner.number

/-- Lets the owner pass and refuses any other thread. -/
def check (b : ThreadBinding) (t : Thread) : Except WrongThread Unit :=
  if b.isOwner t then .ok () else .error ⟨t⟩

/-- The report on a thread that touched what it does not own. -/
def violation (b : ThreadBinding) (t : Thread) (msg : String) (location : CodeLocation) : String :=
  String.intercalate "\n"
    ["", "UI THREAD AFFINITY VIOLATION", "", msg, "", "Location: " ++ location.text,
      "Bound to thread: " ++ b.owner.numberText,
      "Current thread: \"" ++ t.label ++ "\" (ID: " ++ t.numberText ++ ")", "",
      "Accessibility trees and adapters belong to the UI thread. From a",
      "worker thread, use an UpdateNotifier to request an update; the",
      "UI thread applies it when it drains its executor."]

/-- Lets the owner pass and reports any other thread, with a message and a place. -/
def assertOwnerAt (b : ThreadBinding) (t : Thread) (msg : String) (location : CodeLocation) :
    Except String Unit :=
  if b.isOwner t then .ok () else .error (b.violation t msg location)

/-- Lets the owner pass and reports any other thread. -/
def assertOwner (b : ThreadBinding) (t : Thread) : Except String Unit :=
  b.assertOwnerAt t "accessibility state accessed off the UI thread" {}

/-- Does work that only the owner may do. -/
def guard {α : Type} (b : ThreadBinding) (t : Thread) (work : Unit → α) : Except String α :=
  (b.assertOwner t).map work

end ThreadBinding

end AccessBridge
