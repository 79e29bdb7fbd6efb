import AccessBridge.Host.VirtualId

/-!
# Accessibility events

What the bridge tells a host about one node of a surface, with the type numbers of the host's
framework, and the pointer motions that a host reports while it hovers.
-/

namespace AccessBridge

/-- An event about the node with the given virtual id. -/
inductive Event where
  /-- The content of the node's subtree changed. -/
  | contentChanged (v : VirtualId)
  /-- The node took input focus. -/
  | focused (v : VirtualId)
  /-- The node was clicked. -/
  | clicked (v : VirtualId)
  /-- The node's value changed. -/
  | textChanged (v : VirtualId) (before after : Option String)
  /-- The node took accessibility focus. -/
  | accessibilityFocused (v : VirtualId)
  /-- The node lost accessibility focus. -/
  | accessibilityFocusCleared (v : VirtualId)
  /-- A hovering pointer came over the node. -/
  | hoverEnter (v : VirtualId)
  /-- A hovering pointer left the node. -/
  | hoverExit (v : VirtualId)
deriving DecidableEq, Repr

namespace Event

/-- The number of the event's type in the host's framework. -/
def typeCode : Event → Int
  | clicked _ => 0x1
  | focused _ => 0x8
  | textChanged .. => 0x10
  | hoverEnter _ => 0x80
  | hoverExit _ => 0x100
  | contentChanged _ => 0x800
  | accessibilityFocused _ => 0x8000
  | accessibilityFocusCleared _ => 0x10000

/-- The node that the event is about. -/
def virtualId : Event → VirtualId
  | contentChanged v | focused v | clicked v | textChanged v _ _ | accessibilityFocused v
  | accessibilityFocusCleared v | hoverEnter v | hoverExit v => v

end Event

/-- How a hovering pointer moved. -/
inductive HoverMotion where
  | move
  | enter
  | exit
deriving DecidableEq, Repr

namespace HoverMotion

/-- The host's number for the motion. -/
def code : HoverMotion → Int
  | move => 7
  | enter => 9
  | exit => 10

/-- The motion behind a host's number. -/
def ofCode? (c : Int) : Option HoverMotion :=
  [move, enter, exit].find? (·.code == c)

theorem ofCode?_code (m : HoverMotion) : ofCode? m.code = some m := by
  cases m <;> rfl

end HoverMotion

end AccessBridge
