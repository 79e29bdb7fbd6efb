import Std.Data.ExtTreeMap

/-!
# Actions of a host

A host asks for an action by a kind, which it knows by a number, and a bundle of named arguments.
-/

namespace AccessBridge

open Std (ExtTreeMap)

/-- The kinds of action that a host may ask for, in the order in which they are offered. -/
inductive ActionKind where
  | focus | clearFocus | click | accessibilityFocus | clearAccessibilityFocus | scrollForward
  | scrollBackward | expand | collapse | setText
deriving DecidableEq, Repr

namespace ActionKind

/-- Every kind, in order. -/
def all : List ActionKind :=
  [focus, clearFocus, click, accessibilityFocus, clearAccessibilityFocus, scrollForward,
    scrollBackward, expand, collapse, setText]

/-- The host's number for the kind. -/
def code : ActionKind → Int
  | focus => 0x1
  | clearFocus => 0x2
  | click => 0x10
  | accessibilityFocus => 0x40
  | clearAccessibilityFocus => 0x80
  | scrollForward => 0x1000
  | scrollBackward => 0x2000
  | expand => 0x40000
  | collapse => 0x80000
  | setText => 0x200000

/-- The kind behind a host's number. -/
def ofCode? (c : Int) : Option ActionKind :=
  all.find? (·.code == c)

theorem mem_all_kinds (k : ActionKind) : k ∈ all := by
  cases k <;> decide

theorem nodup_all : all.Nodup := by
  decide

theorem ofCode?_code (k : ActionKind) : ofCode? k.code = some k := by
  cases k <;> rfl

end ActionKind

/-- The two kinds of focus that a host may look up. -/
inductive FocusKind where
  /-- Keyboard focus. -/
  | input
  /-- The cursor of a screen reader. -/
  | accessibility
deriving DecidableEq, Repr

namespace FocusKind

/-- The host's number for the kind of focus. -/
def code : FocusKind → Int
  | input => 1
  | accessibility => 2

/-- The kind of focus behind a host's number. -/
def ofCode? (c : Int) : Option FocusKind :=
  [input, accessibility].find? (·.code == c)

end FocusKind

/-- The value of one argument. -/
inductive Argument where
  | text (s : String)
  | int (n : Int)
  | bool (b : Bool)
deriving DecidableEq, Repr

/-- The named arguments of an action. -/
abbrev Arguments := ExtTreeMap String Argument

/-- The argument under which the text to set is given. -/
def setTextArgument : String := "ACTION_ARGUMENT_SET_TEXT_CHARSEQUENCE"

/-- An action that a host asks for. -/
structure HostAction where
  kind : ActionKind
  arguments : Arguments := ∅

namespace HostAction

/-- The action with one more argument, in place of one of the same name. -/
def addArgument (a : HostAction) (key : String) (value : Argument) : HostAction :=
  { a with arguments := a.arguments.insert key value }

/-- The action that sets a node's text. -/
def setText (text : String) : HostAction :=
  ({ kind := .setText } : HostAction).addArgument setTextArgument (.text text)

/-- The action behind a host's number. -/
def ofCode? (c : Int) (arguments : Arguments) : Option HostAction :=
  (ActionKind.ofCode? c).map fun kind => { kind, arguments }

/-- The argument of a name, if it is a text. -/
def textArgument? (a : HostAction) (key : String) : Option String :=
  match a.arguments[key]? with
  | some (.text s) => some s
  | _ => none

@[simp] theorem textArgument?_setText (s : String) :
    (setText s).textArgument? setTextArgument = some s := by
  simp [setText, addArgument, textArgument?]

end HostAction

end AccessBridge
