/-!
# Actions of the toolkit

The actions that an application's nodes may support, and the request by which the bridge asks
the application to carry one out.
-/

namespace AccessBridge

/-- An action in the toolkit's vocabulary. -/
inductive Action where
  | click | focus | blur | collapse | expand | customAction | decrement | increment | hideTooltip
  | showTooltip | replaceSelectedText | scrollBackward | scrollDown | scrollForward | scrollLeft
  | scrollRight | scrollUp | scrollIntoView | scrollToPoint | setScrollOffset | setTextSelection
  | setSequentialFocusNavigationStartingPoint | setValue | showContextMenu
deriving DecidableEq, Repr, Inhabited

namespace Action

/-- Every action, in the vocabulary's order. -/
def all : List Action :=
  [click, focus, blur, collapse, expand, customAction, decrement, increment, hideTooltip,
    showTooltip, replaceSelectedText, scrollBackward, scrollDown, scrollForward, scrollLeft,
    scrollRight, scrollUp, scrollIntoView, scrollToPoint, setScrollOffset, setTextSelection,
    setSequentialFocusNavigationStartingPoint, setValue, showContextMenu]

/-- The actions that a node of the toolkit hands on to the host, in the order in which it lists
    them. -/
def advertised : List Action := [click, expand, collapse, increment, decrement]

end Action

end AccessBridge
