import AccessBridge.Proofs.Adapter.Runs

/-!
# Offered actions

Which actions a host is offered is read off the flags of a node's description; whether an action
applies is decided from the node and the focus it holds. The two decisions are the same for every
kind of action, except that a focus which the node holds already is not offered to it again
(`ActionKind.isOffered_iff_resolve`).
-/

namespace AccessBridge

theorem Resolution.isSome_scroll {n : Node} {direction step : Action} :
    (scroll n direction step).isSome = (n.states.scrollable || n.supports step) := by
  unfold scroll
  split
  · rename_i hs
    rw [hs]
    rfl
  · rename_i hs
    rw [Bool.not_eq_true] at hs
    rw [hs, Bool.false_or]
    split <;> rename_i hn
    · rw [hn]
      rfl
    · rw [Bool.not_eq_true] at hn
      rw [hn]
      rfl

/-- A kind of action is offered to a node if it applies, unless it would take a focus that the node
    has. -/
theorem ActionKind.isOffered_iff_resolve {t : Tree} {cursor : Option NodeId} {id : NodeId}
    {n : Node} {action : HostAction}
    (text : action.kind = .setText → ∃ s, action.textArgument? setTextArgument = some s) :
    action.kind.isOffered n (.ofNode t cursor id n) = true ↔
      (action.resolve n ⟨decide (t.focus = some id), decide (cursor = some id)⟩).isSome = true ∧
      ¬ (action.kind = .focus ∧ t.focus = some id) ∧
      ¬ (action.kind = .accessibilityFocus ∧ cursor = some id) := by
  unfold HostAction.resolve
  cases hk : action.kind with
  | focus =>
    simp only [isOffered, NodeFlags.ofNode]
    by_cases hfocus : t.focus = some id <;> simp [hfocus]
  | accessibilityFocus =>
    simp only [isOffered, NodeFlags.ofNode]
    by_cases hcursor : cursor = some id <;> simp [hcursor]
  | scrollForward | scrollBackward => simp [isOffered, NodeFlags.ofNode, Resolution.isSome_scroll]
  | setText =>
    obtain ⟨s, hs⟩ := text hk
    simp [isOffered, NodeFlags.ofNode, hs]
  | clearFocus | clearAccessibilityFocus | click | expand | collapse =>
    simp [isOffered, NodeFlags.ofNode]

namespace Adapter

variable {a : Adapter} {id : NodeId}

/-- **The actions on offer are those that apply.** For every live node of a reachable adapter that
    has been asked, however the host has put the surface: the node goes by its virtual id, and under
    every number that stands for it the host gets a description that lists no action twice. An
    action, given a text where it sets one, is listed if performing it at once succeeds, and not
    otherwise. The one exception is focus, of either sort, which is not offered to the node that
    holds it. -/
theorem Reachable.offered_iff_performed (h : a.Reachable) (active : a.phase = .active)
    (live : a.tree.contains id = true) (frame frame' : HostFrame) :
    a.tree.nodeIdOf? (a.tree.virtualIdOf id) = some id ∧
    ∀ v, a.tree.nodeIdOf? v = some id →
      ∃ info, (a.nodeInfo frame v).answer = some info ∧ info.actions.Nodup ∧
        ∀ action : HostAction,
          (action.kind = .setText → ∃ s, action.textArgument? setTextArgument = some s) →
          (action.kind ∈ info.actions ↔ (a.perform frame' v action).answer = true ∧
            ¬ (action.kind = .focus ∧ a.tree.focus = some id) ∧
            ¬ (action.kind = .accessibilityFocus ∧ a.accessibilityFocus = some id)) := by
  refine ⟨Tree.nodeIdOf?_virtualIdOf (h.tree.inRange live), fun v hv => ?_⟩
  obtain ⟨n, hn⟩ := Tree.contains_iff_node?.1 live
  refine ⟨.ofNode a.tree frame a.accessibilityFocus id n, ?_, ActionKind.nodup_offered,
    fun action text => ?_⟩
  · rw [answer_nodeInfo active, hv, Option.bind_some, hn, Option.map_some]
  · have hresolve : a.resolve? id action = action.resolve n (a.heldFocus id) := by
      rw [resolve?, hn, Option.bind_some]
    rw [answer_perform active, hv, Option.bind_some, hresolve]
    exact ActionKind.mem_offered.trans (ActionKind.isOffered_iff_resolve text)

/-- A text input that holds input focus is offered a new text, and not the focus once more. -/
theorem offered_iff_performed_text_input :
    let t := ((Tree.ofRoot {}).step (.insert ⟨0⟩ ⟨1⟩ (.ofRole .textInput))).step
      (.setFocus (some ⟨1⟩))
    let a := ((ofTree t).call (.nodeInfo {} hostView)).1
    a.Reachable ∧ a.phase = .active ∧ a.tree.contains ⟨1⟩ = true ∧
      ∃ info, (a.nodeInfo {} 1).answer = some info ∧ info.actions.Nodup ∧
        .setText ∈ info.actions ∧ .focus ∉ info.actions := by
  intro t a
  have ht : t.Reachable := ((Tree.Reachable.ofRoot {}).step _).step _
  have ha : a.Reachable := .call (.ofTree ht) _
  have live : a.tree.contains ⟨1⟩ = true := by decide +kernel
  have hfocus : a.tree.focus = some ⟨1⟩ := by decide +kernel
  have hset : (a.perform {} 1 (.setText "abc")).answer = true := by decide +kernel
  obtain ⟨-, hall⟩ := Reachable.offered_iff_performed ha rfl live {} {}
  obtain ⟨info, hinfo, hnodup, hiff⟩ := hall 1 (by decide +kernel)
  refine ⟨ha, rfl, live, info, hinfo, hnodup, ?_, fun hmem => ?_⟩
  · have htext := HostAction.textArgument?_setText "abc"
    exact (hiff (.setText "abc") fun _ => ⟨_, htext⟩).2 ⟨hset, nofun, nofun⟩
  · exact ((hiff { kind := .focus } nofun).1 hmem).2.1 ⟨rfl, hfocus⟩

end Adapter

end AccessBridge
