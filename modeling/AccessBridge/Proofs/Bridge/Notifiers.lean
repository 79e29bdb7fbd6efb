import AccessBridge.Proofs.Bridge.Flags
import AccessBridge.Proofs.Bridge.History

/-!
# For whom there is a notifier

Whether an adapter is alive is recorded twice: in the registry, and in the bridge's map of pending
flags. Only the bridge's own calls keep the map (`Flagged`), so it agrees with the registry about
the adapters that the registry has not created or destroyed on its own
(`Session.notifier_exists_iff`). The notifiers of one bridge all fold requests, or none does
(`Session.Uniform`).
-/

namespace AccessBridge.Session

/-- The bridge itself has created an adapter under a handle, and has neither destroyed it since nor
    created another one in its slot. -/
def Flagged (past : List Occurrence) (h : Handle) : Prop :=
  Since (fun o => o ≠ .stepped (.destroyed h) ∧
    ∀ k, o = .stepped (.created k) → k.index ≠ h.index) (.stepped (.created h)) past

variable {config : Config} {past : List Occurrence} {o : Occurrence} {s s' : Session}
  {e : Happening} {h k : Handle} {b : Bridge}

theorem flagged_created :
    Flagged (.stepped (.created k) :: past) h ↔
      h = k ∨ h.index ≠ k.index ∧ Flagged past h := by
  by_cases heq : h = k
  · constructor
    · intro _
      left
      exact heq
    · intro _
      rw [heq]
      exact since_head
  · have hne : Occurrence.stepped (.created k) ≠ .stepped (.created h) := by simp [Ne.symm heq]
    rw [Flagged, since_cons hne, Flagged]
    simp [heq, eq_comm]

theorem flagged_destroyed :
    Flagged (.stepped (.destroyed k) :: past) h ↔ h ≠ k ∧ Flagged past h := by
  rw [Flagged, since_cons (by simp), Flagged]
  simp [eq_comm]

theorem flagged_other (hcreated : ∀ k, o ≠ .stepped (.created k))
    (hdestroyed : ∀ k, o ≠ .stepped (.destroyed k)) :
    Flagged (o :: past) h ↔ Flagged past h := by
  rw [Flagged, since_cons (hcreated h), Flagged]
  simp [hcreated, hdestroyed]

theorem Occurs.issued_grows (now : Occurs s o s') : s.issued <+: s'.issued := by
  cases now with
  | step step => exact step.issued_grows
  | createInRegistry => exact List.prefix_append _ _
  | _ => exact List.prefix_refl _

theorem History.growing (history : History config past s) (few : s.issued.length < 2 ^ 31) :
    s.bridge.registry.adapters.Growing s.issued := by
  obtain ⟨hregistry, hissued⟩ := history.registry
  rw [hissued] at few ⊢
  exact (hregistry.orderly few).growing

/-! ## Flags that are kept -/

/-- Only handles that have been handed out have flags. -/
theorem Occurs.issued_of_pending (now : Occurs s o s')
    (before : ∀ h f, s.bridge.pending.get? h = some f → h ∈ s.issued) {f : FlagId}
    (hf : s'.bridge.pending.get? h = some f) : h ∈ s'.issued := by
  cases now with
  | step step =>
    cases step with
    | create _ ok =>
      obtain ⟨-, -, -, hpending, -⟩ := Bridge.create_eq_ok ok
      rw [hpending] at hf
      rcases HandleMap.get?_insert_eq_some hf with ⟨rfl, -⟩ | hf
      · exact List.mem_append_right _ List.mem_cons_self
      · exact List.mem_append_left _ (before h f hf)
    | destroy k _ =>
      have hne : h ≠ k := by
        rintro rfl
        cases HandleMap.get?_erase_handle.symm.trans hf
      exact before h f ((HandleMap.get?_erase_of_ne hne).symm.trans hf)
    | _ => exact before h f hf
  | createInRegistry _ ok =>
    rw [(Bridge.createInRegistry_eq_ok ok).2] at hf
    exact List.mem_append_left _ (before h f hf)
  | _ => exact before h f hf

theorem History.issued_of_pending (history : History config past s) :
    ∀ h f, s.bridge.pending.get? h = some f → h ∈ s.issued := by
  induction history with
  | start =>
    intro h f hf
    rw [get?_pending_start] at hf
    cases hf
  | next _ now ih => exact fun h f => now.issued_of_pending ih

/-- No flag keeps out that of a new adapter: a flag that is left over in its slot is that of an
    older adapter, and not so old that versions have come half the way round since. -/
theorem History.holdsNewer_eq_false (history : History config past s)
    (few : (s.issued ++ [k]).length ≤ 2 ^ 30) (ok : s.bridge.create = .ok (k, b)) :
    s.bridge.pending.holdsNewer k = false := by
  rw [List.length_append, List.length_singleton] at few
  unfold HandleMap.holdsNewer
  split
  · rename_i version f he
    have few : s.issued.length < 2 ^ 31 := by omega
    have hg := history.growing few
    have hmem := history.issued_of_pending ⟨k.index, version⟩ f (HandleMap.get?_eq_some.2 he)
    obtain ⟨rfl, -⟩ := Bridge.create_eq_ok ok
    have hlt := hg.version_lt_insert (a := s.bridge.registry.newAdapter) few hmem rfl
    have hle := hg.version_insert_le (a := s.bridge.registry.newAdapter) few
    simp only at hlt
    apply HandleMap.isOlder_eq_false <;> omega
  · rfl

/-- Only the bridge's own calls reach the map of pending flags. -/
theorem Occurs.isSome_pending (now : Occurs s o s') (history : History config past s)
    (few : s'.issued.length ≤ 2 ^ 30)
    (before : (s.bridge.pending.get? h).isSome = true ↔ Flagged past h) :
    (s'.bridge.pending.get? h).isSome = true ↔ Flagged (o :: past) h := by
  cases now with
  | step step =>
    cases step with
    | create _ ok =>
      rw [flagged_created, ← before]
      exact isSome_pending_create ok (history.holdsNewer_eq_false few ok)
    | destroy k _ =>
      rw [flagged_destroyed, ← before]
      exact isSome_pending_destroy
    | _ =>
      rw [flagged_other (by simp) (by simp)]
      exact before
  | createInRegistry _ ok =>
    rw [flagged_other (by simp) (by simp), (Bridge.createInRegistry_eq_ok ok).2]
    exact before
  | _ =>
    rw [flagged_other (by simp) (by simp)]
    exact before

theorem History.isSome_pending (history : History config past s)
    (few : s.issued.length ≤ 2 ^ 30) :
    (s.bridge.pending.get? h).isSome = true ↔ Flagged past h := by
  induction history with
  | start =>
    rw [get?_pending_start]
    exact iff_of_false Bool.false_ne_true not_since_nil
  | next before now ih =>
    exact now.isSome_pending before few (ih (Nat.le_trans now.issued_grows.length_le few))

/-! ## Flags and adapters -/

/-- An occurrence keeps the flag of an adapter in step with its life, unless the registry creates or
    destroys the adapter on its own. -/
theorem Occurs.pending_iff_live (now : Occurs s o s') (history : History config past s)
    (few : s'.issued.length ≤ 2 ^ 30)
    (hcreate : o ≠ .createdInRegistry h) (hdestroy : o ≠ .destroyedInRegistry h)
    (before : (s.bridge.pending.get? h).isSome = true ↔ s.isLive h = true) :
    (s'.bridge.pending.get? h).isSome = true ↔ s'.isLive h = true := by
  have hfew : s.issued.length < 2 ^ 31 := by
    have hgrows := now.issued_grows.length_le
    omega
  have hg := history.growing hfew
  cases now with
  | step step =>
    cases step with
    | create _ ok =>
      exact pending_iff_live_create ok hg hfew (history.holdsNewer_eq_false few ok) before
    | destroy k _ => exact pending_iff_live_destroy before
    | _ => exact before
  | @createInRegistry k b _ ok =>
    obtain ⟨hr, hb⟩ := Bridge.createInRegistry_eq_ok ok
    have hne : h ≠ k := by
      intro heq
      apply hcreate
      rw [heq]
    have hlive := Registry.contains_create (k := h) hg hfew hr
    simp only [hne, false_or] at hlive
    rw [isLive, hlive, hb]
    exact before
  | destroyInRegistry k _ =>
    have hne : h ≠ k := by
      intro heq
      apply hdestroy
      rw [heq]
    have hlive := Registry.contains_destroy (r := s.bridge.registry) (h := k) (k := h)
    simp only [ne_eq, hne, not_false_eq_true, true_and] at hlive
    rw [isLive, Bridge.destroyInRegistry, hlive]
    exact before
  | use k fallback op _ =>
    rw [isLive, Bridge.onRegistry, Registry.contains_onAdapter]
    exact before
  | refuse | setWaker => exact before

theorem History.pending_iff_live (history : History config past s)
    (few : s.issued.length ≤ 2 ^ 30) (hcreate : .createdInRegistry h ∉ past)
    (hdestroy : .destroyedInRegistry h ∉ past) :
    (s.bridge.pending.get? h).isSome = true ↔ s.isLive h = true := by
  induction history with
  | start => exact housed_start.flagged h
  | next before now ih =>
    rw [List.mem_cons, not_or] at hcreate hdestroy
    have hbefore := ih (Nat.le_trans now.issued_grows.length_le few) hcreate.2 hdestroy.2
    exact now.pending_iff_live before few (Ne.symm hcreate.1) (Ne.symm hdestroy.1) hbefore

/-- As long as at most `2 ^ 30` adapters have been created, there is a notifier for a handle just
    when the bridge itself has created an adapter under it and has since neither destroyed it nor
    created another one in its slot. So there is one for a handle just when an adapter is alive
    under it, unless the registry created or destroyed this adapter on its own: then the registry
    may know an adapter that nobody can ask updates for, and there may be a notifier for an adapter
    that is gone. With one adapter more the versions of a slot may have come half the way round
    since the registry left a flag behind in it, and a new adapter in this slot gets none. -/
theorem notifier_exists_iff (history : History config past s) (few : s.issued.length ≤ 2 ^ 30) :
    (∀ h, (s.bridge.notifier? h).isSome = true ↔ Flagged past h) ∧
    (∀ h, .createdInRegistry h ∉ past → .destroyedInRegistry h ∉ past →
      ((s.bridge.notifier? h).isSome = true ↔ s.bridge.registry.contains h = true)) := by
  constructor
  · intro h
    rw [Bridge.notifier?, Option.isSome_map]
    exact history.isSome_pending few
  · intro h hcreate hdestroy
    rw [Bridge.notifier?, Option.isSome_map]
    exact history.pending_iff_live few hcreate hdestroy

/-- The registry creates the first adapter on its own, and the bridge the second. -/
theorem notifier_exists_iff_beside :
    ∃ past s, History {} past s ∧ s.issued.length ≤ 2 ^ 30 ∧
      .createdInRegistry ⟨2, 1⟩ ∉ past ∧ .destroyedInRegistry ⟨2, 1⟩ ∉ past ∧
      ((s.bridge.notifier? ⟨2, 1⟩).isSome = true ↔
        s.bridge.registry.contains ⟨2, 1⟩ = true) ∧
      ¬ (s.bridge.notifier? ⟨1, 1⟩).isSome = true := by
  have hstart : History {} [] (start {}) := .start
  have hown := hstart.next (.createInRegistry (h := ⟨1, 1⟩) rfl rfl)
  have hcreate := hown.next (.step (.create (h := ⟨2, 1⟩) rfl rfl))
  have few : [(⟨1, 1⟩ : Handle), ⟨2, 1⟩].length ≤ 2 ^ 30 := by decide
  obtain ⟨hflagged, hlive⟩ := notifier_exists_iff hcreate few
  refine ⟨_, _, hcreate, few, by simp, by simp, ?_, ?_⟩
  · apply hlive
    · simp
    · simp
  · rw [hflagged, flagged_created, flagged_other (by simp) (by simp)]
    rintro (heq | ⟨-, hnone⟩)
    · cases heq
    · exact not_since_nil hnone

/-- An adapter destroyed in the registry leaves its flag behind, and with it a notifier. -/
theorem not_forall_notifier_iff_live :
    ¬ ∀ config past s h, History config past s →
      ((s.bridge.notifier? h).isSome = true ↔ s.bridge.registry.contains h = true) := by
  intro hall
  have hstart : History {} [] (start {}) := .start
  have hcreate := hstart.next (.step (.create (h := ⟨1, 1⟩) rfl rfl))
  have hdestroy := hcreate.next (.destroyInRegistry ⟨1, 1⟩ rfl)
  have few : [(⟨1, 1⟩ : Handle)].length ≤ 2 ^ 30 := by decide
  have hflagged : Flagged [.destroyedInRegistry ⟨1, 1⟩, .stepped (.created ⟨1, 1⟩)] ⟨1, 1⟩ := by
    rw [flagged_other (by simp) (by simp)]
    exact since_head
  have hagree := hall _ _ _ ⟨1, 1⟩ hdestroy
  rw [Bridge.notifier?, Option.isSome_map, hdestroy.isSome_pending few] at hagree
  cases hagree.1 hflagged

/-! ## What notifiers have in common -/

/-- All notifiers fold requests or none does, as the configuration says, and if none does, no flag
    is ever up. -/
structure Uniform (config : Config) (s : Session) : Prop where
  config_eq : s.bridge.config = config
  coalesce : ∀ n ∈ s.notifiers, n.coalesce = config.coalesceUpdates
  folds : ∀ f, s.bridge.mailbox.isRaised f = true → config.coalesceUpdates = true

theorem uniform_start : Uniform config (start config) where
  config_eq := rfl
  coalesce n hn := by cases hn
  folds f hr := by cases hr

/-- Where requests do not fold, no notifier ever shows one. -/
theorem Uniform.isPending_eq_false (hu : Uniform config s) (hc : config.coalesceUpdates = false)
    (n : Notifier) : n.isPending s.bridge.mailbox = false := by
  apply Bool.eq_false_iff.2
  intro hr
  cases hc.symm.trans (hu.folds n.flag hr)

theorem Uniform.step (hu : Uniform config s) (step : Step s e s') : Uniform config s' := by
  obtain ⟨hconfig, hcoalesce, hfolds⟩ := hu
  cases step with
  | create _ ok =>
    obtain ⟨-, -, hmailbox, -, hsame⟩ := Bridge.create_eq_ok ok
    refine ⟨hsame.trans hconfig, hcoalesce, ?_⟩
    intro f hr
    rw [hmailbox, Mailbox.isRaised_newFlag] at hr
    exact hfolds f hr
  | notifier _ some =>
    refine ⟨hconfig, ?_, hfolds⟩
    intro k hk
    rcases List.mem_cons.1 hk with rfl | hk
    · obtain ⟨f, -, rfl⟩ := Option.map_eq_some_iff.1 some
      exact congrArg Config.coalesceUpdates hconfig
    · exact hcoalesce k hk
  | @request n held =>
    refine ⟨hconfig, hcoalesce, ?_⟩
    intro f hr
    cases hc : config.coalesceUpdates with
    | true => rfl
    | false =>
      have hn : n.coalesce = false := (hcoalesce n held).trans hc
      have hbefore := hfolds f (Notifier.isRaised_requestUpdate hn hr)
      cases hc.symm.trans hbefore
  | take _ some =>
    refine ⟨hconfig, hcoalesce, ?_⟩
    intro f hr
    apply hfolds f
    rw [Mailbox.isRaised, ← (Mailbox.take?_eq_some some).2.2]
    exact hr
  | lower _ =>
    refine ⟨hconfig, hcoalesce, ?_⟩
    intro f hr
    exact hfolds f (Bridge.isRaised_lowerFlag.1 hr).1
  | _ => exact ⟨hconfig, hcoalesce, hfolds⟩

theorem History.uniform (history : History config past s) : Uniform config s := by
  induction history with
  | start => exact uniform_start
  | next before now ih =>
    cases now with
    | step step => exact ih.step step
    | createInRegistry _ ok =>
      have hb := (Bridge.createInRegistry_eq_ok ok).2
      refine ⟨?_, ih.coalesce, ?_⟩
      · rw [hb]
        exact ih.config_eq
      · rw [hb]
        exact ih.folds
    | _ => exact ⟨ih.config_eq, ih.coalesce, ih.folds⟩

end AccessBridge.Session
