import AccessBridge.Proofs.Bridge.Notifiers
import AccessBridge.Proofs.Bridge.Requests

/-!
# What a pending flag tells

A notifier shows the pending flag of its adapter. While the adapter lives and requests fold, the
flag is up exactly while a request waits (`Session.Folding`). When the adapter is destroyed, the
bridge forgets whose flag it was: nobody lowers it any more, and every later request raises it
(`Session.Run.raised_of_gone`). Where requests do not fold, no flag is ever raised. From the three:
`Session.pending_flag`.
-/

namespace AccessBridge.Session

variable {config : Config} {s s' : Session} {tr : List Happening} {e : Happening}
  {n : Notifier} {h : Handle} {f : FlagId}

/-! ## A flag that nobody keeps -/

/-- Only requests for a handle raise its flag, and once the bridge has forgotten the flag, nothing
    lowers it. -/
theorem Step.raised_of_gone (step : Step s e s') (hs : s.Sound)
    (folds : s.bridge.config.coalesceUpdates = true) (distinct : s'.issued.Nodup)
    (gone : s.bridge.pending.get? h = none) (hflag : s.issued[f]? = some h) :
    s'.bridge.pending.get? h = none ∧
    (s'.bridge.mailbox.isRaised f = true ↔ s.bridge.mailbox.isRaised f = true ∨
      ∃ n answer, e = .requested n answer ∧ n.handle = h) := by
  cases step with
  | @create k b _ ok =>
    obtain ⟨-, -, hmailbox, hpending, -⟩ := Bridge.create_eq_ok ok
    have hne : h ≠ k := by
      intro heq
      have hmem := List.mem_of_getElem? hflag
      have hdisjoint := (List.nodup_append.1 distinct).2.2 h hmem k List.mem_cons_self
      exact hdisjoint heq
    constructor
    · rw [← Option.not_isSome_iff_eq_none, Option.isSome_iff_exists, hpending]
      rintro ⟨g, hg⟩
      rcases HandleMap.get?_insert_eq_some hg with ⟨heq, -⟩ | hg
      · exact hne heq
      · cases gone.symm.trans hg
    · rw [hmailbox, Mailbox.isRaised_newFlag]
      simp
  | destroy k _ =>
    refine ⟨?_, by simp [Bridge.destroy]⟩
    by_cases heq : h = k
    · rw [heq]
      exact HandleMap.get?_erase_handle
    · exact (HandleMap.get?_erase_of_ne heq).trans gone
  | @request n held =>
    refine ⟨gone, ?_⟩
    obtain ⟨hn, hc⟩ := hs.notifiers n held
    have hbound : n.flag < s.bridge.mailbox.flags.size := by
      rw [hs.flags_size]
      exact (List.getElem?_eq_some_iff.1 hn).1
    have hown : n.flag = f ↔ n.handle = h := by
      constructor
      · rintro rfl
        exact Option.some.inj (hn.symm.trans hflag)
      · intro heq
        exact flag_unique distinct (heq ▸ hn) hflag
    have hraised := Notifier.isRaised_requestUpdate_iff (f := f) hs.isOpen (hc.trans folds) hbound
    rw [hown] at hraised
    rw [withMailbox, hraised]
    simp
  | take _ some =>
    refine ⟨gone, ?_⟩
    have hflags := (Mailbox.take?_eq_some some).2.2
    simp [withStage, withMailbox, Mailbox.isRaised, hflags]
  | @lower k left _ =>
    refine ⟨gone, ?_⟩
    have hother : s.bridge.pending.get? k ≠ Option.some f := by
      intro hk
      have heq : k = h := Option.some.inj ((hs.pending k f hk).symm.trans hflag)
      rw [heq, gone] at hk
      cases hk
    simp [withStage, withMailbox, Bridge.isRaised_lowerFlag, hother]
  | _ =>
    refine ⟨gone, ?_⟩
    simp [withStage]

/-- A handle keeps its flag when further ones are handed out. -/
theorem flag_kept {l l' : List Handle} (hgrows : l <+: l') (hflag : l[f]? = some h) :
    l'[f]? = some h := by
  obtain ⟨hlt, heq⟩ := List.getElem?_eq_some_iff.1 hflag
  have hkept := List.prefix_iff_getElem?.1 hgrows f hlt
  rw [hkept, heq]

/-- Once the bridge has forgotten a flag, it goes on being up if it was, and is raised by every
    request for its handle. -/
theorem Run.raised_of_gone (run : Run s tr s') (hs : s.Sound)
    (folds : s.bridge.config.coalesceUpdates = true) (distinct : s'.issued.Nodup)
    (gone : s.bridge.pending.get? h = none) (hflag : s.issued[f]? = some h) :
    s'.bridge.mailbox.isRaised f = true ↔ s.bridge.mailbox.isRaised f = true ∨
      ∃ n answer, .requested n answer ∈ tr ∧ n.handle = h := by
  induction run with
  | refl => simp
  | @step s₁ s₂ s₃ e tr _ first rest ih =>
    have hdistinct := rest.issued_grows.sublist.nodup distinct
    obtain ⟨hgone, hfirst⟩ := first.raised_of_gone hs folds hdistinct gone hflag
    have hissued := flag_kept first.issued_grows hflag
    have hrest := ih (hs.step first) (first.config_eq ▸ folds) distinct hgone hissued
    rw [hrest, hfirst, or_assoc]
    apply or_congr_right
    constructor
    · rintro (⟨n, answer, rfl, hn⟩ | ⟨n, answer, hmem, hn⟩)
      · exact ⟨n, answer, List.mem_cons_self, hn⟩
      · exact ⟨n, answer, List.mem_cons_of_mem e hmem, hn⟩
    · rintro ⟨n, answer, hmem, hn⟩
      rcases List.mem_cons.1 hmem with heq | hmem
      · exact .inl ⟨n, answer, heq.symm, hn⟩
      · exact .inr ⟨n, answer, hmem, hn⟩

/-! ## When an adapter goes -/

/-- An adapter that is gone was gone before, or is destroyed just now. -/
theorem Step.gone_or_destroyed (step : Step s e s') (hh : s.Housed)
    (few : s.issued.length < 2 ^ 31) (hissued : h ∈ s'.issued) (gone : ¬ s'.isLive h = true) :
    (h ∈ s.issued ∧ ¬ s.isLive h = true) ∨ (s.isLive h = true ∧ e = .destroyed h) := by
  cases step with
  | @create k b _ ok =>
    have hlive :=
      Registry.contains_create (k := h) hh.growing few (Bridge.registry_of_create ok)
    rw [isLive, hlive, not_or] at gone
    rw [List.mem_append, List.mem_singleton] at hissued
    exact .inl ⟨hissued.resolve_right gone.1, gone.2⟩
  | destroy k _ =>
    by_cases hlive : s.isLive h = true
    · right
      refine ⟨hlive, ?_⟩
      have hsame := Registry.contains_destroy (r := s.bridge.registry) (h := k) (k := h)
      rw [isLive, Bridge.destroy, hsame] at gone
      by_contra hne
      apply gone
      refine ⟨?_, hlive⟩
      rintro rfl
      exact hne rfl
    · left
      exact ⟨hissued, hlive⟩
  | _ => exact .inl ⟨hissued, gone⟩

/-- An adapter that is gone was destroyed along the way. -/
theorem Run.destroyed_of_gone (run : Run s tr s') (hh : s.Housed)
    (few : s'.issued.length < 2 ^ 31) (hissued : h ∈ s'.issued) (gone : ¬ s'.isLive h = true) :
    (h ∈ s.issued ∧ ¬ s.isLive h = true) ∨
    ∃ before s₁ after, tr = before ++ .destroyed h :: after ∧ Run s before s₁ ∧
      s₁.isLive h = true ∧ Run s₁ (.destroyed h :: after) s' := by
  induction run with
  | refl => exact .inl ⟨hissued, gone⟩
  | @step s₁ s₂ s₃ e tr _ first rest ih =>
    have hlength := (first.issued_grows.trans rest.issued_grows).length_le
    have few₁ : s₁.issued.length < 2 ^ 31 := Nat.lt_of_le_of_lt hlength few
    rcases ih (hh.step first few₁) few hissued gone with
      ⟨hissued₂, gone₂⟩ | ⟨before, s', after, rfl, hrun, hrest⟩
    · rcases first.gone_or_destroyed hh few₁ hissued₂ gone₂ with hbefore | ⟨hlive, rfl⟩
      · exact .inl hbefore
      · exact .inr ⟨[], s₁, tr, rfl, .refl, hlive, .step first rest⟩
    · exact .inr ⟨e :: before, s', after, rfl, .step first hrun, hrest⟩

/-! ## Whole runs -/

/-- What the flag of an adapter tells from the moment in which the adapter is destroyed: whether a
    request waited then, or has been made since. -/
theorem Run.raised_of_destroyed (run : Run s (.destroyed h :: tr) s') (hs : s.Sound)
    (hf : s.Folding) (distinct : s'.issued.Nodup) (hpending : s.bridge.pending.get? h = some f) :
    s'.bridge.mailbox.isRaised f = true ↔ h ∈ s.queue ∨
      ∃ n answer, .requested n answer ∈ tr ∧ n.handle = h := by
  cases run with
  | step _ first rest =>
    have hdistinct := (first.issued_grows.trans rest.issued_grows).sublist.nodup distinct
    have hs₂ := hs.step first
    cases first with
    | destroy _ idle =>
      have hflag := hs.pending h f hpending
      have hafter := Run.raised_of_gone rest hs₂ hf.folds distinct HandleMap.get?_erase_handle hflag
      have hwaiting : s.waiting = s.queue := by
        rw [waiting, idle]
        rfl
      have hbefore := hf.isRaised_iff hs hdistinct hpending
      rw [hwaiting] at hbefore
      rw [hafter, ← hbefore]
      rfl

/-- **What a pending flag tells.** Whatever the batch size, and however requests on any thread fall
    between the calls on the bridge and the parts of a delivery:

    * Where requests do not fold, the flag is never up.
    * Where they fold, the flag is up while a request for the adapter waits: in the inbox, or in
      hand until its delivery lowers the flag. Between two calls none is in hand.
    * As long as the adapter lives, the flag is up only then.
    * Once the adapter is gone, the flag is up just when a request waited at the moment in which it
      was destroyed, or has been made since: whether these requests wait still or have been dropped
      makes no difference. -/
theorem pending_flag_tells (run : Run (start config) tr s) (few : s.issued.length < 2 ^ 31)
    (held : n ∈ s.notifiers) :
    (config.coalesceUpdates = false → n.isPending s.bridge.mailbox = false) ∧
    (config.coalesceUpdates = true →
      (n.handle ∈ s.queue ∨ s.stage.unlowered? = some n.handle →
        n.isPending s.bridge.mailbox = true) ∧
      (s.isLive n.handle = true → n.isPending s.bridge.mailbox = true →
        n.handle ∈ s.queue ∨ s.stage.unlowered? = some n.handle) ∧
      (¬ s.isLive n.handle = true → ∃ before s₁ after,
        tr = before ++ .destroyed n.handle :: after ∧ Run (start config) before s₁ ∧
        s₁.isLive n.handle = true ∧ Run s₁ (.destroyed n.handle :: after) s ∧
        (n.isPending s.bridge.mailbox = true ↔ n.handle ∈ s₁.queue ∨
          ∃ k answer, .requested k answer ∈ after ∧ k.handle = n.handle))) := by
  have hh := run.housed housed_start few
  have distinct := hh.growing.nodup
  obtain ⟨hs, hfolding⟩ := run.invariants
  obtain ⟨hflag, -⟩ := hs.notifiers n held
  constructor
  · intro hc
    have hu := (History.start.run run).uniform
    exact hu.isPending_eq_false hc n
  · intro hc
    have hf := hfolding (run.config_eq ▸ hc)
    refine ⟨?_, ?_, ?_⟩
    · intro hwaits
      exact hf.raised hs distinct hflag (mem_waiting.2 hwaits)
    · intro hlive hr
      have htells := hf.tells hs (hs.notifier?_eq hh held hlive)
      exact mem_waiting.1 (htells.1 hr)
    · intro gone
      have hissued := List.mem_of_getElem? hflag
      rcases run.destroyed_of_gone housed_start few hissued gone with
        ⟨hnone, -⟩ | ⟨before, s₁, after, heq, hbefore, hlive, hafter⟩
      · cases hnone
      · refine ⟨before, s₁, after, heq, hbefore, hlive, hafter, ?_⟩
        have few₁ := Nat.lt_of_le_of_lt hafter.issued_grows.length_le few
        have hh₁ := hbefore.housed housed_start few₁
        obtain ⟨hs₁, hfolding₁⟩ := hbefore.invariants
        obtain ⟨f, hpending⟩ := Option.isSome_iff_exists.1 ((hh₁.flagged n.handle).2 hlive)
        have hkept := flag_kept hafter.issued_grows (hs₁.pending _ _ hpending)
        have hsame : f = n.flag := flag_unique distinct hkept hflag
        have hf₁ := hfolding₁ (hbefore.config_eq ▸ hc)
        have hraised := hafter.raised_of_destroyed hs₁ hf₁ distinct hpending
        rw [hsame] at hraised
        exact hraised

/-- The flag of an adapter that is alive, with a request in the inbox. -/
theorem pending_flag_tells_queued :
    ∃ tr s n, Run (start {}) tr s ∧ s.issued.length < 2 ^ 31 ∧ n ∈ s.notifiers ∧
      n.handle ∈ s.queue ∧ n.isPending s.bridge.mailbox = true := by
  let n : Notifier := ⟨⟨1, 1⟩, 0, true⟩
  have hcreate : Run (start {}) _ _ := .step (.create (h := n.handle) rfl rfl) .refl
  have hasked := hcreate.append (.step (.notifier (h := n.handle) (n := n) rfl
    (congrArg (Option.map _) HandleMap.get?_insert_empty)) .refl)
  have hposted := hasked.append (.step (.request (n := n) List.mem_cons_self) .refl)
  have few : [n.handle].length < 2 ^ 31 := by decide
  have hqueued : n.handle ∈ [n.handle] := List.mem_cons_self
  obtain ⟨-, hfolds⟩ := pending_flag_tells hposted few List.mem_cons_self
  refine ⟨_, _, n, hposted, few, List.mem_cons_self, hqueued, ?_⟩
  apply (hfolds rfl).1
  left
  exact hqueued

/-- A request for an adapter that has been destroyed is dropped, and the flag stays up. -/
theorem not_forall_pending_iff_queued :
    ¬ ∀ config tr s n, Run (start config) tr s → s.stage = .idle → n ∈ s.notifiers →
      (n.isPending s.bridge.mailbox = true ↔ n.handle ∈ s.queue) := by
  intro hall
  let n : Notifier := ⟨⟨1, 1⟩, 0, true⟩
  have hcreate : Run (start {}) _ _ := .step (.create (h := n.handle) rfl rfl) .refl
  have hasked := hcreate.append (.step (.notifier (h := n.handle) (n := n) rfl
    (congrArg (Option.map _) HandleMap.get?_insert_empty)) .refl)
  have hposted := hasked.append (.step (.request (n := n) List.mem_cons_self) .refl)
  have hdestroyed := hposted.append (.step (.destroy n.handle rfl) .refl)
  have hbegun := hdestroyed.append (.step (.begin rfl) .refl)
  have htaken := hbegun.append (.step (.take (h := n.handle) rfl rfl) .refl)
  have hlowered := htaken.append (.step (.lower rfl) .refl)
  have hdropped := hlowered.append (.step (.drop rfl rfl) .refl)
  have hfinished := hdropped.append (.step (.finish rfl (.inl rfl)) .refl)
  have hagree := hall _ _ _ n hfinished rfl List.mem_cons_self
  -- The flag is up still, since its map has forgotten it when it is to be lowered.
  have hqueued := hagree.1 (Bridge.isRaised_lowerFlag.2
    ⟨rfl, by simp [Bridge.destroy, withStage, withMailbox]⟩)
  simp only [queue, withStage, withMailbox, Bridge.inbox_lowerFlag] at hqueued
  cases hqueued

end AccessBridge.Session
