import AccessBridge.Proofs.Bridge.Session
import AccessBridge.Proofs.Registry
import Mathlib.Data.List.Nodup

/-!
# Flags along a run

A handle that is handed out gets a flag, and a handle that was handed out more than once has one for
every time. `Session.Sound` says which flag belongs to which handle, and `Session.Folding` that,
where requests fold, no more requests wait for a handle than flags of it are up. Both are kept by
every step. As long as handles have not run out, the adapters that are alive are the ones with a
flag (`Session.Housed`).
-/

namespace AccessBridge

/-! ## Lists side by side -/

section Zip

variable {α : Type} {l : List α} {marks : List Bool} {a : α} {i : Nat} {mark : Bool}

theorem zip_set (ha : l[i]? = some a) :
    l.zip (marks.set i mark) = (l.zip marks).set i (a, mark) := by
  induction l generalizing marks i with
  | nil => cases ha
  | cons b l ih =>
    cases marks with
    | nil => rfl
    | cons first marks =>
      cases i with
      | zero =>
        rw [List.getElem?_cons_zero, Option.some.injEq] at ha
        rw [ha]
        rfl
      | succ i => exact congrArg _ (ih ha)

theorem getElem?_zip (ha : l[i]? = some a) (hmark : marks[i]? = some mark) :
    (l.zip marks)[i]? = some (a, mark) := by
  rw [List.getElem?_zip_eq_some]
  exact ⟨ha, hmark⟩

theorem count_zip [DecidableEq α] (hlength : l.length = marks.length) :
    (l.zip marks).count (a, true) + (l.zip marks).count (a, false) = l.count a := by
  induction l generalizing marks with
  | nil => rfl
  | cons b l ih =>
    cases marks with
    | nil => cases hlength
    | cons first marks =>
      have hrest := ih (Nat.succ.inj hlength)
      rw [List.zip_cons_cons, List.count_cons, List.count_cons, List.count_cons]
      cases first <;> simp <;> omega

end Zip

namespace Session

variable {config : Config} {P : Session → Prop} {s s' : Session} {tr : List Happening}
  {e : Happening} {n : Notifier} {h k : Handle} {f : FlagId} {stage : Stage} {m : Mailbox}

/-! ## Handles and their flags -/

/-- Flags are numbered in the order in which handles are handed out: the flag `f` belongs to the
    handle in place `f`, for the bridge as for every notifier. -/
structure Sound (s : Session) : Prop where
  isOpen : s.bridge.mailbox.inbox.isOpen = true
  flags_size : s.bridge.mailbox.flags.size = s.issued.length
  pending : ∀ h f, s.bridge.pending.get? h = some f → s.issued[f]? = some h
  notifiers : ∀ n ∈ s.notifiers, s.issued[n.flag]? = some n.handle ∧
    n.coalesce = s.bridge.config.coalesceUpdates

/-- Handed-out handles stay handed out. -/
theorem Step.issued_grows (step : Step s e s') : s.issued <+: s'.issued := by
  cases step with
  | create => exact List.prefix_append _ _
  | _ => exact List.prefix_refl _

theorem RunWithin.issued_grows (run : RunWithin P s tr s') : s.issued <+: s'.issued := by
  induction run with
  | refl => exact List.prefix_refl _
  | step _ first _ ih => exact first.issued_grows.trans ih

/-- Where no handle is handed out twice, a flag belongs to one handle only. -/
theorem flag_unique {l : List Handle} {g : FlagId} (distinct : l.Nodup) (hf : l[f]? = some h)
    (hg : l[g]? = some h) : f = g := by
  obtain ⟨hfl, hfh⟩ := List.getElem?_eq_some_iff.1 hf
  obtain ⟨hgl, hgh⟩ := List.getElem?_eq_some_iff.1 hg
  exact (List.Nodup.getElem_inj_iff distinct).1 (hfh.trans hgh.symm)

theorem get?_pending_start : (start config).bridge.pending.get? h = none := rfl

theorem sound_start : (start config).Sound where
  isOpen := rfl
  flags_size := rfl
  pending h f hf := by
    rw [get?_pending_start] at hf
    cases hf
  notifiers n hn := by cases hn

theorem Sound.withStage (hs : s.Sound) : (s.withStage stage).Sound := { hs with }

theorem Sound.withMailbox (hs : s.Sound) (hopen : m.inbox.isOpen = true)
    (hsize : m.flags.size = s.bridge.mailbox.flags.size) : (s.withMailbox m).Sound :=
  { hs with isOpen := hopen, flags_size := hsize.trans hs.flags_size }

theorem Sound.create {b : Bridge} (hs : s.Sound) (ok : s.bridge.create = .ok (h, b)) :
    Session.Sound { s with bridge := b, issued := s.issued ++ [h] } := by
  obtain ⟨-, -, hmailbox, hpending, hconfig⟩ := Bridge.create_eq_ok ok
  have hold : ∀ f k, s.issued[f]? = some k → (s.issued ++ [h])[f]? = some k := fun f k hf =>
    (List.getElem?_append_left (List.getElem?_eq_some_iff.1 hf).1).trans hf
  constructor
  · rw [hmailbox]
    exact hs.isOpen
  · rw [hmailbox, List.length_append, ← hs.flags_size]
    exact Array.size_push _
  · intro k f hf
    rw [hpending] at hf
    rcases HandleMap.get?_insert_eq_some hf with ⟨rfl, rfl⟩ | hf
    · rw [hs.flags_size]
      exact List.getElem?_concat_length
    · exact hold f k (hs.pending k f hf)
  · intro n hn
    obtain ⟨hflag, hcoalesce⟩ := hs.notifiers n hn
    exact ⟨hold _ _ hflag, hcoalesce.trans (congrArg _ hconfig.symm)⟩

theorem Sound.destroy (hs : s.Sound) (h : Handle) :
    Session.Sound { s with bridge := (s.bridge.destroy h).2 } where
  isOpen := hs.isOpen
  flags_size := hs.flags_size
  pending k f hf := by
    have hne : k ≠ h := by
      rintro rfl
      cases HandleMap.get?_erase_handle.symm.trans hf
    exact hs.pending k f ((HandleMap.get?_erase_of_ne hne).symm.trans hf)
  notifiers := hs.notifiers

theorem Sound.notifier (hs : s.Sound) (some : s.bridge.notifier? h = some n) :
    Session.Sound { s with notifiers := n :: s.notifiers } := by
  refine { hs with notifiers := fun k hk => ?_ }
  rcases List.mem_cons.1 hk with rfl | hk
  · obtain ⟨f, hf, rfl⟩ := Option.map_eq_some_iff.1 some
    exact ⟨hs.pending h f hf, rfl⟩
  · exact hs.notifiers k hk

theorem Sound.request (hs : s.Sound) (n : Notifier) :
    (s.withMailbox (n.requestUpdate s.bridge.mailbox).state).Sound := by
  rcases Notifier.requestUpdate_cases (n := n) hs.isOpen with ⟨-, -, -, hm⟩ | ⟨-, -, hm⟩
  · rw [hm]
    exact hs
  · rw [hm]
    refine hs.withMailbox hs.isOpen ?_
    split
    · exact Array.size_setIfInBounds
    · rfl

theorem Sound.step (hs : s.Sound) (step : Step s e s') : s'.Sound := by
  cases step with
  | create _ ok => exact hs.create ok
  | destroy h _ => exact hs.destroy h
  | notifier _ some => exact hs.notifier some
  | request _ => exact hs.request _
  | take _ some =>
    obtain ⟨-, hinbox, hflags⟩ := Mailbox.take?_eq_some some
    refine (hs.withMailbox ?_ (congrArg _ hflags)).withStage
    rw [hinbox]
    exact hs.isOpen
  | lower _ =>
    refine (hs.withMailbox ?_ Bridge.size_flags_lowerFlag).withStage
    rw [Bridge.inbox_lowerFlag]
    exact hs.isOpen
  | begin | tell | drop | finish => exact hs.withStage

theorem RunWithin.sound (run : RunWithin P s tr s') (hs : s.Sound) : s'.Sound := by
  induction run with
  | refl => exact hs
  | step _ first _ ih => exact ih (hs.step first)

/-! ## How many flags of a handle are up -/

/-- How many flags of a handle are up. -/
def raisedCount (s : Session) (h : Handle) : Nat :=
  (s.issued.zip s.bridge.mailbox.flags.toList).count (h, true)

theorem Sound.length_flags (hs : s.Sound) :
    s.issued.length = s.bridge.mailbox.flags.toList.length := by
  rw [Array.length_toList, hs.flags_size]

/-- What a flag shows. -/
theorem Sound.getElem?_flags (hs : s.Sound) (hf : s.issued[f]? = some h) :
    s.bridge.mailbox.flags.toList[f]? = some (s.bridge.mailbox.isRaised f) := by
  have hlt : f < s.bridge.mailbox.flags.size := by
    rw [hs.flags_size]
    exact (List.getElem?_eq_some_iff.1 hf).1
  rw [Mailbox.isRaised, Array.getElem?_toList, Array.getElem?_eq_getElem hlt, Option.getD_some]

theorem Sound.raisedCount_le (hs : s.Sound) : s.raisedCount h ≤ s.issued.count h := by
  rw [← count_zip hs.length_flags]
  exact Nat.le_add_right _ _

/-- A flag that is down is not among those that are up. -/
theorem Sound.raisedCount_lt (hs : s.Sound) (hf : s.issued[f]? = some h)
    (down : s.bridge.mailbox.isRaised f = false) : s.raisedCount h < s.issued.count h := by
  have hflag := hs.getElem?_flags hf
  rw [down] at hflag
  have hpos := List.count_pos_iff.2 (List.mem_of_getElem? (getElem?_zip hf hflag))
  rw [← count_zip hs.length_flags, raisedCount]
  omega

/-- Raising a flag that is down adds it to those of its handle that are up. -/
theorem Sound.raisedCount_raise (hs : s.Sound) (hf : s.issued[f]? = some h)
    (down : s.bridge.mailbox.isRaised f = false)
    (hm : m.flags = (s.bridge.mailbox.setFlag f true).flags) :
    (s.withMailbox m).raisedCount k = s.raisedCount k + if h = k then 1 else 0 := by
  have hflag := hs.getElem?_flags hf
  rw [down] at hflag
  obtain ⟨hlt, hpair⟩ := List.getElem?_eq_some_iff.1 (getElem?_zip hf hflag)
  rw [raisedCount, raisedCount, Session.withMailbox, hm, Mailbox.setFlag,
    Array.toList_setIfInBounds, zip_set hf, List.count_set hlt, hpair]
  simp

/-- Lowering a flag takes at most this one from those of its handle that are up. -/
theorem Sound.raisedCount_lower (hs : s.Sound) (hf : s.issued[f]? = some h)
    (hm : m.flags = (s.bridge.mailbox.setFlag f false).flags) :
    s.raisedCount k ≤ (s.withMailbox m).raisedCount k + if h = k then 1 else 0 := by
  have hflag := hs.getElem?_flags hf
  obtain ⟨hlt, hpair⟩ := List.getElem?_eq_some_iff.1 (getElem?_zip hf hflag)
  rw [raisedCount, raisedCount, Session.withMailbox, hm, Mailbox.setFlag,
    Array.toList_setIfInBounds, zip_set hf, List.count_set hlt, hpair]
  by_cases hhk : h = k
  · rw [if_pos hhk]
    split <;> omega
  · simp [hhk]

/-! ## Flags where requests fold -/

/-- Requests fold. No more of them wait for a handle than flags of it are up, and the flag of an
    adapter that is alive is up only while one waits. The flag of an adapter that is gone stays up
    after its last request has been dropped. -/
structure Folding (s : Session) : Prop where
  folds : s.bridge.config.coalesceUpdates = true
  covered : ∀ h, s.waiting.count h ≤ s.raisedCount h
  waits : ∀ h f, s.bridge.pending.get? h = some f → s.bridge.mailbox.isRaised f = true →
    h ∈ s.waiting

theorem folding_start (folds : config.coalesceUpdates = true) : (start config).Folding where
  folds := folds
  covered h := Nat.zero_le _
  waits h f hf := by
    rw [get?_pending_start] at hf
    cases hf

/-- What matters are the requests that wait, not what is done about them. -/
theorem Folding.withStage (hf : s.Folding) (hw : stage.unlowered? = s.stage.unlowered?) :
    (s.withStage stage).Folding := by
  have hw : (s.withStage stage).waiting = s.waiting := congrArg (·.toList ++ s.queue) hw
  exact ⟨hf.folds, hw ▸ hf.covered, hw ▸ hf.waits⟩

theorem Folding.create {b : Bridge} (hf : s.Folding) (hs : s.Sound)
    (ok : s.bridge.create = .ok (h, b)) :
    Session.Folding { s with bridge := b, issued := s.issued ++ [h] } := by
  obtain ⟨-, -, hmailbox, hpending, hconfig⟩ := Bridge.create_eq_ok ok
  have hw : Session.waiting { s with bridge := b, issued := s.issued ++ [h] } = s.waiting := by
    rw [waiting, queue, hmailbox]
    rfl
  refine ⟨(congrArg _ hconfig).trans hf.folds, fun k => ?_, fun k f hk hr => ?_⟩
  · -- The new flag is down.
    have hcount : Session.raisedCount { s with bridge := b, issued := s.issued ++ [h] } k =
        s.raisedCount k := by
      rw [raisedCount, raisedCount, hmailbox, Mailbox.newFlag, Array.toList_push,
        List.zip_append hs.length_flags, List.count_append]
      simp
    rw [hw, hcount]
    exact hf.covered k
  · rw [hmailbox, Mailbox.isRaised_newFlag] at hr
    rw [hpending] at hk
    rw [hw]
    rcases HandleMap.get?_insert_eq_some hk with ⟨-, rfl⟩ | hk
    · rw [Mailbox.isRaised, Array.getElem?_eq_none (Nat.le_refl _)] at hr
      cases hr
    · exact hf.waits k f hk hr

theorem Folding.destroy (hf : s.Folding) (h : Handle) :
    Session.Folding { s with bridge := (s.bridge.destroy h).2 } := by
  refine ⟨hf.folds, hf.covered, fun k f hk hr => ?_⟩
  have hne : k ≠ h := by
    rintro rfl
    cases HandleMap.get?_erase_handle.symm.trans hk
  exact hf.waits k f ((HandleMap.get?_erase_of_ne hne).symm.trans hk) hr

theorem Folding.request (hf : s.Folding) (hs : s.Sound) (held : n ∈ s.notifiers) :
    (s.withMailbox (n.requestUpdate s.bridge.mailbox).state).Folding := by
  obtain ⟨hflag, hcoalesce⟩ := hs.notifiers n held
  have hc : n.coalesce = true := hcoalesce.trans hf.folds
  rcases Notifier.requestUpdate_cases (n := n) hs.isOpen with ⟨-, -, -, hm⟩ | ⟨hdown, -, hm⟩
  · rw [hm]
    exact hf
  · have hflags : (n.requestUpdate s.bridge.mailbox).state.flags =
        (s.bridge.mailbox.setFlag n.flag true).flags := by
      rw [hm, hc]
      rfl
    have hdown : s.bridge.mailbox.isRaised n.flag = false :=
      Bool.eq_false_iff.2 fun hr => hdown ⟨hc, hr⟩
    have hw : (s.withMailbox (n.requestUpdate s.bridge.mailbox).state).waiting =
        s.waiting ++ [n.handle] := by
      rw [hm]
      exact (List.append_assoc ..).symm
    refine ⟨hf.folds, fun h => ?_, fun h f hfh hr => ?_⟩
    · -- One more request waits, and one more flag is up.
      rw [hw, hs.raisedCount_raise hflag hdown hflags, List.count_append, List.count_singleton]
      simp only [beq_iff_eq]
      exact Nat.add_le_add_right (hf.covered h) _
    · have hr : (s.bridge.mailbox.setFlag n.flag true).isRaised f = true := by
        rw [Mailbox.isRaised, ← hflags]
        exact hr
      rw [hw]
      by_cases hnf : n.flag = f
      · subst hnf
        have hh : h = n.handle := Option.some.inj ((hs.pending h _ hfh).symm.trans hflag)
        exact List.mem_append_right _ (hh ▸ List.mem_cons_self)
      · rw [Mailbox.isRaised_setFlag, if_neg fun hsame => hnf hsame.1] at hr
        exact List.mem_append_left _ (hf.waits h f hfh hr)

/-- Taking a request leaves it among those that wait. -/
theorem Folding.take {left : Nat} (hf : s.Folding) (ready : s.stage = .ready (left + 1))
    (some : s.bridge.mailbox.take? = some (h, m)) :
    ((s.withMailbox m).withStage (.taken h left)).Folding := by
  obtain ⟨hmessages, -, hflags⟩ := Mailbox.take?_eq_some some
  have hw : ((s.withMailbox m).withStage (.taken h left)).waiting = s.waiting := by
    rw [waiting, waiting, queue, queue, ready, hmessages]
    rfl
  refine ⟨hf.folds, fun k => ?_, fun k f hk hr => ?_⟩
  · have hcovered := hf.covered k
    rw [raisedCount, ← hflags] at hcovered
    rw [hw]
    exact hcovered
  · have hr : m.isRaised f = true := hr
    rw [Mailbox.isRaised, hflags] at hr
    rw [hw]
    exact hf.waits k f hk hr

/-- With its flag, a request leaves those that wait. -/
theorem Folding.lower {left : Nat} (hf : s.Folding) (hs : s.Sound)
    (taken : s.stage = .taken h left) :
    ((s.withMailbox (s.bridge.lowerFlag h s.bridge.mailbox)).withStage
      (.lowered h left)).Folding := by
  have hw : s.waiting = h :: s.queue := by
    rw [waiting, taken]
    rfl
  have hw' : ((s.withMailbox (s.bridge.lowerFlag h s.bridge.mailbox)).withStage
      (.lowered h left)).waiting = s.queue := by
    change (s.bridge.lowerFlag h s.bridge.mailbox).inbox.messages = _
    rw [Bridge.inbox_lowerFlag]
    rfl
  refine ⟨hf.folds, fun k => ?_, fun k f hk hr => ?_⟩
  · -- One request less waits, and at most one flag less is up.
    have hcovered := hf.covered k
    have hlowered : s.raisedCount k ≤
        (s.withMailbox (s.bridge.lowerFlag h s.bridge.mailbox)).raisedCount k +
          if h = k then 1 else 0 := by
      unfold Bridge.lowerFlag
      split
      · rename_i f hpending
        exact hs.raisedCount_lower (hs.pending h f hpending) rfl
      · exact Nat.le_add_right _ _
    rw [hw, List.count_cons] at hcovered
    simp only [beq_iff_eq] at hcovered
    rw [hw']
    exact Nat.le_of_add_le_add_right (Nat.le_trans hcovered hlowered)
  · obtain ⟨hr, hne⟩ := Bridge.isRaised_lowerFlag.1 hr
    rw [hw']
    rcases List.mem_cons.1 (hw ▸ hf.waits k f hk hr) with rfl | hkw
    · exact absurd hk hne
    · exact hkw

theorem Folding.step (hf : s.Folding) (hs : s.Sound) (step : Step s e s') : s'.Folding := by
  cases step with
  | create _ ok => exact hf.create hs ok
  | destroy h _ => exact hf.destroy h
  | notifier => exact ⟨hf.folds, hf.covered, hf.waits⟩
  | request held => exact hf.request hs held
  | begin idle => exact hf.withStage (by rw [idle]; rfl)
  | take ready some => exact hf.take ready some
  | lower taken => exact hf.lower hs taken
  | tell lowered _ => exact hf.withStage (by rw [lowered]; rfl)
  | drop lowered _ => exact hf.withStage (by rw [lowered]; rfl)
  | finish ready _ => exact hf.withStage (by rw [ready]; rfl)

theorem RunWithin.folding (run : RunWithin P s tr s') (hs : s.Sound) (hf : s.Folding) :
    s'.Folding := by
  induction run with
  | refl => exact hf
  | step _ first _ ih => exact ih (hs.step first) (hf.step hs first)

/-- Where no handle is handed out twice, no two requests that wait are for one handle. -/
theorem Folding.nodup (hf : s.Folding) (hs : s.Sound) (distinct : s.issued.Nodup) :
    s.waiting.Nodup := by
  rw [List.nodup_iff_count_le_one] at distinct ⊢
  intro h
  exact Nat.le_trans (hf.covered h) (Nat.le_trans hs.raisedCount_le (distinct h))

/-- Where no handle is handed out twice, the flag of a handle is up while a request for it waits. -/
theorem Folding.raised (hf : s.Folding) (hs : s.Sound) (distinct : s.issued.Nodup)
    (hflag : s.issued[f]? = some h) (hw : h ∈ s.waiting) : s.bridge.mailbox.isRaised f = true := by
  by_contra hdown
  have hlt := hs.raisedCount_lt hflag (Bool.eq_false_iff.2 hdown)
  have honce := List.nodup_iff_count_le_one.1 distinct h
  have hpos := List.count_pos_iff.2 hw
  have hcovered := hf.covered h
  omega

/-- Where no handle is handed out twice, the flag of an adapter that is alive is up exactly while a
    request for it waits. -/
theorem Folding.isRaised_iff (hf : s.Folding) (hs : s.Sound) (distinct : s.issued.Nodup)
    (hpending : s.bridge.pending.get? h = some f) :
    s.bridge.mailbox.isRaised f = true ↔ h ∈ s.waiting := by
  constructor
  · intro hr
    exact hf.waits h f hpending hr
  · intro hw
    exact hf.raised hs distinct (hs.pending h f hpending) hw

/-! ## Flags and adapters -/

theorem isSome_pending_create {b : Bridge} (ok : s.bridge.create = .ok (k, b))
    (hn : s.bridge.pending.holdsNewer k = false) : (b.pending.get? h).isSome = true ↔
      h = k ∨ h.index ≠ k.index ∧ (s.bridge.pending.get? h).isSome = true := by
  obtain ⟨-, -, -, hpending, -⟩ := Bridge.create_eq_ok ok
  rw [hpending, HandleMap.get?_insert hn]
  by_cases heq : h = k
  · simp [heq]
  · by_cases hi : h.index = k.index
    · simp [heq, hi]
    · simp [heq, hi]

theorem isSome_pending_destroy : ((s.bridge.destroy k).2.pending.get? h).isSome = true ↔
    h ≠ k ∧ (s.bridge.pending.get? h).isSome = true := by
  rw [Bridge.destroy]
  by_cases heq : h = k
  · subst heq
    simp
  · have hother := HandleMap.get?_erase_of_ne (m := s.bridge.pending) heq
    simp [heq, hother]

/-- Where a flag tells that its adapter is alive, it goes on doing so when an adapter is created and
    gets its flag. -/
theorem pending_iff_live_create {b : Bridge} (ok : s.bridge.create = .ok (k, b))
    (hg : s.bridge.registry.adapters.Growing s.issued) (few : s.issued.length < 2 ^ 31)
    (hn : s.bridge.pending.holdsNewer k = false)
    (before : (s.bridge.pending.get? h).isSome = true ↔ s.isLive h = true) :
    (b.pending.get? h).isSome = true ↔ b.registry.contains h = true := by
  have hr := Bridge.registry_of_create ok
  rw [isSome_pending_create ok hn, before, isLive, Registry.contains_create hg few hr]
  constructor
  · rintro (heq | ⟨-, hlive⟩)
    · exact .inl heq
    · exact .inr hlive
  · rintro (heq | hlive)
    · exact .inl heq
    · -- The flag of an adapter that is alive is not in the place of the new one.
      refine .inr ⟨?_, hlive⟩
      intro hi
      exact Registry.not_contains_of_create hg few hr hi hlive

theorem pending_iff_live_destroy
    (before : (s.bridge.pending.get? h).isSome = true ↔ s.isLive h = true) :
    ((s.bridge.destroy k).2.pending.get? h).isSome = true ↔
      (s.bridge.destroy k).2.registry.contains h = true := by
  rw [isSome_pending_destroy, before]
  exact Registry.contains_destroy.symm

/-- Handles have not run out, and the adapters that are alive are the ones with a flag. -/
structure Housed (s : Session) : Prop where
  growing : s.bridge.registry.adapters.Growing s.issued
  flagged : ∀ h, (s.bridge.pending.get? h).isSome = true ↔ s.isLive h = true

theorem housed_start : (start config).Housed where
  growing := SlotTable.growing_empty
  flagged h := by
    rw [get?_pending_start]
    exact iff_of_false Bool.false_ne_true SlotTable.not_contains_empty

/-- No flag is left over in the slot of a new adapter. -/
theorem Housed.holdsNewer_eq_false {b : Bridge} (hh : s.Housed) (few : s.issued.length < 2 ^ 31)
    (ok : s.bridge.create = .ok (k, b)) : s.bridge.pending.holdsNewer k = false := by
  apply HandleMap.holdsNewer_of_vacant
  intro j hj
  rw [← Option.not_isSome_iff_eq_none, hh.flagged j]
  exact Registry.not_contains_of_create hh.growing few (Bridge.registry_of_create ok) hj

/-- Versions have 32 bits and grow by two with every use of a slot, so it takes many adapters before
    a handle is handed out once more. -/
theorem Housed.step (hh : s.Housed) (step : Step s e s') (few : s.issued.length < 2 ^ 31) :
    s'.Housed := by
  cases step with
  | create _ ok =>
    refine ⟨?_, fun h => ?_⟩
    · obtain ⟨rfl, hadapters, -⟩ := Bridge.create_eq_ok ok
      rw [hadapters]
      exact hh.growing.insert few
    · exact pending_iff_live_create ok hh.growing few (hh.holdsNewer_eq_false few ok) (hh.flagged h)
  | destroy k _ =>
    exact ⟨hh.growing.erase few, fun h => pending_iff_live_destroy (hh.flagged h)⟩
  | _ => exact ⟨hh.growing, hh.flagged⟩

theorem RunWithin.housed (run : RunWithin P s tr s') (hh : s.Housed)
    (few : s'.issued.length < 2 ^ 31) : s'.Housed := by
  induction run with
  | refl => exact hh
  | step _ first rest ih =>
    have hgrows := first.issued_grows.trans rest.issued_grows
    exact ih (hh.step first (Nat.lt_of_le_of_lt hgrows.length_le few)) few

end Session

end AccessBridge
