import AccessBridge.Proofs.Bridge.Session
import AccessBridge.Proofs.Registry

/-!
# Histories of a bridge

The owner of a bridge may also go to its registry directly, to create and destroy adapters there,
to query them and to edit their trees. A `Session.History` is everything that has happened to a
bridge, with the steps of a `Session` among it. Its handles are those of the registry's own history
(`Session.History.registry`), so they never alias (`Session.handles_never_alias`).
-/

namespace AccessBridge

/-- Something that happens to a bridge, to its registry or to its mailbox. -/
inductive Occurrence where
  | stepped (e : Happening)
  /-- No adapter was created, because as many as allowed are alive. -/
  | refused (e : RegistryFull)
  | createdInRegistry (h : Handle)
  | destroyedInRegistry (h : Handle)
  /-- An operation on the adapter behind a handle, and what it makes of the adapter. -/
  | used (h : Handle) (f : Adapter → Adapter)
  | wakerSet (waker : String)

/-- What an occurrence changes in the registry. -/
def Occurrence.change? : Occurrence → Option Registry.Change
  | stepped (.created h) | createdInRegistry h => some (.created h)
  | stepped (.destroyed h) | destroyedInRegistry h => some (.destroyed h)
  | used h f => some (.used h f)
  | stepped _ | refused _ | wakerSet _ => none

namespace Bridge

variable {b b' : Bridge} {h : Handle} {e : RegistryFull}

theorem create_eq_error : b.create = .error e ↔ b.registry.create = .error e := by
  unfold create
  split
  · rename_i hr
    rw [hr]
    simp
  · rename_i hr
    rw [hr]
    simp

theorem createInRegistry_eq_ok (ok : b.createInRegistry = .ok (h, b')) :
    b.registry.create = .ok (h, b'.registry) ∧ b' = { b with registry := b'.registry } := by
  unfold createInRegistry at ok
  cases hr : b.registry.create with
  | error e =>
    rw [hr] at ok
    cases ok
  | ok p =>
    rw [hr] at ok
    obtain ⟨rfl, rfl⟩ := Prod.mk.inj (Except.ok.inj ok)
    exact ⟨rfl, rfl⟩

theorem createInRegistry_eq_error :
    b.createInRegistry = .error e ↔ b.registry.create = .error e := by
  unfold createInRegistry
  cases b.registry.create with
  | error e => simp [Except.map]
  | ok p => simp [Except.map]

end Bridge

namespace Session

/-- One occurrence. Calls on the bridge and on its registry belong to the interface thread and wait
    until it is idle. What else changes a registry is an operation on one of its adapters. -/
inductive Occurs : Session → Occurrence → Session → Prop where
  | step {s s' : Session} {e : Happening} (step : Step s e s') : Occurs s (.stepped e) s'
  | refuse {s : Session} {e : RegistryFull} (idle : s.stage = .idle)
      (full : s.bridge.create = .error e ∨ s.bridge.createInRegistry = .error e) :
      Occurs s (.refused e) s
  | createInRegistry {s : Session} {h : Handle} {b : Bridge} (idle : s.stage = .idle)
      (ok : s.bridge.createInRegistry = .ok (h, b)) :
      Occurs s (.createdInRegistry h) { s with bridge := b, issued := s.issued ++ [h] }
  | destroyInRegistry {s : Session} (h : Handle) (idle : s.stage = .idle) :
      Occurs s (.destroyedInRegistry h) { s with bridge := (s.bridge.destroyInRegistry h).2 }
  | use {s : Session} {α : Type} (h : Handle) (fallback : α) (op : Adapter → Reply Adapter α)
      (idle : s.stage = .idle) :
      Occurs s (.used h fun a => (op a).state)
        { s with bridge := (s.bridge.onRegistry (·.onAdapter h fallback op)).state }
  | setWaker {s : Session} (waker : String) (idle : s.stage = .idle) :
      Occurs s (.wakerSet waker) { s with bridge := s.bridge.setWaker waker }

/-- A session and what has happened in it, the latest first. -/
inductive History (config : Config) : List Occurrence → Session → Prop where
  | start : History config [] (Session.start config)
  | next {past : List Occurrence} {s s' : Session} {o : Occurrence}
      (before : History config past s) (now : Occurs s o s') : History config (o :: past) s'

/-- The changes of the registry, the latest first. -/
def changes (past : List Occurrence) : List Registry.Change := past.filterMap Occurrence.change?

variable {config : Config} {past : List Occurrence} {o : Occurrence} {s s' : Session}
  {tr : List Happening} {h : Handle} {b b' : Bridge}

/-- A history passes through a session wherever it is cut. -/
theorem History.of_append {later : List Occurrence} (history : History config (later ++ past) s) :
    ∃ s', History config past s' := by
  induction later generalizing s with
  | nil => exact ⟨s, history⟩
  | cons o later ih =>
    cases history with
    | next before _ => exact ih before

/-! ## Runs as histories -/

/-- A run continues a history. -/
theorem History.run (before : History config past s) (run : Run s tr s') :
    History config ((tr.map .stepped).reverse ++ past) s' := by
  induction run generalizing past with
  | refl => exact before
  | step _ first _ ih =>
    rw [List.map_cons, List.reverse_cons, List.append_assoc]
    exact ih (before.next (.step first))

/-- Calls that reach the host continue a history: a call of `Bridge.processPending`, and one of
    `Bridge.requestUpdate`. The host may ask for updates while it is told. -/
theorem History.tell (before : History config past s) (idle : s.stage = .idle) (host : Host)
    (held : ∀ ns ∈ host.reactions, ∀ n ∈ ns, n ∈ s.notifiers) (h : Handle) :
    (∃ now, History config (now ++ past)
      { s with bridge := (s.bridge.processPending host).state.1 }) ∧
    ∃ now, History config (now ++ past)
      { s with bridge := (s.bridge.requestUpdate host h).state.1 } := by
  constructor
  · obtain ⟨tr, hrun, -⟩ := processPending_run host idle held
    exact ⟨_, before.run hrun⟩
  · obtain ⟨tr, _, hsends, -⟩ := requestUpdate_run host held h
    exact ⟨_, before.run hsends.run⟩

/-! ## The registry of a bridge -/

/-- What an occurrence changes in the registry is a change of the registry's own history. -/
theorem Occurs.registry (now : Occurs s o s')
    (before : Registry.History config (changes past) s.bridge.registry)
    (hissued : s.issued = Registry.issued (changes past)) :
    Registry.History config (changes (o :: past)) s'.bridge.registry ∧
      s'.issued = Registry.issued (changes (o :: past)) := by
  cases now with
  | step step =>
    cases step with
    | create _ ok =>
      have ok := Bridge.registry_of_create ok
      exact ⟨.create before ok, congrArg (· ++ [_]) hissued⟩
    | destroy h _ => exact ⟨.destroy before h, hissued⟩
    | _ => exact ⟨before, hissued⟩
  | createInRegistry _ ok =>
    have ok := (Bridge.createInRegistry_eq_ok ok).1
    exact ⟨.create before ok, congrArg (· ++ [_]) hissued⟩
  | destroyInRegistry h _ => exact ⟨.destroy before h, hissued⟩
  | use h fallback op _ => exact ⟨.use before h fallback op, hissued⟩
  | refuse | setWaker => exact ⟨before, hissued⟩

theorem History.registry (history : History config past s) :
    Registry.History config (changes past) s.bridge.registry ∧
      s.issued = Registry.issued (changes past) := by
  induction history with
  | start => exact ⟨.start, rfl⟩
  | next before now ih => exact now.registry ih.1 ih.2

/-- **Handles never alias.** Whatever has happened to a bridge and its registry, as long as fewer
    than `2 ^ 31` adapters have been created:

    * All handles that were handed out differ, and each survives being written as a word and read
      back.
    * A handle resolves just when it was handed out and has not been destroyed since. It resolves to
      the adapter that was created under it, as the operations through this handle have left it.
    * A call that destroys an adapter answers whether the handle resolved.
    * A word is read as a handle that resolves just when it is the word of one, up to the lowest bit
      of the version.
    * Never more adapters are alive than allowed. A further one is refused just when so many are,
      and a refusal comes without another bridge. -/
theorem handles_never_alias (history : History config past s) (few : s.issued.length < 2 ^ 31) :
    s.issued = Registry.issued (changes past) ∧ s.issued.Nodup ∧
    (∀ h ∈ s.issued, Handle.ofRaw h.toRaw = h) ∧
    (∀ h, s.bridge.registry.contains h = true ↔ Registry.Stands (changes past) h) ∧
    (∀ h, s.bridge.registry.get? h = Registry.adapter? config (changes past) h) ∧
    (∀ h, (s.bridge.destroy h).1 = s.bridge.registry.contains h ∧
      (s.bridge.destroyInRegistry h).1 = s.bridge.registry.contains h) ∧
    (∀ raw, s.bridge.registry.contains (.ofRaw raw) = true ↔
      ∃ h, s.bridge.registry.contains h = true ∧ h.toRaw = raw ||| (1 : UInt64) <<< 32) ∧
    (Registry.live config (changes past)).length = s.bridge.registry.size ∧
    s.bridge.registry.size ≤ config.maxAdapters ∧
    (∀ e, s.bridge.create = .error e ↔
      s.bridge.registry.size = config.maxAdapters ∧ e = ⟨config.maxAdapters⟩) ∧
    (∀ e, s.bridge.createInRegistry = .error e ↔
      s.bridge.registry.size = config.maxAdapters ∧ e = ⟨config.maxAdapters⟩) := by
  obtain ⟨hregistry, hissued⟩ := history.registry
  rw [hissued] at few ⊢
  have ho := hregistry.orderly few
  refine ⟨rfl, ho.growing.nodup, ?_, ?_, ho.get?_eq, ?_, Registry.contains_ofRaw, ho.length_live,
    ho.size_le, ?_, ?_⟩
  · intro h hmem
    apply Handle.ofRaw_toRaw
    exact ho.alternating.odd h hmem
  · intro h
    exact ho.contains_iff
  · intro h
    exact ⟨rfl, rfl⟩
  · intro e
    rw [Bridge.create_eq_error]
    exact ho.create_eq_error_iff
  · intro e
    rw [Bridge.createInRegistry_eq_error]
    exact ho.create_eq_error_iff

/-- The second adapter is created in the slot of the first, which has been destroyed. -/
theorem handles_never_alias_reused :
    ∃ past s, History {} past s ∧ s.issued.length < 2 ^ 31 ∧ s.issued = [⟨1, 1⟩, ⟨1, 3⟩] ∧
      s.issued.Nodup ∧ ¬ s.bridge.registry.contains ⟨1, 1⟩ = true ∧
      s.bridge.registry.contains ⟨1, 3⟩ = true := by
  have hstart : History {} [] (start {}) := .start
  have hcreate := hstart.next (.step (.create (h := ⟨1, 1⟩) rfl rfl))
  have hdestroy := hcreate.next (.step (.destroy ⟨1, 1⟩ rfl))
  have hagain := hdestroy.next (.createInRegistry (h := ⟨1, 3⟩) rfl rfl)
  have few : [(⟨1, 1⟩ : Handle), ⟨1, 3⟩].length < 2 ^ 31 := by decide
  obtain ⟨-, hnodup, -, hstands, -⟩ := handles_never_alias hagain few
  refine ⟨_, _, hagain, few, rfl, hnodup, ?_, ?_⟩
  · rw [hstands]
    intro hfirst
    have hlater := (since_cons (by simp)).1 hfirst
    have hgone := (since_cons (by simp)).1 hlater.2
    exact hgone.1 rfl
  · rw [hstands]
    exact since_head

end Session

end AccessBridge
