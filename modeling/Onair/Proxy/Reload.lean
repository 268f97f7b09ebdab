import Onair.Lib.Guarded
import Onair.Proxy.Accepted

/-!
# Reloading the configuration

A task watches the configuration file. A change of the file is noticed after a while; the task waits
until no more changes are noticed, then it reads the file, up to five times if what it reads is
refused.

* `Event`, `isReloadEvent`: what the file system tells, and what is taken for a change;
* `Reload`, `Reload.step`: the file, the messages on their way, the task and the store;
* `accepted_active`, `active_of_content`, **`active_sound`**: the active configuration was accepted,
  and it is that of a text that the file had;
* `Reload.Settled`, `Reload.Tracks`, `settled_of_rest`: at rest, the store has the configuration of
  the file;
* `work_lt`: the task comes to rest;
* **`edit_reaches_store`**: whatever the order of edits, messages and reads, a text that is accepted
  reaches the store.
-/

namespace Onair

/-! ### What the file system tells -/

/-- How a file was opened. -/
inductive AccessMode where
  | any
  | execute
  | read
  | write
  | other
  deriving DecidableEq, Repr

/-- How a file was accessed. -/
inductive AccessKind where
  | any
  | read
  | opened (mode : AccessMode)
  | close (mode : AccessMode)
  | other
  deriving DecidableEq, Repr

/-- What happened to a file. -/
inductive EventKind where
  | any
  | access (kind : AccessKind)
  | create
  | modify
  | remove
  | other
  deriving DecidableEq, Repr

/-- An event of the file system. -/
structure Event where
  kind : EventKind
  paths : List String
  deriving DecidableEq, Repr

/-- The last component of a path, if it is a name. -/
def fileName (path : String) : Option String :=
  match (pathComponents path).getLast? with
  | some (.normal name) => some name
  | _ => none

/-- The event may be a change of the file at `path`. -/
def isReloadEvent (event : Event) (path filename : String) : Bool :=
  (match event.kind with
    | .any | .create | .modify | .remove => true
    | .access (.close .write) | .access (.close .any) => true
    | _ => false) &&
  (event.paths.isEmpty || event.paths.any fun eventPath =>
    pathComponents eventPath == pathComponents path || fileName eventPath == some filename)

/-- An event, or that watching failed. -/
abbrev WatchMessage : Type := Except String Event

/-- The message is an event that may be a change. -/
def WatchMessage.reloads (path filename : String) : WatchMessage → Bool
  | .ok event => isReloadEvent event path filename
  | .error _ => false

/-- The callback passes the message on. -/
def WatchMessage.forwarded (path filename : String) : WatchMessage → Bool
  | .ok event => isReloadEvent event path filename
  | .error _ => true

/-! ### Loading -/

/-- Why a file is not loaded. -/
inductive LoadError where
  | configRead
  | configParse
  | config (error : ConfigError)
  deriving DecidableEq, Repr

/-- What loading asks of the world: the host, and a parser of configuration files. -/
structure Loader where
  host : Host
  parse : String → Option ConfigFile

/-- The configuration of a file with a given text, or of one that cannot be read. -/
def Config.load (loader : Loader) (raw : Option String) : Except LoadError Config := do
  let text ← raw.elim (.error .configRead) .ok
  let file ← (loader.parse text).elim (.error .configParse) .ok
  (Config.resolve loader.host file).mapError .config

/-- How often a file that is refused is read. -/
def configReloadMaxAttempts : ℕ := 5

/-! ### The task -/

/-- What the task is at. -/
inductive WatchPhase where
  /-- It waits for a message. -/
  | receiving
  /-- It waits until no more changes come. -/
  | sleeping
  /-- It takes the messages that have come meanwhile. -/
  | draining (sawReloadEvent : Bool)
  /-- It is about to read the file. -/
  | attempting (attempt : ℕ)
  /-- It has read the file. -/
  | loading (attempt : ℕ) (raw : Option String)
  | stopped
  deriving DecidableEq, Repr

/-- The file, the messages on their way, the task and the store. -/
structure Reload where
  /-- The text of the file, if it can be read. -/
  content : Option String
  /-- What the system has noted and the callback has not seen. -/
  watched : List WatchMessage
  /-- What the callback has passed on and the task has not received. -/
  queue : List WatchMessage
  /-- The configuration in the store. -/
  active : Config
  phase : WatchPhase

/-- The task as it is started, with the configuration of the file. -/
def Reload.start (content : Option String) (active : Config) : Reload :=
  ⟨content, [], [], active, .receiving⟩

/-- What may happen. -/
inductive ReloadAction where
  /-- The file is written, and the system notes it. -/
  | edit (content : Option String) (event : Event)
  /-- The system notes something else. -/
  | notice (message : WatchMessage)
  /-- The callback is called. -/
  | deliver
  | receive
  | wake
  | poll
  | read
  | apply
  /-- The watcher is dropped. -/
  | drop

/-- The action is one of the callback or the task. -/
def ReloadAction.isTask : ReloadAction → Bool
  | .deliver | .receive | .wake | .poll | .read | .apply => true
  | _ => false

namespace Reload

/-- The task after an attempt to load what it has read. -/
def tryReloadConfig (loader : Loader) (s : Reload) (attempt : ℕ) (raw : Option String) : Reload :=
  match Config.load loader raw with
  | .ok config => { s with active := config, phase := .receiving }
  | .error _ =>
    if attempt < configReloadMaxAttempts then { s with phase := .attempting (attempt + 1) }
    else { s with phase := .receiving }

/-- What an action does, if it may happen. -/
def step (loader : Loader) (path filename : String) (s : Reload) : ReloadAction → Option Reload
  | .edit content event =>
    if isReloadEvent event path filename then
      some { s with content := content, watched := s.watched ++ [.ok event] }
    else none
  | .notice message => some { s with watched := s.watched ++ [message] }
  | .deliver =>
    match s.watched with
    | [] => none
    | message :: watched => some { s with
        watched := watched
        queue := if message.forwarded path filename then s.queue ++ [message] else s.queue }
  | .receive =>
    match s.phase, s.queue with
    | .receiving, message :: queue => some { s with
        queue := queue
        phase := if message.reloads path filename then .sleeping else .receiving }
    | _, _ => none
  | .wake =>
    match s.phase with
    | .sleeping => some { s with phase := .draining false }
    | _ => none
  | .poll =>
    match s.phase, s.queue with
    | .draining saw, [] => some { s with phase := if saw then .sleeping else .attempting 1 }
    | .draining saw, message :: queue => some { s with
        queue := queue
        phase := .draining (saw || message.reloads path filename) }
    | _, _ => none
  | .read =>
    match s.phase with
    | .attempting attempt => some { s with phase := .loading attempt s.content }
    | _ => none
  | .apply =>
    match s.phase with
    | .loading attempt raw => some (tryReloadConfig loader s attempt raw)
    | _ => none
  | .drop =>
    match s.phase with
    | .loading _ _ => none
    | _ => some { s with phase := .stopped }

/-- What an action does, case by case. -/
inductive Happens (loader : Loader) (path filename : String) (s : Reload) :
    ReloadAction → Reload → Prop where
  | edit {content event} (h : isReloadEvent event path filename = true) :
    Happens loader path filename s (.edit content event)
      { s with content := content, watched := s.watched ++ [.ok event] }
  | notice {message} : Happens loader path filename s (.notice message)
      { s with watched := s.watched ++ [message] }
  | deliver {message watched} (hwatched : s.watched = message :: watched) :
    Happens loader path filename s .deliver { s with
      watched := watched
      queue := if message.forwarded path filename then s.queue ++ [message] else s.queue }
  | receive {message queue} (hphase : s.phase = .receiving) (hqueue : s.queue = message :: queue) :
    Happens loader path filename s .receive { s with
      queue := queue
      phase := if message.reloads path filename then .sleeping else .receiving }
  | wake (hphase : s.phase = .sleeping) :
    Happens loader path filename s .wake { s with phase := .draining false }
  | settle {saw} (hphase : s.phase = .draining saw) (hqueue : s.queue = []) :
    Happens loader path filename s .poll
      { s with phase := if saw then .sleeping else .attempting 1 }
  | drain {saw message queue} (hphase : s.phase = .draining saw)
      (hqueue : s.queue = message :: queue) :
    Happens loader path filename s .poll { s with
      queue := queue
      phase := .draining (saw || message.reloads path filename) }
  | read {attempt} (hphase : s.phase = .attempting attempt) :
    Happens loader path filename s .read { s with phase := .loading attempt s.content }
  | apply {attempt raw} (hphase : s.phase = .loading attempt raw) :
    Happens loader path filename s .apply (tryReloadConfig loader s attempt raw)
  | drop (hphase : ∀ attempt raw, s.phase ≠ .loading attempt raw) :
    Happens loader path filename s .drop { s with phase := .stopped }

section

variable {loader : Loader} {path filename : String} {s s' : Reload} {as : List ReloadAction}
  {a : ReloadAction}

theorem happens_of_step (h : step loader path filename s a = some s') :
    Happens loader path filename s a s' := by
  cases a with
  | edit content event =>
    obtain ⟨hevent, rfl⟩ := Guarded.of_guard h
    exact .edit hevent
  | notice message =>
    obtain rfl := Option.some.inj h
    exact .notice
  | drop =>
    dsimp only [step] at h
    split at h
    · cases h
    · rename_i hphase
      obtain rfl := Option.some.inj h
      exact .drop hphase
  | deliver =>
    dsimp only [step] at h
    split at h
    · cases h
    · rename_i hwatched
      obtain rfl := Option.some.inj h
      exact .deliver hwatched
  | receive =>
    dsimp only [step] at h
    split at h
    · rename_i hphase hqueue
      obtain rfl := Option.some.inj h
      exact .receive hphase hqueue
    · cases h
  | wake =>
    dsimp only [step] at h
    split at h
    · rename_i hphase
      obtain rfl := Option.some.inj h
      exact .wake hphase
    · cases h
  | poll =>
    dsimp only [step] at h
    split at h
    · rename_i hphase hqueue
      obtain rfl := Option.some.inj h
      exact .settle hphase hqueue
    · rename_i hphase hqueue
      obtain rfl := Option.some.inj h
      exact .drain hphase hqueue
    · cases h
  | read =>
    dsimp only [step] at h
    split at h
    · rename_i hphase
      obtain rfl := Option.some.inj h
      exact .read hphase
    · cases h
  | apply =>
    dsimp only [step] at h
    split at h
    · rename_i hphase
      obtain rfl := Option.some.inj h
      exact .apply hphase
    · cases h

/-! ### Where the active configuration comes from -/

theorem resolve_of_load {raw : Option String} {config : Config}
    (h : Config.load loader raw = .ok config) :
    ∃ file, Config.resolve loader.host file = .ok config := by
  obtain ⟨text, -, h⟩ := Fallible.bind_eq_ok.mp h
  obtain ⟨file, -, h⟩ := Fallible.bind_eq_ok.mp h
  refine ⟨file, ?_⟩
  cases hr : Config.resolve loader.host file with
  | error e =>
    rw [hr] at h
    cases h
  | ok c =>
    rw [hr] at h
    exact congrArg Except.ok (Except.ok.inj h)

theorem active_tryReloadConfig (s : Reload) (attempt : ℕ) (raw : Option String) :
    (tryReloadConfig loader s attempt raw).active = s.active ∨
      Config.load loader raw = .ok (tryReloadConfig loader s attempt raw).active := by
  unfold tryReloadConfig
  cases hload : Config.load loader raw with
  | ok config => exact Or.inr rfl
  | error error =>
    dsimp only
    split_ifs <;> exact Or.inl rfl

/-- **The active configuration is always one that was accepted.** -/
theorem accepted_active (hs : Accepted s.active)
    (h : Guarded.run (step loader path filename) s as = some s') : Accepted s'.active := by
  refine Guarded.run_inv (I := fun s => Accepted s.active) (fun s a s' hs h => ?_) hs h
  cases happens_of_step h with
  | @apply attempt raw _ =>
    obtain hkept | hload := active_tryReloadConfig s attempt raw
    · exact hkept ▸ hs
    · obtain ⟨file, hfile⟩ := resolve_of_load hload
      exact (accepted_of_resolve hfile).1
  | _ => exact hs

/-- What is known of a state by what happened: the store has the configuration of a text that the
file had, and so has the task if it has read one. -/
structure Sourced (loader : Loader) (path filename : String) (s : Reload)
    (as : List ReloadAction) (t : Reload) : Prop where
  active : t.active = s.active ∨ ∃ before later u, as = before ++ later ∧
    Guarded.run (step loader path filename) s before = some u ∧
    Config.load loader u.content = .ok t.active
  read : ∀ attempt raw, t.phase = .loading attempt raw → ∃ before later u, as = before ++ later ∧
    Guarded.run (step loader path filename) s before = some u ∧ u.content = raw

/-- **The active configuration is that of a text that the file had.** -/
theorem active_of_content {content : Option String} {active : Config}
    (h : Guarded.run (step loader path filename) (start content active) as = some s') :
    Sourced loader path filename (start content active) as s' := by
  refine Guarded.run_inv_history (I := Sourced loader path filename (start content active))
    ⟨Or.inl rfl, fun _ _ h => by cases h⟩ (fun bs t a t' ht hinv hstep => ?_) h
  -- what was known before the action still is
  have hactive : t.active = active ∨ ∃ before later u, bs ++ [a] = before ++ later ∧
      Guarded.run (step loader path filename) (start content active) before = some u ∧
      Config.load loader u.content = .ok t.active := by
    refine hinv.active.imp_right ?_
    rintro ⟨before, later, u, rfl, hu⟩
    exact ⟨before, later ++ [a], u, List.append_assoc _ _ _, hu⟩
  have hread : ∀ attempt raw, t.phase = .loading attempt raw → ∃ before later u,
      bs ++ [a] = before ++ later ∧
      Guarded.run (step loader path filename) (start content active) before = some u ∧
      u.content = raw := by
    intro attempt raw hphase
    obtain ⟨before, later, u, rfl, hu⟩ := hinv.read attempt raw hphase
    exact ⟨before, later ++ [a], u, List.append_assoc _ _ _, hu⟩
  cases happens_of_step hstep with
  | edit _ | notice | deliver _ => exact ⟨hactive, hread⟩
  | receive _ _ =>
    refine ⟨hactive, fun attempt raw hphase => ?_⟩
    dsimp only at hphase
    split_ifs at hphase
  | wake _ | drain _ _ | drop _ => exact ⟨hactive, fun _ _ hphase => by cases hphase⟩
  | settle _ _ =>
    refine ⟨hactive, fun attempt raw hphase => ?_⟩
    dsimp only at hphase
    split_ifs at hphase
  | read _ =>
    refine ⟨hactive, fun attempt raw hphase => ?_⟩
    obtain ⟨-, rfl⟩ := WatchPhase.loading.inj hphase
    exact ⟨bs, [.read], t, rfl, ht, rfl⟩
  | @apply attempt raw hphase =>
    constructor
    · obtain hkept | hload := active_tryReloadConfig t attempt raw
      · rw [hkept]
        exact hactive
      · obtain ⟨before, later, u, heq, hu, hcontent⟩ := hread attempt raw hphase
        exact Or.inr ⟨before, later, u, heq, hu, hcontent ▸ hload⟩
    · intro attempt' raw' hphase'
      unfold tryReloadConfig at hphase'
      split at hphase'
      · cases hphase'
      · split_ifs at hphase'

/-- **The active configuration is sound at any time**: it was accepted, it is that of a text that
the file had, and no request makes selection panic. -/
theorem active_sound {content : Option String} {active : Config}
    (hstart : Config.load loader content = .ok active)
    (h : Guarded.run (step loader path filename) (start content active) as = some s) :
    Accepted s.active ∧
      (∃ before later u, as = before ++ later ∧
        Guarded.run (step loader path filename) (start content active) before = some u ∧
        Config.load loader u.content = .ok s.active) ∧
      ∀ strategy request random counters, selectBackendCandidates s.active.backends s.active.routes
        strategy request random counters ≠ none := by
  obtain ⟨file, hfile⟩ := resolve_of_load hstart
  have haccepted : Accepted s.active := accepted_active (accepted_of_resolve hfile).1 h
  refine ⟨haccepted, ?_, fun strategy request random counters => ?_⟩
  · obtain hkept | hloaded := (active_of_content h).active
    · exact ⟨[], as, start content active, rfl, rfl, hkept ▸ hstart⟩
    · exact hloaded
  · obtain ⟨selected, counters', hsel, -⟩ | ⟨error, hsel, -⟩ :=
      selectBackendCandidates_spec s.active.routes strategy request random counters
        haccepted.weights
    · rw [hsel]
      exact Option.some_ne_none _
    · rw [hsel]
      exact Option.some_ne_none _

/-! ### No edit is lost -/

/-- If the text of the file is accepted, its configuration is in the store. -/
def Settled (loader : Loader) (s : Reload) : Prop :=
  ∀ config, Config.load loader s.content = .ok config → s.active = config

/-- News of a change is on its way to the task. -/
def Noticed (path filename : String) (s : Reload) : Prop :=
  ∃ message ∈ s.watched ++ s.queue, message.reloads path filename = true

/-- Where the task stands: it has loaded the file as it is, or it knows or will know better. -/
def Tracks (loader : Loader) (path filename : String) (s : Reload) : Prop :=
  match s.phase with
  | .receiving => Settled loader s ∨ Noticed path filename s
  | .loading _ raw => raw = s.content ∨ Noticed path filename s
  | _ => True

theorem forwarded_of_reloads {message : WatchMessage}
    (h : message.reloads path filename = true) : message.forwarded path filename = true := by
  cases message with
  | ok event => exact h
  | error text => cases h

theorem noticed_deliver {message : WatchMessage} {watched : List WatchMessage}
    (hwatched : s.watched = message :: watched) (h : Noticed path filename s) :
    Noticed path filename { s with
      watched := watched
      queue := if message.forwarded path filename then s.queue ++ [message] else s.queue } := by
  obtain ⟨m, hm, hreloads⟩ := h
  refine ⟨m, ?_, hreloads⟩
  rw [hwatched] at hm
  simp only [List.cons_append, List.mem_cons, List.mem_append] at hm ⊢
  obtain rfl | hm | hm := hm
  · rw [if_pos (forwarded_of_reloads hreloads)]
    exact Or.inr (by simp)
  · exact Or.inl hm
  · refine Or.inr ?_
    split_ifs
    · exact List.mem_append_left _ hm
    · exact hm

theorem noticed_notice {message : WatchMessage} (h : Noticed path filename s) :
    Noticed path filename { s with watched := s.watched ++ [message] } := by
  obtain ⟨m, hm, hreloads⟩ := h
  refine ⟨m, ?_, hreloads⟩
  simp only [List.mem_append] at hm ⊢
  exact hm.imp_left Or.inl

/-- **A step keeps track** of the file. -/
theorem tracks_step (hs : Tracks loader path filename s)
    (h : step loader path filename s a = some s') : Tracks loader path filename s' := by
  unfold Tracks at hs
  cases happens_of_step h with
  | @edit content event hevent =>
    have hnoticed : Noticed path filename
        { s with content := content, watched := s.watched ++ [.ok event] } :=
      ⟨.ok event, by simp, hevent⟩
    unfold Tracks
    dsimp only
    split
    · exact Or.inr hnoticed
    · exact Or.inr hnoticed
    · trivial
  | notice =>
    unfold Tracks
    dsimp only
    split at hs <;> simp only [*]
    · exact hs.imp_right noticed_notice
    · exact hs.imp_right noticed_notice
  | deliver hwatched =>
    unfold Tracks
    dsimp only
    split at hs <;> simp only [*]
    · exact hs.imp_right (noticed_deliver hwatched)
    · exact hs.imp_right (noticed_deliver hwatched)
  | @receive message queue hphase hqueue =>
    rw [hphase] at hs
    unfold Tracks
    dsimp only
    by_cases hreloads : message.reloads path filename = true
    · rw [if_pos hreloads]
      trivial
    · rw [if_neg hreloads]
      refine hs.imp_right ?_
      rintro ⟨m, hm, hm'⟩
      refine ⟨m, ?_, hm'⟩
      rw [hqueue] at hm
      simp only [List.mem_append, List.mem_cons] at hm ⊢
      obtain hm | rfl | hm := hm
      · exact Or.inl hm
      · exact absurd hm' hreloads
      · exact Or.inr hm
  | wake _ | drain _ _ | drop _ => trivial
  | settle _ _ =>
    unfold Tracks
    dsimp only
    split_ifs <;> trivial
  | read _ => exact Or.inl rfl
  | @apply attempt raw hphase =>
    rw [hphase] at hs
    unfold tryReloadConfig
    cases hload : Config.load loader raw with
    | ok config =>
      refine hs.imp_left fun hraw config' hload' => ?_
      have hcontent : Config.load loader raw = .ok config' := hraw ▸ hload'
      exact Except.ok.inj (hload.symm.trans hcontent)
    | error error =>
      dsimp only
      split_ifs
      · trivial
      · refine hs.imp_left fun hraw config' hload' => ?_
        have hcontent : Config.load loader raw = .ok config' := hraw ▸ hload'
        rw [hload] at hcontent
        cases hcontent

/-! ### The task comes to rest -/

/-- How much there is still to do at a phase. -/
def phaseWork : WatchPhase → ℕ
  | .receiving | .stopped => 0
  | .loading attempt _ => 2 * (configReloadMaxAttempts - attempt) + 1
  | .attempting attempt => 2 * (configReloadMaxAttempts - attempt) + 2
  | .draining saw => if saw then 15 else 13
  | .sleeping => 14

/-- How much there is still to do: a message may have the task wait and read the file again. -/
def work (s : Reload) : ℕ := 40 * s.watched.length + 20 * s.queue.length + phaseWork s.phase

theorem phaseWork_tryReloadConfig_lt (s : Reload) (attempt : ℕ) (raw : Option String) :
    phaseWork (tryReloadConfig loader s attempt raw).phase < phaseWork (.loading attempt raw) := by
  unfold tryReloadConfig
  split
  · exact Nat.succ_pos _
  · split_ifs with hattempt
    · simp only [phaseWork]
      omega
    · exact Nat.succ_pos _

theorem messages_tryReloadConfig (s : Reload) (attempt : ℕ) (raw : Option String) :
    (tryReloadConfig loader s attempt raw).watched = s.watched ∧
      (tryReloadConfig loader s attempt raw).queue = s.queue ∧
      (tryReloadConfig loader s attempt raw).content = s.content ∧
      (tryReloadConfig loader s attempt raw).phase ≠ .stopped := by
  unfold tryReloadConfig
  split
  · exact ⟨rfl, rfl, rfl, by simp⟩
  · split_ifs <;> exact ⟨rfl, rfl, rfl, by simp⟩

/-- **What the task does** leaves less to do. -/
theorem work_lt (ha : a.isTask = true) (h : step loader path filename s a = some s') :
    s'.work < s.work := by
  unfold work
  cases happens_of_step h with
  | edit _ | notice | drop _ => cases ha
  | @deliver message watched hwatched =>
    have hqueue : (if message.forwarded path filename then s.queue ++ [message]
        else s.queue).length ≤ s.queue.length + 1 := by
      split_ifs <;> simp
    rw [hwatched, List.length_cons]
    dsimp only
    omega
  | receive hphase hqueue =>
    rw [hphase, hqueue, List.length_cons]
    split_ifs <;> simp only [phaseWork] <;> omega
  | wake hphase =>
    rw [hphase]
    simp [phaseWork]
  | @settle saw hphase hqueue =>
    rw [hphase]
    cases saw <;> simp [phaseWork, configReloadMaxAttempts]
  | @drain saw message queue hphase hqueue =>
    rw [hphase, hqueue, List.length_cons]
    simp only [phaseWork]
    split_ifs <;> omega
  | read hphase =>
    rw [hphase]
    simp [phaseWork]
  | @apply attempt raw hphase =>
    obtain ⟨hwatched, hqueue, -, -⟩ := messages_tryReloadConfig s attempt raw
    rw [hwatched, hqueue, hphase]
    exact Nat.add_lt_add_left (phaseWork_tryReloadConfig_lt s attempt raw) _

/-- What the task does leaves the file as it is, and does not stop the task. -/
theorem task_keeps (ha : a.isTask = true) (h : step loader path filename s a = some s') :
    s'.content = s.content ∧ (s.phase ≠ .stopped → s'.phase ≠ .stopped) := by
  cases happens_of_step h with
  | edit _ | notice | drop _ => cases ha
  | deliver _ => exact ⟨rfl, id⟩
  | receive _ _ => exact ⟨rfl, fun _ => by dsimp only; split_ifs <;> simp⟩
  | settle _ _ => exact ⟨rfl, fun _ => by dsimp only; split_ifs <;> simp⟩
  | wake _ | drain _ _ | read _ => exact ⟨rfl, fun _ => by simp⟩
  | @apply attempt raw _ =>
    obtain ⟨-, -, hcontent, hphase⟩ := messages_tryReloadConfig s attempt raw
    exact ⟨hcontent, fun _ => hphase⟩

/-- A task that has nothing to do waits for a message, and there is none. -/
theorem receiving_of_rest (hlive : s.phase ≠ .stopped)
    (hrest : ∀ a, a.isTask = true → step loader path filename s a = none) :
    s.phase = .receiving ∧ s.watched ++ s.queue = [] := by
  have hwatched : s.watched = [] := by
    have h := hrest .deliver rfl
    dsimp only [step] at h
    split at h
    · assumption
    · cases h
  have hphase : s.phase = .receiving := by
    cases hp : s.phase with
    | receiving => rfl
    | stopped => exact absurd hp hlive
    | sleeping =>
      have h := hrest .wake rfl
      simp [step, hp] at h
    | draining saw =>
      have h := hrest .poll rfl
      cases hq : s.queue <;> simp [step, hp, hq] at h
    | attempting attempt =>
      have h := hrest .read rfl
      simp [step, hp] at h
    | loading attempt raw =>
      have h := hrest .apply rfl
      simp [step, hp] at h
  have hqueue : s.queue = [] := by
    have h := hrest .receive rfl
    cases hq : s.queue with
    | nil => rfl
    | cons message queue => simp [step, hphase, hq] at h
  exact ⟨hphase, by rw [hwatched, hqueue]; rfl⟩

/-- **At rest, the configuration of the file is in the store.** -/
theorem settled_of_rest (hs : Tracks loader path filename s) (hlive : s.phase ≠ .stopped)
    (hrest : ∀ a, a.isTask = true → step loader path filename s a = none) : Settled loader s := by
  obtain ⟨hphase, hmessages⟩ := receiving_of_rest hlive hrest
  unfold Tracks at hs
  rw [hphase] at hs
  refine hs.resolve_right ?_
  rintro ⟨message, hmessage, -⟩
  rw [hmessages] at hmessage
  cases hmessage

/-- **No edit is lost**: after any run of the system, whatever its order of edits, messages and
reads, the task comes to rest on its own in a bounded number of actions, and however it gets there,
the store then has the configuration of the file if that is accepted. -/
theorem edit_reaches_store {content : Option String} {active : Config}
    (hstart : Config.load loader content = .ok active)
    (h : Guarded.run (step loader path filename) (start content active) as = some s)
    (hlive : s.phase ≠ .stopped) :
    (∃ bs t, (∀ b ∈ bs, b.isTask = true) ∧ Guarded.run (step loader path filename) s bs = some t ∧
      ∀ b, b.isTask = true → step loader path filename t b = none) ∧
    ∀ bs t, (∀ b ∈ bs, b.isTask = true) → Guarded.run (step loader path filename) s bs = some t →
      bs.length ≤ s.work ∧
      ((∀ b, b.isTask = true → step loader path filename t b = none) →
        ∀ config, Config.load loader s.content = .ok config → t.active = config) := by
  have hinit : Tracks loader path filename (start content active) :=
    Or.inl fun config hload => Except.ok.inj (hstart.symm.trans hload)
  have htracks : Tracks loader path filename s :=
    Guarded.run_inv (fun _ _ _ => tracks_step) hinit h
  refine ⟨Guarded.exists_rest (fun _ _ _ => work_lt) s, fun bs t hbs hrun => ⟨?_, fun hrest => ?_⟩⟩
  · exact Nat.le_of_add_right_le (Guarded.length_add_le (fun _ _ _ => work_lt) hbs hrun)
  · have hkept : t.content = s.content ∧ t.phase ≠ .stopped := by
      refine Guarded.run_inv_along (P := fun _ a => a.isTask = true)
        (I := fun u => u.content = s.content ∧ u.phase ≠ .stopped)
        (fun u a u' ha hu hstep => ?_) ⟨rfl, hlive⟩ (Guarded.along_of_forall hbs) hrun
      obtain ⟨hcontent, hphase⟩ := task_keeps ha hstep
      exact ⟨hcontent.trans hu.1, hphase hu.2⟩
    have ht : Tracks loader path filename t :=
      Guarded.run_inv (fun _ _ _ => tracks_step) htracks hrun
    exact hkept.1 ▸ settled_of_rest ht hkept.2 hrest

end

/-- The text of the sample file. -/
def sampleText : String :=
  "[[client]]\nid = \"guest\"\napi_key = \"key\"\nmodels = [\"gpt\"]\n\n" ++
  "[[backend]]\nid = \"llama\"\nbase_url = \"http://localhost:8080\"\n" ++
  "tool_schema_mode = \"llamacpp_compat\"\nsupports = [\"chat\", \"streaming\"]\n\n" ++
  "[[route]]\npublic_model = \"gpt\"\nbackends = [\"llama-3@llama\"]\n"

/-- The text of the file with two clients. -/
def sharedText : String :=
  "[routing]\nstrategy = \"weighted_random\"\n\n" ++
  "[[client]]\nid = \"guest\"\napi_key = \"key\"\nmodels = [\"gpt\"]\n\n" ++
  "[[client]]\nid = \"office\"\napi_key = \"other\"\nmodels = [\"gpt\", \"whisper\"]\n\n" ++
  "[[backend]]\nid = \"llama\"\nbase_url = \"http://localhost:8080\"\n" ++
  "supports = [\"chat\", \"streaming\"]\nweight = 3\n\n" ++
  "[[backend]]\nid = \"vllm\"\nbase_url = \"http://localhost:8081\"\n" ++
  "supports = [\"chat\", \"audio\"]\n\n" ++
  "[[route]]\npublic_model = \"gpt\"\nbackends = [\"llama-3@llama\", \"llama-3@vllm\"]\n\n" ++
  "[[route]]\npublic_model = \"whisper\"\nbackends = [\"whisper-1@vllm\"]\n"

/-- A parser that knows both files. -/
def sampleLoader : Loader where
  host := sampleHost
  parse text :=
    if text = sampleText then some sampleFile
    else if text = sharedText then some sharedFile
    else none

/-- The file is removed and another one is written; the second event is still on its way when the
task has seen the first. -/
def replaced : List ReloadAction :=
  [.edit none ⟨.remove, []⟩, .deliver, .receive, .wake, .edit (some sharedText) ⟨.create, []⟩]

theorem load_sampleText : ∃ active, Config.load sampleLoader (some sampleText) = .ok active := by
  obtain ⟨config, hresolve, -⟩ := resolve_sampleFile
  refine ⟨config, ?_⟩
  simp [Config.load, sampleLoader, hresolve, bind, Except.bind, Except.mapError]

theorem load_sharedText : ∃ config, Config.load sampleLoader (some sharedText) = .ok config ∧
    config.clients.map ResolvedClient.id = ["guest", "office"] := by
  obtain ⟨config, hresolve, hclients⟩ := resolve_sharedFile
  have hne : sharedText ≠ sampleText := by decide +kernel
  refine ⟨config, ?_, by rw [hclients]; rfl⟩
  simp [Config.load, sampleLoader, hne, hresolve, bind, Except.bind, Except.mapError]

theorem run_replaced (active : Config) :
    Guarded.run (step sampleLoader "/etc/onair.toml" "onair.toml")
      (start (some sampleText) active) replaced =
    some ⟨some sharedText, [.ok ⟨.create, []⟩], [], active, .draining false⟩ := rfl

/-- While the file is gone, the configuration stays. -/
theorem active_sound_replaced : ∃ active s,
    Guarded.run (step sampleLoader "/etc/onair.toml" "onair.toml")
      (start (some sampleText) active) replaced = some s ∧ Accepted s.active := by
  obtain ⟨active, hload⟩ := load_sampleText
  exact ⟨active, _, run_replaced active, (active_sound hload (run_replaced active)).1⟩

/-- The file that was written instead is loaded. -/
theorem edit_reaches_store_replaced : ∃ active s,
    Guarded.run (step sampleLoader "/etc/onair.toml" "onair.toml")
      (start (some sampleText) active) replaced = some s ∧
    ∃ bs t, Guarded.run (step sampleLoader "/etc/onair.toml" "onair.toml") s bs = some t ∧
      t.active.clients.map ResolvedClient.id = ["guest", "office"] := by
  obtain ⟨active, hload⟩ := load_sampleText
  obtain ⟨config, hshared, hclients⟩ := load_sharedText
  obtain ⟨⟨bs, t, hbs, hrun, hrest⟩, hall⟩ :=
    edit_reaches_store hload (run_replaced active) (by simp)
  have hactive := (hall bs t hbs hrun).2 hrest config hshared
  exact ⟨active, _, run_replaced active, bs, t, hrun, hactive ▸ hclients⟩

end Reload

end Onair
