import Onair.Core.Config
import Onair.Lib.Guarded
import Onair.Lib.Json.Reference

/-!
# Context sizes

The context length of a public model may be left to a backend. A task asks the backends in rounds:
in a round it asks for every such model at once, the answers come in any order, and at the end of
the round the models that are no longer configured are dropped from the cache.

* `ContextSizeCache`, `set`, `prune`, `lookup_set`: the cache and its operations;
* `fetchUpstreamNCtx`: what an answer says;
* `collectUpstreamTargets`, `refreshTasks`: whom a round asks;
* `Refresh`, `Refresh.step`: the configuration, the cache and the round;
* **`refresh_round`**: a round leaves what its answers say, whatever their order and whatever was in
  the cache;
* **`lookup_last_answer`**: at any time, what the cache says of a model is what its last answer
  said.
-/

namespace Onair

open Json Text Fallible

/-! ### The cache -/

/-- What is known of a model. -/
structure ContextSizeEntry where
  value : Option UInt64 := none
  lastSuccessUnixMs : Option ℕ := none
  lastFailureUnixMs : Option ℕ := none
  lastErrorKind : Option String := none
  deriving DecidableEq, Repr

/-- The entries by public model. -/
abbrev ContextSizeCache : Type := List (String × ContextSizeEntry)

namespace ContextSizeCache

/-- What is known of a model. -/
def entry (cache : ContextSizeCache) (publicModel : String) : Option ContextSizeEntry :=
  OrdMap.get publicModel cache

/-- The context length of a model. -/
def lookup (cache : ContextSizeCache) (publicModel : String) : Option UInt64 :=
  (cache.entry publicModel).bind ContextSizeEntry.value

/-- Set the value of a model, or why there is none. -/
def set (cache : ContextSizeCache) (publicModel : String) (value : Option UInt64)
    (errorKind : Option String) (nowUnixMs : ℕ) : ContextSizeCache :=
  let entry := { (cache.entry publicModel).getD {} with value := value }
  match value, errorKind with
  | none, none => cache
  | some _, none => OrdMap.insert publicModel
      { entry with lastSuccessUnixMs := some nowUnixMs, lastErrorKind := none } cache
  | none, some kind => OrdMap.insert publicModel
      { entry with lastFailureUnixMs := some nowUnixMs, lastErrorKind := some kind } cache
  | some _, some _ => OrdMap.insert publicModel entry cache

/-- Drop the models that are not active. -/
def prune (cache : ContextSizeCache) (active : List String) : ContextSizeCache :=
  cache.filter fun e => e.1 ∈ active

/-- Set the value of a model to what a fetch found. -/
def record (cache : ContextSizeCache) (publicModel : String) (result : Except String UInt64)
    (nowUnixMs : ℕ) : ContextSizeCache :=
  match result with
  | .ok value => cache.set publicModel (some value) none nowUnixMs
  | .error kind => cache.set publicModel none (some kind) nowUnixMs

theorem lookup_insert (cache : ContextSizeCache) (model other : String) (e : ContextSizeEntry) :
    lookup (OrdMap.insert model e cache) other =
      if other = model then e.value else cache.lookup other := by
  rw [lookup, entry, OrdMap.get_insert]
  split_ifs <;> rfl

/-- **What a fetch changes**: the value of its model, and no other. -/
theorem lookup_record (cache : ContextSizeCache) (model other : String)
    (result : Except String UInt64) (now : ℕ) :
    (cache.record model result now).lookup other =
      if other = model then result.toOption else cache.lookup other := by
  cases result with
  | ok value => exact lookup_insert _ _ _ _
  | error kind => exact lookup_insert _ _ _ _

theorem lookup_prune (cache : ContextSizeCache) (active : List String) (model : String) :
    (cache.prune active).lookup model = if model ∈ active then cache.lookup model else none := by
  rw [lookup, entry, prune, OrdMap.get_filter]
  split_ifs <;> rfl

end ContextSizeCache

/-! ### Fetching -/

/-- Why a request could not be sent. -/
inductive SendError where
  | timeout
  | connect
  | request
  | unknown
  deriving DecidableEq, Repr

/-- The name of an error. -/
def classifyError : SendError → String
  | .timeout => "timeout"
  | .connect => "connect"
  | .request => "request"
  | .unknown => "unknown"

/-- What came of a request: the task panicked, or the request failed, or there is an answer. -/
inductive PropsAnswer where
  | panicked
  | failed (error : SendError)
  | replied (status : ℕ) (body : Bytes)
  deriving DecidableEq, Repr

/-- What a fetch asks of the libraries: a reader of JSON texts, and the URL with the field `model`
in its query, if there is one. -/
structure PropsServices where
  codec : Codec
  withModel : String → String → Option String

/-- A fetch that was spawned. -/
structure RefreshTask where
  publicModel : String
  baseUrl : String
  apiKey : Option String
  backendModel : String
  deriving DecidableEq, Repr

/-- The URL that is asked. -/
def buildPropsUrl (services : PropsServices) (baseUrl backendModel : String) : Option String :=
  services.withModel (trimEndSlashes baseUrl ++ "/props") backendModel

/-- The context length in the text of an answer. -/
def propsNCtx (codec : Codec) (body : Bytes) : Except String UInt64 :=
  match codec.fromSlice body with
  | none => .error "decode"
  | some body =>
    match ((body.get "default_generation_settings").bind (Value.get · "n_ctx")).bind
        Value.asU64 with
    | some value => .ok value
    | none => .error "missing"

/-- **What a fetch finds**, if the request has some answer. -/
def fetchUpstreamNCtx (services : PropsServices) (task : RefreshTask) (answer : PropsAnswer) :
    Except String UInt64 :=
  match buildPropsUrl services task.baseUrl task.backendModel with
  | none => .error "url"
  | some _ =>
    match answer with
    | .panicked => .error "panic"
    | .failed error => .error (classifyError error)
    | .replied status body =>
      if 200 ≤ status ∧ status < 300 then propsNCtx services.codec body else .error "status"

/-! ### Whom a round asks -/

/-- A public model whose context length is left to a backend. -/
structure UpstreamTarget where
  publicModel : String
  backendId : String
  backendModel : String
  deriving DecidableEq, Repr

/-- The targets among some routes, the first for each public model that was not seen. -/
def collectUnseen (seen : List String) : List ResolvedRoute → List UpstreamTarget
  | [] => []
  | route :: routes =>
    match route.key, route.contextLength with
    | .publicModel model, .upstream backendId backendModel _ =>
      if model ∈ seen then collectUnseen seen routes
      else ⟨model, backendId, backendModel⟩ :: collectUnseen (model :: seen) routes
    | _, _ => collectUnseen seen routes

/-- The targets of a configuration. -/
def collectUpstreamTargets (config : Config) : List UpstreamTarget :=
  collectUnseen [] config.routes

/-- The models that are kept. -/
def activeModels (config : Config) : List String :=
  (collectUpstreamTargets config).map UpstreamTarget.publicModel

/-- The fetch for a target, if its backend is there. -/
def spawn (config : Config) (target : UpstreamTarget) : Option RefreshTask :=
  (config.backends.find? fun b => b.id == target.backendId).map fun backend =>
    { publicModel := target.publicModel
      baseUrl := backend.baseUrl
      apiKey := backend.apiKey
      backendModel := target.backendModel }

/-- The fetches of a round. -/
def refreshTasks (config : Config) : List RefreshTask :=
  (collectUpstreamTargets config).filterMap (spawn config)

theorem collectUnseen_spec (seen : List String) (routes : List ResolvedRoute) :
    ((collectUnseen seen routes).map UpstreamTarget.publicModel).Nodup ∧
      ∀ t ∈ collectUnseen seen routes, t.publicModel ∉ seen := by
  induction routes generalizing seen with
  | nil => exact ⟨List.nodup_nil, by simp [collectUnseen]⟩
  | cons route routes ih =>
    unfold collectUnseen
    split
    · rename_i model backendId backendModel _ _ _
      split_ifs with hseen
      · exact ih seen
      · obtain ⟨hnodup, hnew⟩ := ih (model :: seen)
        refine ⟨?_, ?_⟩
        · rw [List.map_cons, List.nodup_cons]
          refine ⟨fun hmem => ?_, hnodup⟩
          obtain ⟨t, ht, hmodel⟩ := List.mem_map.mp hmem
          exact hnew t ht (hmodel ▸ List.mem_cons_self)
        · refine List.forall_mem_cons.mpr ⟨hseen, fun t ht hmem => ?_⟩
          exact hnew t ht (List.mem_cons_of_mem _ hmem)
    · exact ih seen

theorem publicModel_of_spawn {config : Config} {target : UpstreamTarget} {task : RefreshTask}
    (h : spawn config target = some task) : task.publicModel = target.publicModel := by
  obtain ⟨backend, -, rfl⟩ := Option.map_eq_some_iff.mp h
  rfl

/-- **A round asks for each model once.** -/
theorem refreshTasks_nodup (config : Config) :
    ((refreshTasks config).map RefreshTask.publicModel).Nodup := by
  have hnodup := (collectUnseen_spec [] config.routes).1
  refine hnodup.sublist ?_
  rw [refreshTasks, collectUpstreamTargets]
  generalize collectUnseen [] config.routes = targets
  induction targets with
  | nil => exact List.Sublist.refl _
  | cons target targets ih =>
    cases hspawn : spawn config target with
    | none => exact (List.filterMap_cons_none hspawn ▸ ih).cons _
    | some task =>
      rw [List.filterMap_cons_some hspawn, List.map_cons, List.map_cons,
        publicModel_of_spawn hspawn]
      exact ih.cons_cons _

theorem mem_activeModels {config : Config} {task : RefreshTask} (h : task ∈ refreshTasks config) :
    task.publicModel ∈ activeModels config := by
  obtain ⟨target, htarget, hspawn⟩ := List.mem_filterMap.mp h
  rw [publicModel_of_spawn hspawn]
  exact List.mem_map_of_mem htarget

/-! ### Rounds -/

/-- A round: the models that are kept at its end, and the fetches without an answer. -/
structure RefreshRound where
  active : List String
  pending : List RefreshTask
  deriving DecidableEq, Repr

/-- The configuration, the cache and the round. -/
structure Refresh where
  config : Config
  cache : ContextSizeCache
  round : Option RefreshRound

/-- What may happen. -/
inductive RefreshAction where
  /-- The configuration is loaded again. -/
  | reload (config : Config)
  | begin
  /-- The fetch for a model comes to an end. -/
  | finish (publicModel : String) (answer : PropsAnswer) (nowUnixMs : ℕ)
  /-- All fetches are awaited. -/
  | prune

namespace Refresh

/-- The task as it is started. -/
def start (config : Config) : Refresh := ⟨config, [], none⟩

/-- What an action does, if it may happen. -/
def step (services : PropsServices) (s : Refresh) : RefreshAction → Option Refresh
  | .reload config => some { s with config := config }
  | .begin =>
    if s.round = none then some { s with
      round := some ⟨activeModels s.config, refreshTasks s.config⟩ }
    else none
  | .finish publicModel answer now =>
    s.round.bind fun round =>
      (round.pending.find? fun task => task.publicModel == publicModel).map fun task => { s with
        cache := s.cache.record publicModel (fetchUpstreamNCtx services task answer) now
        round := some { round with
          pending := round.pending.filter fun task => task.publicModel ≠ publicModel } }
  | .prune =>
    s.round.bind fun round =>
      if round.pending = [] then some { s with
        cache := s.cache.prune round.active
        round := none }
      else none

variable {services : PropsServices} {s t : Refresh} {as : List RefreshAction}

theorem of_begin (h : step services s .begin = some t) : s.round = none ∧ t = { s with
    round := some ⟨activeModels s.config, refreshTasks s.config⟩ } := by
  obtain ⟨hnone, rfl⟩ := Guarded.of_guard h
  exact ⟨hnone, rfl⟩

theorem of_finish {model : String} {answer : PropsAnswer} {now : ℕ}
    (h : step services s (.finish model answer now) = some t) :
    ∃ round, s.round = some round ∧ ∃ task ∈ round.pending, task.publicModel = model ∧
      t = { s with
        cache := s.cache.record model (fetchUpstreamNCtx services task answer) now
        round := some { round with
          pending := round.pending.filter fun task => task.publicModel ≠ model } } := by
  obtain ⟨round, hround, h⟩ := Option.bind_eq_some_iff.mp h
  obtain ⟨task, htask, h⟩ := Option.map_eq_some_iff.mp h
  refine ⟨round, hround, task, List.mem_of_find?_eq_some htask, ?_, h.symm⟩
  simpa using List.find?_some htask

theorem of_prune (h : step services s .prune = some t) :
    ∃ round, s.round = some round ∧ round.pending = [] ∧ t = { s with
      cache := s.cache.prune round.active
      round := none } := by
  obtain ⟨round, hround, h⟩ := Option.bind_eq_some_iff.mp h
  obtain ⟨hpending, rfl⟩ := Guarded.of_guard h
  exact ⟨round, hround, hpending, rfl⟩

/-! ### One round -/

/-- In a round over some tasks: a task has no answer yet and its model is as it was, or the value
of its model is what its answer says; and no other model has changed. -/
structure InRound (services : PropsServices) (before : ContextSizeCache) (active : List String)
    (tasks : List RefreshTask) (as : List RefreshAction) (t : Refresh) : Prop where
  round : ∃ pending, t.round = some ⟨active, pending⟩ ∧ pending ⊆ tasks ∧
    ∀ task ∈ tasks, task ∈ pending ∨
      ∃ answer now, RefreshAction.finish task.publicModel answer now ∈
      as ∧ t.cache.lookup task.publicModel = (fetchUpstreamNCtx services task answer).toOption
  others : ∀ model, (∀ task ∈ tasks, task.publicModel ≠ model) →
    t.cache.lookup model = before.lookup model

theorem inRound_step {before : ContextSizeCache} {active : List String} {tasks : List RefreshTask}
    (hnodup : (tasks.map RefreshTask.publicModel).Nodup) {a : RefreshAction} (ha : a ≠ .prune)
    (hs : InRound services before active tasks as s) (h : step services s a = some t) :
    InRound services before active tasks (as ++ [a]) t := by
  obtain ⟨⟨pending, hround, hsub, htasks⟩, hothers⟩ := hs
  cases a with
  | reload config =>
    obtain rfl := Option.some.inj h
    refine ⟨⟨pending, hround, hsub, fun task htask => (htasks task htask).imp_right ?_⟩, hothers⟩
    rintro ⟨answer, now, hmem, hvalue⟩
    exact ⟨answer, now, List.mem_append_left _ hmem, hvalue⟩
  | begin =>
    obtain ⟨hnone, -⟩ := of_begin h
    rw [hround] at hnone
    cases hnone
  | prune => exact absurd rfl ha
  | finish model answer now =>
    obtain ⟨round, hround', asked, hasked, hmodel, rfl⟩ := of_finish h
    obtain rfl := Option.some.inj (hround.symm.trans hround')
    constructor
    · refine ⟨_, rfl, fun task htask => hsub (List.mem_filter.mp htask).1, fun task htask => ?_⟩
      by_cases heq : task.publicModel = model
      · -- a model has one task in the round
        have hsame : task = asked :=
          List.inj_on_of_nodup_map hnodup htask (hsub hasked) (heq.trans hmodel.symm)
        refine Or.inr ⟨answer, now, ?_, ?_⟩
        · rw [heq]
          exact List.mem_append_right _ (List.mem_singleton_self _)
        · rw [ContextSizeCache.lookup_record, if_pos heq, hsame]
      · obtain hpending | ⟨answer', now', hmem, hvalue⟩ := htasks task htask
        · exact Or.inl (List.mem_filter.mpr ⟨hpending, by simpa using heq⟩)
        · refine Or.inr ⟨answer', now', List.mem_append_left _ hmem, ?_⟩
          rw [ContextSizeCache.lookup_record, if_neg heq]
          exact hvalue
    · intro other hother
      rw [ContextSizeCache.lookup_record,
        if_neg fun heq => hother asked (hsub hasked) (hmodel.trans heq.symm)]
      exact hothers other hother

/-- **What a round leaves**: the value of a model that was asked for is what its answer says, in
whatever order the answers came and whatever the cache and the configuration were meanwhile; a
model that could not be asked for is as it was; and no other model has a value. -/
theorem refresh_round (has : RefreshAction.prune ∉ as)
    (h : Guarded.run (step services) s (.begin :: (as ++ [.prune])) = some t) :
    t.round = none ∧
    (∀ task ∈ refreshTasks s.config, ∃ answer now,
      RefreshAction.finish task.publicModel answer now ∈ as ∧
      t.cache.lookup task.publicModel = (fetchUpstreamNCtx services task answer).toOption) ∧
    ∀ model, (∀ task ∈ refreshTasks s.config, task.publicModel ≠ model) →
      t.cache.lookup model =
        if model ∈ activeModels s.config then s.cache.lookup model else none := by
  obtain ⟨u, hu, h⟩ := Option.bind_eq_some_iff.mp h
  obtain ⟨-, rfl⟩ := of_begin hu
  rw [Guarded.run_append] at h
  obtain ⟨v, hv, h⟩ := Option.bind_eq_some_iff.mp h
  obtain ⟨w, hw, h⟩ := Option.bind_eq_some_iff.mp h
  obtain rfl := Option.some.inj h
  have hround : InRound services s.cache (activeModels s.config) (refreshTasks s.config) as v := by
    have hne : ∀ a ∈ as, a ≠ RefreshAction.prune := by
      rintro a ha rfl
      exact has ha
    refine Guarded.run_inv_history_along (p := fun a => a ≠ RefreshAction.prune) ?_ ?_ hne hv
    · exact ⟨⟨_, rfl, List.Subset.refl _, fun task htask => Or.inl htask⟩, fun _ _ => rfl⟩
    · exact fun _ _ _ _ _ ha hinv hstep => inRound_step (refreshTasks_nodup s.config) ha hinv hstep
  obtain ⟨round, hsome, hpending, rfl⟩ := of_prune hw
  obtain ⟨⟨pending, hround', -, htasks⟩, hothers⟩ := hround
  obtain rfl := Option.some.inj (hround'.symm.trans hsome)
  obtain rfl : pending = [] := hpending
  refine ⟨rfl, fun task htask => ?_, fun model hmodel => ?_⟩
  · obtain hnone | ⟨answer, now, hmem, hvalue⟩ := htasks task htask
    · cases hnone
    · refine ⟨answer, now, hmem, ?_⟩
      rw [ContextSizeCache.lookup_prune, if_pos (mem_activeModels htask)]
      exact hvalue
  · rw [ContextSizeCache.lookup_prune, hothers model hmodel]

/-- Two models of a backend. -/
def samplePair : Config where
  routing := {}
  inspector := {}
  clients := []
  backends := [{ id := "llama", baseUrl := "http://localhost:8080/" }]
  routes :=
    [{ key := .publicModel "small", contextLength := .upstream "llama" "s" none },
      { key := .publicModel "large", contextLength := .upstream "llama" "l" none }]

/-- A reader of JSON texts, and URLs with a query that has no characters to be escaped. -/
def sampleProps : PropsServices where
  codec := reference
  withModel url model := some (url ++ "?model=" ++ model)

/-- The answer of a backend. -/
def sampleReply : Bytes := asBytes "\x7b\"default_generation_settings\":\x7b\"n_ctx\":8192\x7d\x7d"

theorem propsNCtx_sampleReply : propsNCtx reference sampleReply = .ok 8192 := by decide +kernel

/-- Everything that happens while the models of `samplePair` are asked for: the answers come in the
other order, and there is another configuration meanwhile. -/
def sampleRound : List RefreshAction :=
  [.finish "large" (.replied 200 sampleReply) 5, .reload { samplePair with routes := [] },
    .finish "small" (.failed .timeout) 6]

theorem refresh_round_pair : ∃ t, Guarded.run (step sampleProps) (start samplePair)
      (.begin :: (sampleRound ++ [.prune])) = some t ∧
    t.cache.lookup "small" = none ∧ t.cache.lookup "large" = some 8192 := by
  have hsome : (Guarded.run (step sampleProps) (start samplePair)
      (.begin :: (sampleRound ++ [.prune]))).isSome = true := by decide +kernel
  obtain ⟨t, ht⟩ := Option.isSome_iff_exists.mp hsome
  obtain ⟨-, htasks, -⟩ := refresh_round (by simp [sampleRound]) ht
  refine ⟨t, ht, ?_, ?_⟩
  · obtain ⟨answer, now, hmem, hvalue⟩ := htasks
      ⟨"small", "http://localhost:8080/", none, "s"⟩ (by decide +kernel)
    obtain ⟨rfl, -⟩ : answer = .failed .timeout ∧ now = 6 := by simpa [sampleRound] using hmem
    exact hvalue
  · obtain ⟨answer, now, hmem, hvalue⟩ := htasks
      ⟨"large", "http://localhost:8080/", none, "l"⟩ (by decide +kernel)
    obtain ⟨rfl, -⟩ : answer = .replied 200 sampleReply ∧ now = 5 := by
      simpa [sampleRound] using hmem
    rw [hvalue]
    exact congrArg Except.toOption propsNCtx_sampleReply

/-! ### Where a value comes from -/

/-- The configuration is one that was there at some time. -/
def Loaded (s : Refresh) (as : List RefreshAction) (config : Config) : Prop :=
  config = s.config ∨ RefreshAction.reload config ∈ as

/-- The last answer for a model, to a fetch that a configuration asked for, says this. -/
def LastAnswer (services : PropsServices) (s : Refresh) (as : List RefreshAction) (model : String)
    (value : UInt64) : Prop :=
  ∃ before answer now later config task, as = before ++ .finish model answer now :: later ∧
    (∀ answer now, RefreshAction.finish model answer now ∉ later) ∧
    Loaded s before config ∧ task ∈ refreshTasks config ∧ task.publicModel = model ∧
    fetchUpstreamNCtx services task answer = .ok value

/-- What is known of a state by what happened. -/
structure Sourced (services : PropsServices) (s : Refresh) (as : List RefreshAction) (t : Refresh) :
    Prop where
  config : Loaded s as t.config
  asked : ∀ round ∈ t.round, ∃ config, Loaded s as config ∧ round.pending ⊆ refreshTasks config
  value : ∀ model value, t.cache.lookup model = some value →
    LastAnswer services s as model value

theorem Loaded.append {config : Config} (h : Loaded s as config) (bs : List RefreshAction) :
    Loaded s (as ++ bs) config :=
  Or.imp_right (List.mem_append_left _) h

theorem LastAnswer.append {model : String} {value : UInt64} {a : RefreshAction}
    (h : LastAnswer services s as model value) (ha : ∀ answer now, a ≠ .finish model answer now) :
    LastAnswer services s (as ++ [a]) model value := by
  obtain ⟨before, answer, now, later, config, task, rfl, hlast, h⟩ := h
  refine ⟨before, answer, now, later ++ [a], config, task, by simp, fun answer' now' hmem => ?_, h⟩
  obtain hmem | hmem := List.mem_append.mp hmem
  · exact hlast answer' now' hmem
  · exact ha answer' now' (List.mem_singleton.mp hmem).symm

theorem sourced_step {u : Refresh} {a : RefreshAction} (hinv : Sourced services s as t)
    (h : step services t a = some u) : Sourced services s (as ++ [a]) u := by
  have hconfig : Loaded s (as ++ [a]) t.config := hinv.config.append _
  have hasked : ∀ round ∈ t.round, ∃ config, Loaded s (as ++ [a]) config ∧
      round.pending ⊆ refreshTasks config := by
    intro round hround
    obtain ⟨config, hloaded, hsub⟩ := hinv.asked round hround
    exact ⟨config, hloaded.append _, hsub⟩
  cases a with
  | reload config =>
    obtain rfl := Option.some.inj h
    refine ⟨Or.inr (List.mem_append_right _ (List.mem_singleton_self _)), hasked, ?_⟩
    exact fun model value hvalue => (hinv.value model value hvalue).append (by simp)
  | begin =>
    obtain ⟨-, rfl⟩ := of_begin h
    refine ⟨hconfig, fun round hround => ?_, ?_⟩
    · obtain rfl := Option.some.inj hround
      exact ⟨t.config, hconfig, List.Subset.refl _⟩
    · exact fun model value hvalue => (hinv.value model value hvalue).append (by simp)
  | prune =>
    obtain ⟨round, -, -, rfl⟩ := of_prune h
    refine ⟨hconfig, fun _ hround => (by cases hround), fun model value hvalue => ?_⟩
    rw [ContextSizeCache.lookup_prune] at hvalue
    split_ifs at hvalue
    exact (hinv.value model value hvalue).append (by simp)
  | finish model answer now =>
    obtain ⟨round, hround, task, htask, hmodel, rfl⟩ := of_finish h
    obtain ⟨config, hloaded, hsub⟩ := hinv.asked round hround
    refine ⟨hconfig, fun round' hround' => ?_, fun other value hvalue => ?_⟩
    · obtain rfl := Option.some.inj hround'
      refine ⟨config, hloaded.append _, fun task' htask' => hsub (List.mem_filter.mp htask').1⟩
    · rw [ContextSizeCache.lookup_record] at hvalue
      split_ifs at hvalue with heq
      · subst heq
        refine ⟨as, answer, now, [], config, task, rfl, by simp, hloaded, hsub htask, hmodel, ?_⟩
        exact toOption_eq_some.mp hvalue
      · refine (hinv.value other value hvalue).append ?_
        rintro answer' now' hfinish
        exact heq (RefreshAction.finish.inj hfinish).1.symm

/-- **Where a value comes from**: at any time, a value in the cache is what the last answer for its
model said, and the fetch was one that a configuration of the time asked for. -/
theorem lookup_last_answer {config : Config} {model : String} {value : UInt64}
    (h : Guarded.run (step services) (start config) as = some t)
    (hvalue : t.cache.lookup model = some value) :
    LastAnswer services (start config) as model value := by
  have hstart : Sourced services (start config) [] (start config) :=
    ⟨Or.inl rfl, fun _ hround => (by cases hround), fun _ _ hnone => (by cases hnone)⟩
  have hrun : Sourced services (start config) as t :=
    Guarded.run_inv_history (I := Sourced services (start config)) hstart
      (fun _ _ _ _ _ hinv hstep => sourced_step hinv hstep) h
  exact hrun.value model value hvalue

theorem lookup_last_answer_pair : LastAnswer sampleProps (start samplePair)
    (.begin :: (sampleRound ++ [.prune])) "large" 8192 := by
  have hlarge : (Guarded.run (step sampleProps) (start samplePair)
      (.begin :: (sampleRound ++ [.prune]))).bind (fun t => t.cache.lookup "large") =
        some 8192 := by
    decide +kernel
  obtain ⟨t, ht, hvalue⟩ := Option.bind_eq_some_iff.mp hlarge
  exact lookup_last_answer ht hvalue

end Refresh

end Onair
