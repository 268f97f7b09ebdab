import Mathlib.Data.Finset.Sort
import Onair.Observe.ContextSizes
import Onair.Proxy.Accepted
import Onair.Proxy.Credentials
import Onair.Proxy.Preflight

/-!
# The models a client is told of

A client can list its models, ask for one of them, and ask for the properties of one; and it can
send requests to one. An operator sees the models with their clients and backends.

* `Config.publicModelContextLengths`: the public models, with their context lengths;
* `App.models`, `App.model`, `App.props`: the endpoints;
* `App.selectRoutes`: what becomes of a request, up to the selection of its backends;
* **`models_agree`**: a model is listed, found, described and served, or it is none of these;
* `modelsSnapshot`: the models as the operator sees them;
* **`operator_models_agree`**: the operator sees what the clients see.
-/

namespace Onair

open Json Text

/-! ### Context lengths -/

namespace ContextLengthSpec

/-- The specification, with what is known of a length that is left to a backend. -/
def resolved (nCtx : Option ℕ) : ContextLengthSpec → ContextLengthSpec
  | .none => .none
  | .static n => .static n
  | .upstream backendId backendModel _ => .upstream backendId backendModel nCtx

/-- The length, if it is known. -/
def nCtx : ContextLengthSpec → Option ℕ
  | .none => Option.none
  | .static n => some n
  | .upstream _ _ n => n

end ContextLengthSpec

/-- The public models of some routes, the first route of each. -/
def publicModelsBy (nCtx : String → Option ℕ) (routes : List ResolvedRoute) :
    List (String × ContextLengthSpec) :=
  routes.foldl (fun models route =>
    match route.key with
    | .publicModel model =>
      OrdMap.orInsert model (route.contextLength.resolved (nCtx model)) models
    | .path _ => models) []

/-- The public models, with the context lengths that are configured. -/
def Config.publicModelContextLengths (config : Config) : List (String × ContextLengthSpec) :=
  publicModelsBy (fun _ => none) config.routes

/-- The public models, with the context lengths that are known. -/
def Config.publicModelContextLengthsWithCache (config : Config) (cache : ContextSizeCache) :
    List (String × ContextLengthSpec) :=
  publicModelsBy (fun model => (cache.lookup model).map UInt64.toNat) config.routes

theorem publicRoute_cons (route : ResolvedRoute) (routes : List ResolvedRoute) (model : String) :
    publicRoute (route :: routes) model =
      if route.key = .publicModel model then some route else publicRoute routes model := by
  rw [publicRoute, List.find?_cons]
  by_cases hkey : route.key = .publicModel model
  · rw [if_pos hkey, beq_iff_eq.mpr hkey]
  · rw [if_neg hkey, beq_eq_false_iff_ne.mpr hkey]
    rfl

/-- **The context length of a model is that of its public route.** -/
theorem get_publicModelsBy (nCtx : String → Option ℕ) (routes : List ResolvedRoute)
    (model : String) :
    OrdMap.get model (publicModelsBy nCtx routes) =
      (publicRoute routes model).map fun route => route.contextLength.resolved (nCtx model) := by
  have hfold : ∀ models : List (String × ContextLengthSpec),
      OrdMap.get model (routes.foldl (fun models route =>
        match route.key with
        | .publicModel model =>
          OrdMap.orInsert model (route.contextLength.resolved (nCtx model)) models
        | .path _ => models) models) =
      (OrdMap.get model models).or
        ((publicRoute routes model).map fun route =>
          route.contextLength.resolved (nCtx model)) := by
    induction routes with
    | nil => exact fun _ => (Option.or_none).symm
    | cons route routes ih =>
      intro models
      rw [List.foldl_cons, ih, publicRoute_cons]
      cases hkey : route.key with
      | path path => rfl
      | publicModel other =>
        dsimp only
        rw [OrdMap.get_orInsert]
        by_cases hmodel : model = other
        · subst hmodel
          rw [if_pos rfl, if_pos rfl]
          cases OrdMap.get model models <;> rfl
        · rw [if_neg hmodel, if_neg fun heq => hmodel (RouteKey.publicModel.inj heq).symm]
  exact hfold []

theorem sorted_publicModelsBy (nCtx : String → Option ℕ) (routes : List ResolvedRoute) :
    OrdMap.Sorted (publicModelsBy nCtx routes) := by
  refine List.foldlRecOn routes _ (motive := OrdMap.Sorted) List.Pairwise.nil ?_
  intro models hmodels route _
  cases route.key with
  | publicModel model => exact OrdMap.sorted_orInsert hmodels _ _
  | path path => exact hmodels

/-! ### The endpoints -/

/-- What is told of the context length of a model. -/
structure ModelMeta where
  nCtx : ℕ
  nCtxTrain : Option ℕ
  deriving DecidableEq, Repr

/-- A model as clients see it. -/
structure ModelObject where
  id : String
  object : String := "model"
  created : ℕ := 0
  ownedBy : String := "onair"
  modelMeta : Option ModelMeta
  deriving DecidableEq, Repr

/-- A model, with the length a backend told. -/
def ModelObject.new (id : String) (contextLength : Option ℕ) : ModelObject where
  id := id
  modelMeta := contextLength.map fun nCtx => ⟨nCtx, none⟩

/-- A model, with a length that is configured. -/
def ModelObject.newStatic (id : String) (contextLength : ℕ) : ModelObject where
  id := id
  modelMeta := some ⟨contextLength, some contextLength⟩

/-- The answer to a request for all models. -/
structure ModelsResponse where
  object : String := "list"
  data : List ModelObject
  deriving DecidableEq, Repr

/-- The answer with some models, by their names. -/
def modelsResponse (models : List ModelObject) : ModelsResponse where
  data := models.mergeSort fun left right => left.id ≤ right.id

/-- The answer to a request for properties; the object of parameters it has besides is empty. -/
structure PropsResponse where
  role : Option String
  modelAlias : Option String
  nCtx : ℕ
  modelPath : String := "none"
  deriving DecidableEq, Repr

namespace App

/-- Authenticate a request and answer it. -/
def authedHandler {α : Type} (config : Config) (cache : ContextSizeCache) (headers : HeaderMap)
    (handle : Identity → List (String × ContextLengthSpec) → Except ApiError α) :
    Except ApiError α :=
  match authenticate headers config.clients with
  | .ok identity => handle identity (config.publicModelContextLengthsWithCache cache)
  | .error error => .error error

/-- `GET /v1/models`. -/
def models (config : Config) (cache : ContextSizeCache) (headers : HeaderMap) :
    Except ApiError ModelsResponse :=
  authedHandler config cache headers fun identity available =>
    .ok (modelsResponse (identity.models.sort.filterMap fun model =>
      (OrdMap.get model available).map fun resolved =>
        match resolved with
        | .none => .new model none
        | .static nCtx => .newStatic model nCtx
        | .upstream _ _ (some nCtx) => .new model (some nCtx)
        | .upstream _ _ none => .new model none))

/-- `GET /v1/models/{model}`. -/
def model (config : Config) (cache : ContextSizeCache) (headers : HeaderMap) (model : String) :
    Except ApiError ModelObject :=
  authedHandler config cache headers fun identity available =>
    if model ∉ identity.models then .error (.modelNotFound model)
    else
      match OrdMap.get model available with
      | some .none => .ok (.new model none)
      | some (.static nCtx) => .ok (.newStatic model nCtx)
      | some (.upstream _ _ nCtx) => .ok (.new model nCtx)
      | none => .error (.modelNotFound model)

/-- The model of a query. -/
def queryModel (f : Form) (query : Option String) : Option String :=
  query.bind fun query => ((f.parse (asBytes query)).find? fun e => e.1 == "model").map Prod.snd

/-- `GET /props`. -/
def props (f : Form) (config : Config) (cache : ContextSizeCache) (headers : HeaderMap)
    (query : Option String) : Except ApiError PropsResponse :=
  authedHandler config cache headers fun identity available =>
    match queryModel f query with
    | none => .ok { role := some "router", modelAlias := some "llama-server", nCtx := 0 }
    | some model =>
      if model ∉ identity.models then .error (.modelNotFound model)
      else
        match OrdMap.get model available with
        | some resolved => .ok
            { role := some "router"
              modelAlias := some model
              nCtx := match resolved with
                | .none => 0
                | .static nCtx => nCtx
                | .upstream _ _ nCtx => nCtx.getD 0 }
        | none => .error (.modelNotFound model)

/-- What becomes of a request to a model, up to the selection of its backends; `none` is a
panic. -/
def selectRoutes (c : Codec) (f : Form) (config : Config) (request : ProxyRequest) (random : ℕ)
    (counters : RoundRobinCounters) :
    Option (Except ApiError (List SelectedRoute) × RoundRobinCounters) :=
  match preflight c f config.clients request with
  | .error error => some (.error error, counters)
  | .ok selection =>
    selectBackendCandidates config.backends config.routes config.routing.strategy
      { path := selection.path
        model := selection.model
        stream := selection.stream
        tools := selection.tools
        stickyKey := some selection.stickyKey } random counters

theorem selectBackendCandidates_error {backends : List ResolvedBackend}
    {routes : List ResolvedRoute} {strategy : RoutingStrategy} {request : BackendSelectionRequest}
    {random : ℕ} {counters counters' : RoundRobinCounters} {error : ApiError}
    (h : selectBackendCandidates backends routes strategy request random counters =
      some (.error error, counters')) :
    listCandidates backends routes request = .error error ∨
      ∃ flag, error = noCandidateError request flag := by
  unfold selectBackendCandidates at h
  cases hlist : listCandidates backends routes request with
  | error e =>
    rw [hlist] at h
    obtain ⟨h, -⟩ := Prod.mk.inj (Option.some.inj h)
    exact Or.inl (congrArg Except.error (Except.error.inj h))
  | ok st =>
    obtain ⟨candidates, flag⟩ := st
    rw [hlist] at h
    dsimp only at h
    cases hempty : candidates.isEmpty with
    | true =>
      rw [hempty, if_pos rfl] at h
      obtain ⟨h, -⟩ := Prod.mk.inj (Option.some.inj h)
      exact Or.inr ⟨flag, (Except.error.inj h).symm⟩
    | false =>
      rw [hempty, if_neg Bool.false_ne_true] at h
      cases horder : orderCandidates strategy request random counters candidates with
      | none =>
        rw [horder] at h
        cases h
      | some ordered =>
        rw [horder] at h
        dsimp only at h
        split_ifs at h
        obtain ⟨h, -⟩ := Prod.mk.inj (Option.some.inj h)
        cases h

/-! ### What the endpoints answer -/

section

variable {config : Config} {cache : ContextSizeCache} {headers : HeaderMap} {identity : Identity}
  (hauth : authenticate headers config.clients = .ok identity)

/-- A model as clients see it, from its context length. -/
def objectOf (model : String) : ContextLengthSpec → ModelObject
  | .none => .new model none
  | .static nCtx => .newStatic model nCtx
  | .upstream _ _ nCtx => .new model nCtx

theorem id_objectOf (model : String) (spec : ContextLengthSpec) :
    (objectOf model spec).id = model := by
  cases spec <;> rfl

theorem nCtx_objectOf (model : String) (spec : ContextLengthSpec) :
    (objectOf model spec).modelMeta.map ModelMeta.nCtx = spec.nCtx := by
  cases spec with
  | none => rfl
  | static n => rfl
  | upstream backendId backendModel n => cases n <;> rfl

/-- A model that the client may use, if there is one of the name. -/
def available (config : Config) (cache : ContextSizeCache) (identity : Identity) (model : String) :
    Option ContextLengthSpec :=
  if model ∈ identity.models then
    OrdMap.get model (config.publicModelContextLengthsWithCache cache)
  else none

theorem available_isSome {model : String} : (available config cache identity model).isSome = true ↔
    model ∈ identity.models ∧ publicRoute config.routes model ≠ none := by
  unfold available Config.publicModelContextLengthsWithCache
  rw [get_publicModelsBy]
  split_ifs with h
  · cases publicRoute config.routes model <;> simp [h]
  · simp [h]

include hauth

theorem model_eq (model : String) : App.model config cache headers model =
    (available config cache identity model).elim (.error (.modelNotFound model))
      fun spec => .ok (objectOf model spec) := by
  unfold App.model authedHandler available
  rw [hauth]
  by_cases h : model ∈ identity.models
  · rw [if_pos h]
    dsimp only
    rw [if_neg (not_not_intro h)]
    cases OrdMap.get model (config.publicModelContextLengthsWithCache cache) with
    | none => rfl
    | some spec => cases spec <;> rfl
  · rw [if_neg h]
    dsimp only
    rw [if_pos h]
    rfl

theorem props_eq {f : Form} {query : Option String} {model : String}
    (hquery : queryModel f query = some model) : props f config cache headers query =
    (available config cache identity model).elim (.error (.modelNotFound model))
      fun spec => .ok
        { role := some "router", modelAlias := some model, nCtx := spec.nCtx.getD 0 } := by
  unfold props authedHandler available
  rw [hauth, hquery]
  by_cases h : model ∈ identity.models
  · rw [if_pos h]
    dsimp only
    rw [if_neg (not_not_intro h)]
    cases OrdMap.get model (config.publicModelContextLengthsWithCache cache) with
    | none => rfl
    | some spec => cases spec <;> rfl
  · rw [if_neg h]
    dsimp only
    rw [if_pos h]
    rfl

variable (cache) in
/-- **The listing** has the models that are available, by their names. -/
theorem exists_listing : ∃ listing, models config cache headers = .ok listing ∧
    listing.data.Pairwise (fun a b => a.id < b.id) ∧
    ∀ model object, object ∈ listing.data ∧ object.id = model ↔
      ∃ spec, available config cache identity model = some spec ∧ object = objectOf model spec := by
  set data := identity.models.sort.filterMap fun model =>
    (OrdMap.get model (config.publicModelContextLengthsWithCache cache)).map (objectOf model)
    with hdata
  have hmodels : models config cache headers = .ok (modelsResponse data) := by
    unfold models authedHandler
    rw [hauth]
    dsimp only
    congr 4
    funext model
    congr 1
    funext spec
    cases spec with
    | none => rfl
    | static n => rfl
    | upstream backendId backendModel n => cases n <;> rfl
  have hsorted : data.Pairwise fun a b => a.id < b.id := by
    refine List.Pairwise.filterMap _ ?_ identity.models.sortedLT_sort.pairwise
    intro a b hab x hx y hy
    obtain ⟨spec, -, rfl⟩ := Option.map_eq_some_iff.mp hx
    obtain ⟨spec', -, rfl⟩ := Option.map_eq_some_iff.mp hy
    rwa [id_objectOf, id_objectOf]
  have hle : data.Pairwise fun a b => decide (a.id ≤ b.id) = true :=
    hsorted.imp fun hab => decide_eq_true hab.le
  refine ⟨modelsResponse data, hmodels, ?_, fun model object => ?_⟩
  · rw [modelsResponse, List.mergeSort_of_pairwise hle]
    exact hsorted
  · rw [modelsResponse, List.mergeSort_of_pairwise hle, hdata, List.mem_filterMap]
    constructor
    · rintro ⟨⟨other, hother, hobject⟩, hid⟩
      obtain ⟨spec, hspec, rfl⟩ := Option.map_eq_some_iff.mp hobject
      obtain rfl : other = model := (id_objectOf other spec).symm.trans hid
      refine ⟨spec, ?_, rfl⟩
      rw [available, if_pos ((Finset.mem_sort _).mp hother)]
      exact hspec
    · rintro ⟨spec, hspec, rfl⟩
      refine ⟨⟨model, ?_, ?_⟩, id_objectOf model spec⟩
      · exact (Finset.mem_sort _).mpr (available_isSome.mp (Option.isSome_of_eq_some hspec)).1
      · unfold available at hspec
        split_ifs at hspec
        rw [hspec]
        rfl

/-- A request that names a model passes if its client may use the model. -/
theorem preflight_of_model {c : Codec} {f : Form} {request : ProxyRequest} {model : String}
    (hheaders : request.headers = headers) (hmodel : (request.shape c f).model = some model)
    (hpath : trimEndSlashes request.path ≠ "/v1/messages/count_tokens") :
    preflight c f config.clients request =
      if model ∈ identity.models then
        .ok { path := request.path
              model := some model
              stream := (request.shape c f).stream
              tools := (request.shape c f).hasTools
              stickyKey := stickyRoutingKey identity.id request.path (some model)
                (request.shape c f).promptCacheKey }
      else .error (.modelNotFound model) := by
  unfold preflight
  rw [if_neg hpath, hheaders, hauth]
  dsimp only
  rw [hmodel, if_neg (by simp)]
  by_cases h : model ∈ identity.models
  · rw [if_pos h, Option.filter_some_neg (by simpa using h)]
  · rw [if_neg h, Option.filter_some_pos (by simpa using h)]

/-- **A request is refused for its model** exactly if the model is not available. -/
theorem selectRoutes_not_found_iff {c : Codec} {f : Form} {request : ProxyRequest} {model : String}
    (hheaders : request.headers = headers) (hmodel : (request.shape c f).model = some model)
    (hpath : trimEndSlashes request.path ≠ "/v1/messages/count_tokens") (random : ℕ)
    (counters : RoundRobinCounters) :
    (∃ error counters', selectRoutes c f config request random counters =
        some (.error error, counters') ∧ error.code = some "model_not_found") ↔
      available config cache identity model = none := by
  have hnone : available config cache identity model = none ↔
      model ∈ identity.models → publicRoute config.routes model = none := by
    rw [← Option.not_isSome_iff_eq_none, available_isSome]
    simp only [not_and, ne_eq, not_not]
  rw [hnone]
  unfold selectRoutes
  rw [preflight_of_model hauth hheaders hmodel hpath]
  by_cases h : model ∈ identity.models
  · rw [if_pos h]
    dsimp only
    rw [forall_prop_of_true h]
    constructor
    · rintro ⟨error, counters', hselect, hcode⟩
      obtain hlist | ⟨flag, rfl⟩ := selectBackendCandidates_error hselect
      · cases hroute : publicRoute config.routes model with
        | none => rfl
        | some route =>
          simp only [listCandidates, hroute] at hlist
          cases hlist
      · exact absurd hcode (code_noCandidateError _ _)
    · intro hroute
      refine ⟨.modelNotFound model, counters, ?_, rfl⟩
      rw [selectBackendCandidates, listCandidates]
      dsimp only
      rw [hroute]
  · rw [if_neg h]
    exact iff_of_true ⟨_, _, rfl, rfl⟩ fun hmem => absurd hmem h

end

end App

/-- **What a client is told of the models is what it gets**: a model that is listed is found, is
described with the length of the listing, and is not refused; and any other is refused everywhere
as unknown. -/
theorem models_agree {config : Config} {headers : HeaderMap} {identity : Identity}
    (hauth : authenticate headers config.clients = .ok identity) (cache : ContextSizeCache) :
    ∃ listing, App.models config cache headers = .ok listing ∧
      listing.data.Pairwise (fun a b => a.id < b.id) ∧
      ∀ model,
        ((∃ object ∈ listing.data, object.id = model) ↔
          model ∈ identity.models ∧ publicRoute config.routes model ≠ none) ∧
        (∀ object, App.model config cache headers model = .ok object ↔
          object ∈ listing.data ∧ object.id = model) ∧
        (∀ f query response, App.queryModel f query = some model →
          (App.props f config cache headers query = .ok response ↔
            ∃ object ∈ listing.data, object.id = model ∧ response =
              { role := some "router"
                modelAlias := some model
                nCtx := (object.modelMeta.map ModelMeta.nCtx).getD 0 })) ∧
        ((∀ object ∈ listing.data, object.id ≠ model) →
          App.model config cache headers model = .error (.modelNotFound model) ∧
          ∀ f query, App.queryModel f query = some model →
            App.props f config cache headers query = .error (.modelNotFound model)) ∧
        ∀ c f request random counters, request.headers = headers →
          (request.shape c f).model = some model →
          trimEndSlashes request.path ≠ "/v1/messages/count_tokens" →
          ((∃ error counters', App.selectRoutes c f config request random counters =
              some (.error error, counters') ∧ error.code = some "model_not_found") ↔
            ∀ object ∈ listing.data, object.id ≠ model) := by
  obtain ⟨listing, hlisting, hsorted, hmem⟩ := App.exists_listing cache hauth
  refine ⟨listing, hlisting, hsorted, fun model => ?_⟩
  have hlisted : (∃ object ∈ listing.data, object.id = model) ↔
      (App.available config cache identity model).isSome = true := by
    rw [Option.isSome_iff_exists]
    constructor
    · rintro ⟨object, hobject⟩
      obtain ⟨spec, hspec, -⟩ := (hmem model object).mp hobject
      exact ⟨spec, hspec⟩
    · rintro ⟨spec, hspec⟩
      exact ⟨_, (hmem model _).mpr ⟨spec, hspec, rfl⟩⟩
  have hunlisted : (∀ object ∈ listing.data, object.id ≠ model) ↔
      App.available config cache identity model = none := by
    rw [← Option.not_isSome_iff_eq_none, ← hlisted]
    simp
  refine ⟨hlisted.trans App.available_isSome, fun object => ?_, fun f query response hquery => ?_,
    fun hnone => ⟨?_, fun f query hquery => ?_⟩, ?_⟩
  · rw [App.model_eq hauth, hmem]
    cases App.available config cache identity model <;> simp [eq_comm]
  · rw [App.props_eq hauth hquery]
    constructor
    · intro h
      cases hspec : App.available config cache identity model with
      | none =>
        rw [hspec] at h
        cases h
      | some spec =>
        rw [hspec] at h
        refine ⟨App.objectOf model spec, ((hmem model _).mpr ⟨spec, hspec, rfl⟩).1,
          App.id_objectOf model spec, ?_⟩
        rw [App.nCtx_objectOf]
        exact (Except.ok.inj h).symm
    · rintro ⟨object, hobject, hid, rfl⟩
      obtain ⟨spec, hspec, rfl⟩ := (hmem model object).mp ⟨hobject, hid⟩
      rw [hspec, App.nCtx_objectOf]
      rfl
  · rw [App.model_eq hauth, hunlisted.mp hnone]
    rfl
  · rw [App.props_eq hauth hquery, hunlisted.mp hnone]
    rfl
  · intro c f request random counters hheaders hmodel hpath
    rw [hunlisted]
    exact App.selectRoutes_not_found_iff hauth hheaders hmodel hpath random counters

/-- A client with two models, of which one has no route. -/
def sampleShared : Config :=
  { Refresh.samplePair with
    clients := [{ id := "guest", apiKey := "key", models := {"small", "gone"} }] }

/-- The headers of the client. -/
def sampleHeaders : HeaderMap := [("authorization", asBytes "Bearer key")]

theorem models_agree_shared : ∃ listing,
    App.models sampleShared [] sampleHeaders = .ok listing ∧
      (∃ object ∈ listing.data, object.id = "small") ∧
      ¬∃ object ∈ listing.data, object.id = "gone" := by
  have hauth : authenticate sampleHeaders sampleShared.clients =
      .ok { id := "guest", models := {"small", "gone"} } := by decide +kernel
  obtain ⟨listing, hlisting, -, hmodels⟩ := models_agree hauth []
  refine ⟨listing, hlisting, (hmodels "small").1.mpr (by decide +kernel), fun hgone => ?_⟩
  exact absurd ((hmodels "gone").1.mp hgone) (by decide +kernel)

/-! ### What the operator sees -/

/-- A binding of a route. -/
structure RouteBindingSnapshot where
  backend : String
  backendModel : String
  deriving DecidableEq, Repr

/-- A public model, with its clients and its backends. -/
structure PublicModelSnapshot where
  publicModel : String
  contextLength : Option ℕ
  contextLengthSource : String
  contextLengthLastFetchUnixMs : Option ℕ
  clients : List String := []
  routes : List RouteBindingSnapshot := []
  deriving DecidableEq, Repr

/-- A client, with its models by their names. -/
structure ClientSnapshot where
  id : String
  models : List String
  deriving DecidableEq, Repr

/-- The models and the clients. -/
structure OperatorModelsSnapshot where
  publicModels : List PublicModelSnapshot
  clients : List ClientSnapshot
  deriving DecidableEq, Repr

/-- The clients. -/
def clientsSnapshot (clients : List ResolvedClient) : List ClientSnapshot :=
  clients.map fun client => ⟨client.id, client.models.sort⟩

/-- A model that has no clients and no backends yet. -/
def publicModelSnapshot (cache : ContextSizeCache) (model : String) :
    ContextLengthSpec → PublicModelSnapshot
  | .none => ⟨model, none, "none", none, [], []⟩
  | .static nCtx => ⟨model, some nCtx, "static", none, [], []⟩
  | .upstream _ _ nCtx => ⟨model, nCtx, "upstream",
      (cache.entry model).bind ContextSizeEntry.lastSuccessUnixMs, [], []⟩

/-- Add a client to a model. -/
def PublicModelSnapshot.addClient (id : String) (snapshot : PublicModelSnapshot) :
    PublicModelSnapshot :=
  { snapshot with clients := snapshot.clients ++ [id] }

/-- Add the bindings of a route to a model. -/
def PublicModelSnapshot.addRoute (route : ResolvedRoute) (snapshot : PublicModelSnapshot) :
    PublicModelSnapshot :=
  { snapshot with routes := snapshot.routes ++
      route.backends.map fun binding => ⟨binding.backendId, binding.backendModel⟩ }

/-- The models, without clients and backends. -/
def bareModels (config : Config) (cache : ContextSizeCache) :
    List (String × PublicModelSnapshot) :=
  (config.publicModelContextLengthsWithCache cache).foldl
    (fun models e => OrdMap.insert e.1 (publicModelSnapshot cache e.1 e.2) models) []

/-- Add the clients to their models. -/
def addClients (clients : List ResolvedClient) (models : List (String × PublicModelSnapshot)) :
    List (String × PublicModelSnapshot) :=
  clients.foldl (fun models client =>
    client.models.sort.foldl (fun models model =>
      OrdMap.modify model (PublicModelSnapshot.addClient client.id) models) models) models

/-- Add the bindings of the routes to their models. -/
def addRoutes (routes : List ResolvedRoute) (models : List (String × PublicModelSnapshot)) :
    List (String × PublicModelSnapshot) :=
  routes.foldl (fun models route =>
    match route.key with
    | .publicModel model => OrdMap.modify model (PublicModelSnapshot.addRoute route) models
    | .path _ => models) models

/-- **The models as the operator sees them.** -/
def modelsSnapshot (config : Config) (cache : ContextSizeCache) : OperatorModelsSnapshot where
  publicModels := (addRoutes config.routes (addClients config.clients
    (bareModels config cache))).map Prod.snd
  clients := clientsSnapshot config.clients

theorem sorted_bare (config : Config) (cache : ContextSizeCache) :
    OrdMap.Sorted ((config.publicModelContextLengthsWithCache cache).map fun e =>
      (e.1, publicModelSnapshot cache e.1 e.2)) :=
  OrdMap.sorted_map (sorted_publicModelsBy _ _) (publicModelSnapshot cache)

theorem bareModels_eq (config : Config) (cache : ContextSizeCache) : bareModels config cache =
    (config.publicModelContextLengthsWithCache cache).map fun e =>
      (e.1, publicModelSnapshot cache e.1 e.2) := by
  have h := OrdMap.ofList_of_sorted (sorted_bare config cache)
  rwa [OrdMap.ofList, List.foldl_map] at h

theorem get_bareModels (config : Config) (cache : ContextSizeCache) (model : String) :
    OrdMap.get model (bareModels config cache) =
      (OrdMap.get model (config.publicModelContextLengthsWithCache cache)).map
        (publicModelSnapshot cache model) := by
  rw [bareModels_eq, OrdMap.get_map model (publicModelSnapshot cache)]

theorem get_addClients (clients : List ResolvedClient)
    (models : List (String × PublicModelSnapshot)) (model : String) :
    OrdMap.get model (addClients clients models) = (OrdMap.get model models).map fun snapshot =>
      { snapshot with clients := snapshot.clients ++
          (clients.filter fun client => model ∈ client.models).map ResolvedClient.id } := by
  induction clients generalizing models with
  | nil => simp [addClients]
  | cons client clients ih =>
    rw [addClients, List.foldl_cons, ← addClients, ih,
      OrdMap.get_foldl_modify _ _ (Finset.sort_nodup _ _), Option.map_map]
    congr 1
    funext snapshot
    by_cases h : model ∈ client.models
    · simp [h, PublicModelSnapshot.addClient]
    · simp [h]

theorem get_addRoutes (routes : List ResolvedRoute) (models : List (String × PublicModelSnapshot))
    (model : String) :
    OrdMap.get model (addRoutes routes models) = (OrdMap.get model models).map fun snapshot =>
      { snapshot with routes := snapshot.routes ++
          (routes.filter fun route => route.key = .publicModel model).flatMap fun route =>
            route.backends.map fun binding => ⟨binding.backendId, binding.backendModel⟩ } := by
  induction routes generalizing models with
  | nil => simp [addRoutes]
  | cons route routes ih =>
    rw [addRoutes, List.foldl_cons, ← addRoutes, ih]
    cases hkey : route.key with
    | path path => simp [hkey]
    | publicModel other =>
      dsimp only
      rw [OrdMap.get_modify, Option.map_map]
      congr 1
      funext snapshot
      by_cases h : model = other
      · simp [h, hkey, PublicModelSnapshot.addRoute]
      · simp [h, hkey, Ne.symm h]

theorem sorted_addClients (clients : List ResolvedClient)
    {models : List (String × PublicModelSnapshot)} (h : OrdMap.Sorted models) :
    OrdMap.Sorted (addClients clients models) := by
  refine List.foldlRecOn clients _ (motive := OrdMap.Sorted) h fun models hmodels client _ => ?_
  refine List.foldlRecOn client.models.sort _ (motive := OrdMap.Sorted) hmodels ?_
  exact fun models hmodels model _ => OrdMap.sorted_modify hmodels _ _

theorem sorted_addRoutes (routes : List ResolvedRoute)
    {models : List (String × PublicModelSnapshot)} (h : OrdMap.Sorted models) :
    OrdMap.Sorted (addRoutes routes models) := by
  refine List.foldlRecOn routes _ (motive := OrdMap.Sorted) h fun models hmodels route _ => ?_
  cases route.key with
  | publicModel model => exact OrdMap.sorted_modify hmodels _ _
  | path path => exact hmodels

/-- The bindings of a model. -/
def bindingsOf (routes : List ResolvedRoute) (model : String) : List RouteBindingSnapshot :=
  (routes.filter fun route => route.key = .publicModel model).flatMap fun route =>
    route.backends.map fun binding => ⟨binding.backendId, binding.backendModel⟩

/-- What the operator sees of a model. -/
def operatorView (config : Config) (cache : ContextSizeCache) (model : String)
    (route : ResolvedRoute) : PublicModelSnapshot :=
  { publicModelSnapshot cache model
      (route.contextLength.resolved ((cache.lookup model).map UInt64.toNat)) with
    clients := (config.clients.filter fun client => model ∈ client.models).map ResolvedClient.id
    routes := bindingsOf config.routes model }

theorem publicModel_publicModelSnapshot (cache : ContextSizeCache) (model : String)
    (spec : ContextLengthSpec) : (publicModelSnapshot cache model spec).publicModel = model := by
  cases spec <;> rfl

theorem contextLength_publicModelSnapshot (cache : ContextSizeCache) (model : String)
    (spec : ContextLengthSpec) :
    (publicModelSnapshot cache model spec).contextLength = spec.nCtx := by
  cases spec <;> rfl

theorem clients_publicModelSnapshot (cache : ContextSizeCache) (model : String)
    (spec : ContextLengthSpec) : (publicModelSnapshot cache model spec).clients = [] := by
  cases spec <;> rfl

theorem routes_publicModelSnapshot (cache : ContextSizeCache) (model : String)
    (spec : ContextLengthSpec) : (publicModelSnapshot cache model spec).routes = [] := by
  cases spec <;> rfl

/-- The operator sees the models that have a route, by their names. -/
theorem modelsSnapshot_spec (config : Config) (cache : ContextSizeCache) :
    (modelsSnapshot config cache).publicModels.Pairwise
      (fun a b => a.publicModel < b.publicModel) ∧
    ∀ model snapshot, snapshot ∈ (modelsSnapshot config cache).publicModels ∧
        snapshot.publicModel = model ↔
      ∃ route, publicRoute config.routes model = some route ∧
        snapshot = operatorView config cache model route := by
  set models := addRoutes config.routes (addClients config.clients (bareModels config cache))
    with hmodels
  have hsorted : OrdMap.Sorted models := by
    refine sorted_addRoutes _ (sorted_addClients _ ?_)
    rw [bareModels_eq]
    exact sorted_bare config cache
  have hget : ∀ model, OrdMap.get model models =
      (publicRoute config.routes model).map (operatorView config cache model) := by
    intro model
    rw [hmodels, get_addRoutes, get_addClients, get_bareModels,
      Config.publicModelContextLengthsWithCache, get_publicModelsBy, Option.map_map,
      Option.map_map, Option.map_map]
    congr 1
    funext route
    simp only [Function.comp_apply, operatorView, bindingsOf, clients_publicModelSnapshot,
      routes_publicModelSnapshot, List.nil_append]
  have hname : ∀ e ∈ models, e.2.publicModel = e.1 := by
    intro e he
    have h := (OrdMap.get_eq_some_iff hsorted).mpr he
    rw [hget] at h
    obtain ⟨route, -, hview⟩ := Option.map_eq_some_iff.mp h
    rw [← hview]
    exact publicModel_publicModelSnapshot _ _ _
  refine ⟨?_, fun model snapshot => ?_⟩
  · refine List.pairwise_map.mpr (hsorted.imp_of_mem fun ha hb hab => ?_)
    rwa [hname _ ha, hname _ hb]
  · have hmem : snapshot ∈ (modelsSnapshot config cache).publicModels ∧
        snapshot.publicModel = model ↔ (model, snapshot) ∈ models := by
      constructor
      · rintro ⟨hs, rfl⟩
        obtain ⟨e, he, rfl⟩ := List.mem_map.mp hs
        rwa [hname e he]
      · intro he
        exact ⟨List.mem_map_of_mem (f := Prod.snd) he, hname _ he⟩
    rw [hmem, ← OrdMap.get_eq_some_iff hsorted, hget, Option.map_eq_some_iff]
    exact exists_congr fun route => and_congr_right fun _ => eq_comm

/-- The operator sees as many models as the configuration has. -/
theorem length_publicModels (config : Config) (cache : ContextSizeCache) :
    (modelsSnapshot config cache).publicModels.length =
      config.publicModelContextLengths.length := by
  obtain ⟨hpairwise, hsnapshot⟩ := modelsSnapshot_spec config cache
  have hsorted : OrdMap.Sorted config.publicModelContextLengths := sorted_publicModelsBy _ _
  have hperm : ((modelsSnapshot config cache).publicModels.map
      PublicModelSnapshot.publicModel).Perm (config.publicModelContextLengths.map Prod.fst) := by
    refine (List.perm_ext_iff_of_nodup ?_ ?_).mpr fun model => ?_
    · exact (List.pairwise_map.mpr hpairwise).imp ne_of_lt
    · exact (List.pairwise_map.mpr hsorted).imp ne_of_lt
    · have hpage : model ∈ (modelsSnapshot config cache).publicModels.map
          PublicModelSnapshot.publicModel ↔
            ∃ route, publicRoute config.routes model = some route := by
        rw [List.mem_map]
        constructor
        · rintro ⟨snapshot, hs⟩
          exact ((hsnapshot model snapshot).mp hs).imp fun _ => And.left
        · rintro ⟨route, hroute⟩
          exact ⟨_, (hsnapshot model _).mpr ⟨route, hroute, rfl⟩⟩
      rw [hpage, List.mem_map]
      constructor
      · rintro ⟨route, hroute⟩
        have hget : OrdMap.get model config.publicModelContextLengths =
            some (route.contextLength.resolved none) := by
          rw [Config.publicModelContextLengths, get_publicModelsBy, hroute]
          rfl
        exact ⟨_, (OrdMap.get_eq_some_iff hsorted).mp hget, rfl⟩
      · rintro ⟨e, he, rfl⟩
        have hget := (OrdMap.get_eq_some_iff hsorted).mpr he
        rw [Config.publicModelContextLengths, get_publicModelsBy] at hget
        exact (Option.map_eq_some_iff.mp hget).imp fun _ => And.left
  have hlength := hperm.length_eq
  rwa [List.length_map, List.length_map] at hlength

theorem binding_of_selected {config : Config} (hc : Accepted config)
    {request : BackendSelectionRequest} {model : String} (hmodel : request.model = some model)
    {random : ℕ} {counters counters' : RoundRobinCounters} {selected : List SelectedRoute}
    (h : selectBackendCandidates config.backends config.routes config.routing.strategy request
      random counters = some (.ok selected, counters')) {c : SelectedRoute} (hcand : c ∈ selected) :
    ∃ binding ∈ bindingsOf config.routes model,
      c.backendId = binding.backend ∧ c.backendModel = some binding.backendModel := by
  obtain ⟨selected', counters'', hselect, -, hrot⟩ | ⟨error, hselect, -⟩ :=
    selectBackendCandidates_spec config.routes config.routing.strategy request random counters
      hc.weights
  · rw [h] at hselect
    obtain ⟨hselect, -⟩ := Prod.mk.inj (Option.some.inj hselect)
    obtain rfl := Except.ok.inj hselect
    have hmem : c ∈ eligibleCandidates config.backends config.routes request :=
      hrot.mem_iff.mpr hcand
    unfold eligibleCandidates at hmem
    rw [hmodel] at hmem
    dsimp only at hmem
    cases hroute : publicRoute config.routes model with
    | none => simp [hroute] at hmem
    | some route =>
      rw [hroute] at hmem
      obtain ⟨binding, hbinding, hoffer⟩ := List.mem_filterMap.mp hmem
      obtain ⟨backend, hbackend, hoffer⟩ := Option.bind_eq_some_iff.mp hoffer
      have hid : backend.id = binding.backendId := by simpa using List.find?_some hbackend
      unfold offer at hoffer
      split_ifs at hoffer
      obtain ⟨mode, -, rfl⟩ := Option.map_eq_some_iff.mp hoffer
      refine ⟨⟨binding.backendId, binding.backendModel⟩, ?_, hid, rfl⟩
      refine List.mem_flatMap.mpr ⟨route, ?_, List.mem_map_of_mem hbinding⟩
      refine List.mem_filter.mpr ⟨List.mem_of_find?_eq_some hroute, ?_⟩
      simpa using List.find?_some hroute
  · rw [h] at hselect
    cases hselect

/-- **The operator sees what the clients see**: a model is listed for a client exactly if the
operator sees the client among those of the model, with the same length; and requests to the model
are sent to the backends that the operator sees. -/
theorem operator_models_agree {host : Host} {file : ConfigFile} {config : Config}
    (h : Config.resolve host file = .ok config) {headers : HeaderMap} {identity : Identity}
    (hauth : authenticate headers config.clients = .ok identity) (cache : ContextSizeCache) :
    ∃ listing, App.models config cache headers = .ok listing ∧
      (modelsSnapshot config cache).publicModels.Pairwise
        (fun a b => a.publicModel < b.publicModel) ∧
      (modelsSnapshot config cache).publicModels.length =
        config.publicModelContextLengths.length ∧
      ∀ model,
        ((∃ object ∈ listing.data, object.id = model) ↔
          ∃ snapshot ∈ (modelsSnapshot config cache).publicModels,
            snapshot.publicModel = model ∧ identity.id ∈ snapshot.clients) ∧
        ∀ snapshot ∈ (modelsSnapshot config cache).publicModels, snapshot.publicModel = model →
          (∀ object ∈ listing.data, object.id = model →
            object.modelMeta.map ModelMeta.nCtx = snapshot.contextLength) ∧
          ∀ request random counters selected counters', request.model = some model →
            selectBackendCandidates config.backends config.routes config.routing.strategy request
              random counters = some (.ok selected, counters') →
            ∀ c ∈ selected, ∃ binding ∈ snapshot.routes,
              c.backendId = binding.backend ∧ c.backendModel = some binding.backendModel := by
  obtain ⟨hc, -⟩ := accepted_of_resolve h
  obtain ⟨listing, hlisting, -, hmem⟩ := App.exists_listing cache hauth
  obtain ⟨hsorted, hsnapshot⟩ := modelsSnapshot_spec config cache
  obtain ⟨token, -, client, hfind, rfl⟩ := authenticate_iff.mp hauth
  have hclient : client ∈ config.clients := List.mem_of_find?_eq_some hfind
  -- the names of clients are different
  have hseen : ∀ model route, client.id ∈ (operatorView config cache model route).clients ↔
      model ∈ client.models := by
    intro model route
    constructor
    · intro hid
      obtain ⟨other, hother, hid⟩ := List.mem_map.mp hid
      obtain ⟨hother, hmodel⟩ := List.mem_filter.mp hother
      obtain rfl := List.inj_on_of_nodup_map hc.client_ids hother hclient hid
      exact of_decide_eq_true hmodel
    · intro hmodel
      exact List.mem_map_of_mem (List.mem_filter.mpr ⟨hclient, decide_eq_true hmodel⟩)
  refine ⟨listing, hlisting, hsorted, length_publicModels config cache,
    fun model => ⟨?_, fun snapshot hs hname => ⟨?_, ?_⟩⟩⟩
  · constructor
    · rintro ⟨object, hobject⟩
      obtain ⟨spec, hspec, -⟩ := (hmem model object).mp hobject
      obtain ⟨hmodel, hroute⟩ := App.available_isSome.mp (Option.isSome_of_eq_some hspec)
      obtain ⟨route, hroute⟩ := Option.ne_none_iff_exists'.mp hroute
      obtain ⟨hs, hname⟩ := (hsnapshot model _).mpr ⟨route, hroute, rfl⟩
      exact ⟨_, hs, hname, (hseen model route).mpr hmodel⟩
    · rintro ⟨snapshot, hs, hname, hid⟩
      obtain ⟨route, hroute, rfl⟩ := (hsnapshot model snapshot).mp ⟨hs, hname⟩
      have havailable : (App.available config cache client.identity model).isSome = true :=
        App.available_isSome.mpr ⟨(hseen model route).mp hid, by simp [hroute]⟩
      obtain ⟨spec, hspec⟩ := Option.isSome_iff_exists.mp havailable
      exact ⟨_, (hmem model _).mpr ⟨spec, hspec, rfl⟩⟩
  · intro object hobject hid
    obtain ⟨route, hroute, rfl⟩ := (hsnapshot model snapshot).mp ⟨hs, hname⟩
    obtain ⟨spec, hspec, rfl⟩ := (hmem model object).mp ⟨hobject, hid⟩
    rw [App.nCtx_objectOf]
    unfold App.available Config.publicModelContextLengthsWithCache at hspec
    split_ifs at hspec
    rw [get_publicModelsBy, hroute] at hspec
    rw [← Option.some.inj hspec]
    exact (contextLength_publicModelSnapshot _ _ _).symm
  · intro request random counters selected counters' hmodel hselect c hcand
    obtain ⟨route, -, rfl⟩ := (hsnapshot model snapshot).mp ⟨hs, hname⟩
    exact binding_of_selected hc hmodel hselect hcand

/-- The operator sees which model of two a client has. -/
theorem operator_models_agree_sample : ∃ config listing,
    Config.resolve sampleHost sharedFile = .ok config ∧
      App.models config [] sampleHeaders = .ok listing ∧
      ((∃ object ∈ listing.data, object.id = "gpt") ↔
        ∃ snapshot ∈ (modelsSnapshot config []).publicModels,
          snapshot.publicModel = "gpt" ∧ "guest" ∈ snapshot.clients) ∧
      ((∃ object ∈ listing.data, object.id = "whisper") ↔
        ∃ snapshot ∈ (modelsSnapshot config []).publicModels,
          snapshot.publicModel = "whisper" ∧ "guest" ∈ snapshot.clients) := by
  obtain ⟨config, hresolve, hclients⟩ := resolve_sharedFile
  have hauth : authenticate sampleHeaders config.clients = .ok ⟨"guest", {"gpt"}⟩ := by
    rw [hclients]
    decide +kernel
  obtain ⟨listing, hlisting, -, -, hmodels⟩ := operator_models_agree hresolve hauth []
  exact ⟨config, listing, hresolve, hlisting, (hmodels "gpt").1, (hmodels "whisper").1⟩

end Onair
