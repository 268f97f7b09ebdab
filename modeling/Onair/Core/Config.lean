import Mathlib.Data.Finset.Max
import Onair.Core.Auth
import Onair.Core.Paths
import Onair.Lib.Distinct
import Onair.Request.Rewrite

/-!
# Loading the configuration

`Config.resolve` checks a configuration file and resolves its defaults. What it asks of the world
around it is in `Host`: environment variables, the URL parser and the syntax of HTTP headers.

* `validateTopLevel`, `resolveClients`, `resolveBackends`, `resolveRoutes`,
  `validateAllowedRoutes`: the validators, in the order they run;
* `Config.resolve`: the configuration, or the first error.
-/

namespace Onair

open Text

/-! ### The file -/

/-- How the schemas of tools are sent. -/
inductive ToolSchemaMode where
  | preserve
  | llamacppCompat
  deriving DecidableEq, Repr

/-- How the backends of a request are ordered. -/
inductive RoutingStrategy where
  | priority
  | sticky
  | roundRobin
  | weightedRandom
  deriving DecidableEq, Repr

/-- What becomes of a marker that is not known. -/
inductive UnknownMarkerPolicy where
  | warn
  | error
  deriving DecidableEq, Repr

/-- Which requests are captured. -/
inductive DebugCaptureMode where
  | all
  | failures
  deriving DecidableEq, Repr

/-- The section `[debug_capture]`. -/
structure DebugCaptureConfig where
  enabled : Bool := false
  mode : DebugCaptureMode := .all
  directory : String := "onair-debug-captures"
  deriving DecidableEq, Repr

/-- The section `[inspector.persistence]`. -/
structure InspectorPersistenceConfig where
  enabled : Bool := false
  path : Option String := none
  drainTimeoutMs : ℕ := 500
  deriving DecidableEq, Repr

/-- The section `[inspector]`. -/
structure InspectorConfig where
  enabled : Bool := false
  retentionRequests : ℕ := 10000
  allowRemote : Bool := false
  persistence : InspectorPersistenceConfig := {}
  deriving DecidableEq, Repr

/-- The section `[health]`. -/
structure HealthConfig where
  active : Bool := false
  intervalMs : ℕ := 30000
  timeoutMs : ℕ := 2000
  path : String := "/v1/models"
  deriving DecidableEq, Repr

/-- The section `[routing]`. -/
structure RoutingConfig where
  strategy : RoutingStrategy := .priority
  fallbackAttempts : ℕ := 1
  unknownCapabilityPolicy : UnknownMarkerPolicy := .warn
  unknownEndpointPolicy : UnknownMarkerPolicy := .warn
  deriving DecidableEq, Repr

/-- A `[[client]]`. -/
structure ClientConfig where
  id : String
  apiKey : Option String := none
  apiKeyEnv : Option String := none
  models : List String := []
  deriving DecidableEq, Repr

/-- The four policies of a route or a backend. -/
structure RoutePolicies where
  toolSchemaMode : ToolSchemaMode := .preserve
  responsesStore : ResponsesStorePolicy := .preserve
  responsesMaxOutputTokens : ResponsesMaxOutputTokensPolicy := .preserve
  chatStreamUsage : ChatStreamUsagePolicy := .preserve
  deriving DecidableEq, Repr

/-- A `[[backend]]`. -/
structure BackendConfig where
  id : String := ""
  baseUrl : String := ""
  apiKey : Option String := none
  apiKeyEnv : Option String := none
  timeoutMs : ℕ := 120000
  policies : RoutePolicies := {}
  supports : Finset String := ∅
  weight : UInt32 := 1
  extraBody : List (String × Toml) := []
  exposeBackendErrors : Bool := false
  streamCapture : Bool := false

/-- What the context length of a route is. -/
inductive ContextLengthConfig where
  | value (n : ℕ)
  | none
  | upstream
  deriving DecidableEq, Repr

/-- A `[[route]]`. -/
structure RouteConfig where
  publicModel : Option String := none
  path : Option String := none
  expose : Finset String := ∅
  backends : List String := []
  contextLength : ContextLengthConfig := .none
  toolSchemaMode : Option ToolSchemaMode := none
  responsesStore : Option ResponsesStorePolicy := none
  responsesMaxOutputTokens : Option ResponsesMaxOutputTokensPolicy := none
  chatStreamUsage : Option ChatStreamUsagePolicy := none
  extraBody : List (String × Toml) := []
  exposeBackendErrors : Option Bool := none
  streamCapture : Option Bool := none
  requestHeaders : List (String × String) := []
  anthropicMaxTokens : Option ℕ := none

/-- The configuration file, as far as it is checked or used for routing. -/
structure ConfigFile where
  debugCapture : DebugCaptureConfig := {}
  inspector : InspectorConfig := {}
  health : HealthConfig := {}
  routing : RoutingConfig := {}
  defaultModels : List String := []
  clients : List ClientConfig := []
  backends : List BackendConfig := []
  routes : List RouteConfig := []

/-! ### What it is resolved to -/

/-- A route is for a public model or for a path. -/
inductive RouteKey where
  | publicModel (model : String)
  | path (path : String)
  deriving DecidableEq, Repr

/-- The key a route declares, if it declares exactly one. -/
def RouteConfig.routeKey (route : RouteConfig) : Option RouteKey :=
  match route.publicModel, route.path with
  | some model, none => some (.publicModel model)
  | none, some path => some (.path path)
  | _, _ => none

/-- A backend of the configuration. -/
structure ResolvedBackend where
  id : String
  baseUrl : String := ""
  apiKey : Option String := none
  timeoutMs : ℕ := 0
  supports : Finset String := ∅
  policies : RoutePolicies := {}
  weight : UInt32 := 0
  extraBody : List (String × Toml) := []
  exposeBackendErrors : Bool := false
  streamCapture : Bool := false

/-- A backend of a route, and the model it is asked for. -/
structure RouteBackendBinding where
  backendId : String
  backendModel : String
  deriving DecidableEq, Repr

/-- The context length of a route. -/
inductive ContextLengthSpec where
  | none
  | static (nCtx : ℕ)
  | upstream (backendId backendModel : String) (nCtx : Option ℕ)
  deriving DecidableEq, Repr

/-- A route of the configuration. -/
structure ResolvedRoute where
  key : RouteKey
  expose : Finset String := ∅
  contextLength : ContextLengthSpec := .none
  policies : RoutePolicies := {}
  backends : List RouteBackendBinding := []
  extraBody : List (String × Toml) := []
  exposeBackendErrors : Bool := false
  streamCapture : Bool := false
  requestHeaders : List (String × String) := []
  anthropicMaxTokens : Option ℕ := none

/-- The configuration, as far as routing uses it. -/
structure Config where
  routing : RoutingConfig
  inspector : InspectorConfig
  clients : List ResolvedClient
  backends : List ResolvedBackend
  routes : List ResolvedRoute

/-! ### The world around -/

/-- A parsed URL, as far as it is looked at. -/
structure ParsedUrl where
  scheme : String
  hostStr : Option String
  username : String
  password : Option String
  query : Option String
  fragment : Option String
  deriving DecidableEq, Repr

/-- What loading a configuration asks of the world around it. -/
structure Host where
  /-- The value of an environment variable that is set to Unicode text. -/
  env : String → Option String
  parseUrl : String → Except String ParsedUrl
  isHeaderName : String → Bool
  isHeaderValue : String → Bool
  /-- The text of a declared key in an error message. -/
  debugOption : Option String → String

/-- Why a configuration is refused. -/
inductive ConfigError where
  | message (text : String)
  | missingEnv (name : String)
  deriving DecidableEq, Repr

/-- A check that refuses with a message. -/
def require (holds : Bool) (text : String) : Except ConfigError Unit :=
  if holds then .ok () else .error (.message text)

/-- The least text of a set, the first one a loop over the set comes to. -/
def firstOf (s : Finset String) : Option String := s.min

/-! ### The sections -/

/-- A component of a file path. -/
inductive PathComponent where
  | rootDir
  | curDir
  | parentDir
  | normal (name : String)
  deriving DecidableEq, Repr

/-- The components of a file path: repeated separators do not count, and `.` only at the front. -/
def pathComponents (path : String) : List PathComponent :=
  let pieces := (split '/' path).filter fun piece => !piece.isEmpty
  let rest := fun (piece : String) =>
    if piece = "." then none
    else if piece = ".." then some PathComponent.parentDir
    else some (.normal piece)
  if path.toList.head? = some '/' then .rootDir :: pieces.filterMap rest
  else match pieces with
    | "." :: pieces => .curDir :: pieces.filterMap rest
    | pieces => pieces.filterMap rest

/-- The check of `[debug_capture]`. -/
def validateDebugCaptureConfig (config : DebugCaptureConfig) : Except ConfigError Unit := do
  if !config.enabled then return ()
  require (!config.directory.isEmpty)
    "debug_capture.directory must not be empty when debug capture is enabled"
  require (!(pathComponents config.directory).any (· == .parentDir))
    "debug_capture.directory must not contain '..' components"
  require ((pathComponents config.directory).any fun component =>
      match component with
      | .normal _ => true
      | _ => false)
    "debug_capture.directory must include a directory name"

/-- The check of `[inspector]`. -/
def validateInspectorConfig (config : InspectorConfig) : Except ConfigError Unit := do
  require (config.retentionRequests != 0) "inspector.retention_requests must be greater than zero"
  require (config.retentionRequests ≤ 1000000)
    "inspector.retention_requests must be at most 1000000"
  if config.persistence.enabled then
    match config.persistence.path with
    | none =>
      .error (.message "inspector.persistence.path is required when persistence is enabled")
    | some path => require (!path.isEmpty) "inspector.persistence.path must not be empty"
  require (config.persistence.drainTimeoutMs != 0)
    "inspector.persistence.drain_timeout_ms must be greater than zero"
  require (config.persistence.drainTimeoutMs ≤ 60000)
    "inspector.persistence.drain_timeout_ms must be at most 60000"

/-- The control characters of Unicode. -/
def isControl (c : Char) : Bool := c.toNat < 32 || (127 ≤ c.toNat && c.toNat < 160)

/-- The check of `[health]`. -/
def validateHealthConfig (config : HealthConfig) : Except ConfigError Unit := do
  require (config.intervalMs != 0) "health.interval_ms must be greater than zero"
  require (config.timeoutMs != 0) "health.timeout_ms must be greater than zero"
  require ("/".toList.isPrefixOf config.path.toList)
    "health.path must start with '/' and be relative to backend base_url"
  require (!("//".toList.isPrefixOf config.path.toList || contains config.path "://"))
    "health.path must be a relative path, not an absolute URL"
  require (!config.path.toList.any isControl) "health.path must not contain control characters"

/-- The check of `[routing]`. -/
def validateRoutingConfig (config : RoutingConfig) : Except ConfigError Unit :=
  require (config.fallbackAttempts ≤ 16) "routing.fallback_attempts must be at most 16"

/-- The checks of the sections. -/
def validateTopLevel (file : ConfigFile) : Except ConfigError Unit := do
  validateDebugCaptureConfig file.debugCapture
  validateInspectorConfig file.inspector
  validateHealthConfig file.health
  validateRoutingConfig file.routing

/-! ### Markers -/

/-- The markers the router understands. -/
def knownMarkers : List String :=
  ["all", "streaming", "chat", "chat_completions", "completions", "messages", "responses",
    "response", "tools", "tool_calls", "function_calling", "functions",
    "responses_via_chat_completions", "chat_completions_via_responses",
    "chat_completions_via_messages", "embeddings", "embedding", "images", "image", "audio",
    "files", "file", "models", "model", "batches", "batch", "fine_tuning", "assistants",
    "assistant", "threads", "thread", "vector_stores", "vector_store", "uploads", "upload"]

/-- The old name of a compatibility marker. -/
def chatViaMessagesAlias : String := "chat_via_messages"

/-- Replace the old name of a marker. -/
def canonicalizeMarkerSet (markers : Finset String) : Finset String :=
  if chatViaMessagesAlias ∈ markers then
    insert "chat_completions_via_messages" (markers.erase chatViaMessagesAlias)
  else markers

/-- Refuse unknown markers, if the policy says so. -/
def validateMarkers (values : Finset String) (policy : UnknownMarkerPolicy)
    (kind location : String) : Except ConfigError Unit :=
  match policy with
  | .warn => .ok ()
  | .error =>
    match firstOf (values.filter fun value =>
        !(knownMarkers.elem value || value == chatViaMessagesAlias)) with
    | none => .ok ()
    | some value => .error (.message (location ++ " " ++ kind ++ " '" ++ value ++
        "' is not a recognized marker; allowed: " ++ ", ".intercalate knownMarkers))

/-! ### Clients -/

section

variable (host : Host)

/-- A secret that must be there, from the file or from the environment. -/
def resolveSecret (apiKey apiKeyEnv : Option String) (label : String) :
    Except ConfigError String :=
  match apiKey, apiKeyEnv with
  | some _, some _ => .error (.message (label ++ " must use api_key or api_key_env, not both"))
  | some value, none =>
    if trim value ≠ "" then .ok value else .error (.message (label ++ " is required"))
  | none, some name =>
    if trim name ≠ "" then
      match host.env name with
      | some value => .ok value
      | none => .error (.missingEnv name)
    else .error (.message (label ++ " is required"))
  | none, none => .error (.message (label ++ " is required"))

/-- A secret that may be missing. -/
def resolveOptionalSecret (apiKey apiKeyEnv : Option String) :
    Except ConfigError (Option String) :=
  match apiKey, apiKeyEnv with
  | some _, some _ =>
    .error (.message "backend must use api_key or api_key_env, not both")
  | some value, none => if trim value ≠ "" then .ok (some value) else .ok none
  | none, some name =>
    if trim name ≠ "" then
      match host.env name with
      | some value => .ok (some value)
      | none => .error (.missingEnv name)
    else .ok none
  | none, none => .ok none

/-- The id of a client. -/
def requireClientId (client : ClientConfig) : Except ConfigError String :=
  if trim client.id = "" then .error (.message "client id must not be empty") else .ok client.id

/-- A client with its secret and its effective whitelist. -/
def resolveClient (defaultModels : List String) (client : ClientConfig) (id : String) :
    Except ConfigError ResolvedClient := do
  let apiKey ← resolveSecret host client.apiKey client.apiKeyEnv ("client '" ++ id ++ "' api key")
  return { id := id, apiKey := apiKey, models := (defaultModels ++ client.models).toFinset }

/-- The clients. -/
def resolveClients (clients : List ClientConfig) (defaultModels : List String) :
    Except ConfigError (List ResolvedClient) := do
  let resolved ← Distinct.convertDistinct requireClientId
    (fun _ id => .message ("duplicate client id '" ++ id ++ "'"))
    (resolveClient host defaultModels) ∅ clients
  require (!resolved.isEmpty) "at least one [[client]] is required"
  return resolved

/-! ### Backends -/

/-- The base URL of a backend, without white space and trailing slashes. -/
def normalizeBackendBaseUrl (baseUrl backendId : String) : Except ConfigError String := do
  let trimmed := trimEndSlashes (trim baseUrl)
  let label := "backend '" ++ backendId ++ "' base_url "
  require (!trimmed.isEmpty) (label ++ "must not be empty")
  match host.parseUrl trimmed with
  | .error source => .error (.message (label ++ "is invalid: " ++ source))
  | .ok parsed =>
    require (["http", "https"].elem parsed.scheme) (label ++ "must use http or https")
    require parsed.hostStr.isSome (label ++ "must include a host")
    require (parsed.username.isEmpty && parsed.password.isNone)
      (label ++ "must not contain credentials")
    require (parsed.query.isNone && parsed.fragment.isNone)
      (label ++ "must not contain a query string or fragment")
    return trimmed

/-- The id of a backend. -/
def requireBackendId (backend : BackendConfig) : Except ConfigError String :=
  if trim backend.id = "" then .error (.message "backend id must not be empty")
  else if backend.id.toList.elem '@' then
    .error (.message ("backend id '" ++ backend.id ++
      "' must not contain '@'; '@' is reserved as the route-backends separator"))
  else .ok backend.id

/-- A backend with its secret. -/
def resolveBackend (unknownCapabilityPolicy : UnknownMarkerPolicy) (backend : BackendConfig)
    (id : String) : Except ConfigError ResolvedBackend := do
  require (backend.weight != 0) ("backend '" ++ id ++ "' weight must be greater than zero")
  let baseUrl ← normalizeBackendBaseUrl host backend.baseUrl id
  let apiKey ← resolveOptionalSecret host backend.apiKey backend.apiKeyEnv
  let supports := canonicalizeMarkerSet backend.supports
  validateMarkers supports unknownCapabilityPolicy "capability" ("backend '" ++ id ++ "'")
  return {
    id := id
    baseUrl := baseUrl
    apiKey := apiKey
    timeoutMs := backend.timeoutMs
    supports := supports
    policies := backend.policies
    weight := backend.weight
    extraBody := backend.extraBody
    exposeBackendErrors := backend.exposeBackendErrors
    streamCapture := backend.streamCapture }

/-- The backends. -/
def resolveBackends (backends : List BackendConfig)
    (unknownCapabilityPolicy : UnknownMarkerPolicy) :
    Except ConfigError (List ResolvedBackend) := do
  let resolved ← Distinct.convertDistinct requireBackendId
    (fun _ id => .message ("duplicate backend id '" ++ id ++ "'"))
    (resolveBackend host unknownCapabilityPolicy) ∅ backends
  require (!resolved.isEmpty) "at least one [[backend]] is required"
  return resolved

/-! ### Routes -/

/-- A route in a message. -/
def formatRouteKey : RouteKey → String
  | .publicModel model => "public=" ++ model
  | .path path => "path=" ++ path

/-- The headers of a route must be headers. -/
def validateRequestHeaders (headers : List (String × String)) (key : RouteKey) :
    Except ConfigError Unit :=
  headers.forM fun (name, value) => do
    require (host.isHeaderName name)
      ("route '" ++ formatRouteKey key ++ "' has invalid HTTP header name '" ++ name ++ "'")
    require (host.isHeaderValue value)
      ("route '" ++ formatRouteKey key ++ "' has invalid HTTP header value for '" ++ name ++ "'")

/-- The key of a route. -/
def requireRouteKey (route : RouteConfig) : Except ConfigError RouteKey :=
  match route.routeKey with
  | some key => .ok key
  | none => .error (.message
      ("each [[route]] must declare exactly one of `public` or `path`; got public=" ++
        host.debugOption route.publicModel ++ " path=" ++ host.debugOption route.path))

/-- A route whose markers and headers are valid, with its key. -/
def validateRoute (unknownEndpointPolicy : UnknownMarkerPolicy) (route : RouteConfig)
    (key : RouteKey) : Except ConfigError (RouteKey × RouteConfig) := do
  let expose := canonicalizeMarkerSet route.expose
  validateMarkers expose unknownEndpointPolicy "endpoint" ("route '" ++ formatRouteKey key ++ "'")
  validateRequestHeaders host route.requestHeaders key
  return (key, { route with expose := expose })

/-- The routes and their keys. -/
def validateRoutes (routes : List RouteConfig) (unknownEndpointPolicy : UnknownMarkerPolicy) :
    Except ConfigError (List (RouteKey × RouteConfig)) :=
  Distinct.convertDistinct (requireRouteKey host)
    (fun _ key => .message ("duplicate route declaration for '" ++ formatRouteKey key ++ "'"))
    (validateRoute host unknownEndpointPolicy) ∅ routes

end

/-- The model and the backend of an entry, split at the last `@`. -/
def parseRouteBackend (entry : String) : Except ConfigError (Option String × String) :=
  let back := entry.toList.reverse
  if entry.toList.elem '@' then do
    let model := String.ofList ((back.dropWhile (· != '@')).tail.reverse)
    let backendId := String.ofList (back.takeWhile (· != '@')).reverse
    require (!backendId.isEmpty)
      ("route backend entry '" ++ entry ++ "' is missing the backend id after '@'")
    require (!model.isEmpty)
      ("route backend entry '" ++ entry ++
        "' uses '@' but the model part is empty; use a bare backend id for model-less routes")
    return (some model, backendId)
  else .ok (none, entry)

/-- The binding of an entry. -/
def bindRoute (key : RouteKey) (backends : List ResolvedBackend) (entry : String) :
    Except ConfigError RouteBackendBinding := do
  let (model, backendId) ← parseRouteBackend entry
  match backends.find? fun b => b.id == backendId with
  | none => .error (.message ("route '" ++ formatRouteKey key ++
      "' references unknown backend '" ++ backendId ++ "'"))
  | some backend =>
    return {
      backendId := backend.id
      backendModel := model.getD (match key with
        | .publicModel model => model
        | .path _ => backendId) }

/-- The bindings of a route. -/
def bindRoutes (key : RouteKey) (entries : List String) (backends : List ResolvedBackend) :
    Except ConfigError (List RouteBackendBinding) :=
  entries.mapM (bindRoute key backends)

/-- The context length of a route. -/
def resolveContextLengths (key : RouteKey) (config : ContextLengthConfig)
    (bindings : List RouteBackendBinding) : ContextLengthSpec :=
  match key with
  | .path _ => .none
  | .publicModel model =>
    match config with
    | .value n => .static n
    | .none => .none
    | .upstream =>
      .upstream ((bindings.head?.map RouteBackendBinding.backendId).getD "")
        ((bindings.head?.map RouteBackendBinding.backendModel).getD model) none

/-- The backend of the first binding. -/
def firstBackend (bindings : List RouteBackendBinding) (backends : List ResolvedBackend) :
    Option ResolvedBackend :=
  bindings.head?.bind fun first => backends.find? fun b => b.id == first.backendId

/-- A flag of a route, or that of its first backend. -/
def resolveFlag (flag : ResolvedBackend → Bool) (routeValue : Option Bool)
    (bindings : List RouteBackendBinding) (backends : List ResolvedBackend) : Bool :=
  routeValue.getD (((firstBackend bindings backends).map flag).getD false)

/-- Whether upstream errors are shown. -/
def resolveExposeBackendErrors : Option Bool → List RouteBackendBinding → List ResolvedBackend →
    Bool :=
  resolveFlag ResolvedBackend.exposeBackendErrors

/-- Whether streams are captured. -/
def resolveStreamCapture : Option Bool → List RouteBackendBinding → List ResolvedBackend → Bool :=
  resolveFlag ResolvedBackend.streamCapture

/-- The extra fields of a route over those of its first backend. -/
def mergeExtraBody (bindings : List RouteBackendBinding) (backends : List ResolvedBackend)
    (routeExtraBody : List (String × Toml)) : List (String × Toml) :=
  let defaults := ((firstBackend bindings backends).map ResolvedBackend.extraBody).getD []
  OrdMap.ofList (defaults ++ routeExtraBody)

/-- A route with its bindings. Policies that are not set are `preserve`. -/
def resolveRoute (backends : List ResolvedBackend) (entry : RouteKey × RouteConfig) :
    Except ConfigError ResolvedRoute := do
  let (key, route) := entry
  let bindings ← bindRoutes key route.backends backends
  return {
    key := key
    expose := canonicalizeMarkerSet route.expose
    contextLength := resolveContextLengths key route.contextLength bindings
    policies := {
      toolSchemaMode := route.toolSchemaMode.getD .preserve
      responsesStore := route.responsesStore.getD .preserve
      responsesMaxOutputTokens := route.responsesMaxOutputTokens.getD .preserve
      chatStreamUsage := route.chatStreamUsage.getD .preserve }
    backends := bindings
    extraBody := mergeExtraBody bindings backends route.extraBody
    exposeBackendErrors := resolveExposeBackendErrors route.exposeBackendErrors bindings backends
    streamCapture := resolveStreamCapture route.streamCapture bindings backends
    requestHeaders := route.requestHeaders
    anthropicMaxTokens := route.anthropicMaxTokens }

/-- The routes. -/
def resolveRoutes (host : Host) (routes : List RouteConfig) (backends : List ResolvedBackend)
    (routing : RoutingConfig) : Except ConfigError (List ResolvedRoute) := do
  let validated ← validateRoutes host routes routing.unknownEndpointPolicy
  validated.mapM (resolveRoute backends)

/-- Every model of a whitelist must have a route. -/
def validateAllowedRoutes (clients : List ResolvedClient) (routes : List ResolvedRoute) :
    Except ConfigError Unit :=
  clients.forM fun client =>
    match firstOf (client.models.filter fun model =>
        !routes.any fun route => route.key == .publicModel model) with
    | none => .ok ()
    | some model => .error (.message ("client '" ++ client.id ++ "' references public model '" ++
        model ++ "' which has no [[route]] declaration; add a [[route]] block or remove the " ++
        "model from the client"))

/-- **The configuration of a file.** -/
def Config.resolve (host : Host) (file : ConfigFile) : Except ConfigError Config := do
  validateTopLevel file
  let clients ← resolveClients host file.clients file.defaultModels
  let backends ← resolveBackends host file.backends file.routing.unknownCapabilityPolicy
  let routes ← resolveRoutes host file.routes backends file.routing
  validateAllowedRoutes clients routes
  return {
    routing := file.routing
    inspector := file.inspector
    clients := clients
    backends := backends
    routes := routes }

end Onair
