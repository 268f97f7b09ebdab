import Onair.Observe.Inspector
import Onair.Core.Auth
import Onair.Proxy.Routing
import Onair.Request.Modes

/-!
# The context of a request

What `do_proxy` carries along while it tries the backends of a request: the route that is tried, the
labels and records that name it, and the attempts so far. What is recorded on the way (metrics,
health, records of the inspector) and sent is kept in order, as a list of effects.

* `Effect`: one thing recorded or sent;
* `Services`: what lies outside: the file system, URLs, headers, and the rewriting of requests;
* `ProxyContext`, `applyRoute`, `liveUpsert`, `recordRetriedAttempt`, `recordFinalAttempt`,
  `ensureFailureDebugCapture`: the context and its operations.
-/

namespace Onair

open Json

/-! ### Labels and effects -/

/-- The labels of the metrics of a request. -/
structure MetricLabels where
  route : String
  identity : String
  publicModel : String
  backend : String
  stream : Bool
  deriving DecidableEq, Repr

/-- The model names of a request, as they are logged. -/
structure ModelLogFields where
  requested : String
  «public» : String
  backend : String
  deriving DecidableEq, Repr

/-- The names for a route. -/
def ModelLogFields.fromRoute (requestedModel : Option String) (route : SelectedRoute) :
    ModelLogFields where
  requested := requestedModel.getD "none"
  «public» := route.publicModel.getD "none"
  backend := route.backendModel.getD "none"

/-- A request as it is sent to a backend. -/
structure UpstreamRequest where
  method : String
  url : String
  headers : HeaderMap
  body : Option Bytes
  timeoutMs : ℕ
  deriving DecidableEq, Repr

/-- What is recorded or sent. -/
inductive Effect where
  | recordRequest (labels : MetricLabels) (status : ℕ)
  | recordBackendAttempt (labels : MetricLabels)
  | recordUsage (labels : MetricLabels) (usage : UsageTotals)
  | recordStream (labels : MetricLabels) (status : ℕ)
  | recordSuccess (backend : String) (status : ℕ)
  | recordFailure (backend : String) (status : ℕ) (errorKind : String)
  | upsert (record : InspectorRequestRecord)
  | upsertFinal (record : InspectorRequestRecord)
  | send (request : UpstreamRequest)
  | yield (bytes : Bytes)
  | yieldError (errorKind : String)
  deriving DecidableEq, Repr

namespace Effect

/-- The effect counts in `onair.requests`. -/
def isRequest : Effect → Bool
  | .recordRequest _ _ => true
  | _ => false

/-- The record written to the inspector. -/
def written : Effect → Option InspectorRequestRecord
  | .upsert record | .upsertFinal record => some record
  | _ => none

/-- The request sent to a backend. -/
def sent : Effect → Option UpstreamRequest
  | .send request => some request
  | _ => none

/-- The bytes sent to the client. -/
def yielded : Effect → Option Bytes
  | .yield bytes => some bytes
  | _ => none

end Effect

/-! ### Attempts -/

/-- An attempt that is not over. -/
structure InspectorAttemptBuilder where
  attempt : ℕ
  backend : String
  backendTarget : String
  backendRemoteAddr : Option String
  debugCaptureId : Option String
  deriving DecidableEq, Repr

namespace InspectorAttemptBuilder

/-- Note the capture of an attempt. -/
def setDebugCapture (b : InspectorAttemptBuilder) (capture : Option String) :
    InspectorAttemptBuilder :=
  { b with debugCaptureId := capture }

/-- Note the address of the backend. -/
def setBackendRemoteAddr (b : InspectorAttemptBuilder) (address : Option String) :
    InspectorAttemptBuilder :=
  { b with backendRemoteAddr := address }

/-- The attempt as it stands. -/
def toAttemptRecord (b : InspectorAttemptBuilder) : InspectorAttemptRecord where
  attempt := b.attempt
  backend := b.backend
  backendTarget := b.backendTarget
  backendRemoteAddr := b.backendRemoteAddr
  debugCaptureId := b.debugCaptureId
  status := 0
  outcome := "in_progress"
  errorKind := none
  upstreamStatus := none

/-- The end of an attempt. -/
def finish (b : InspectorAttemptBuilder) (status : ℕ) (upstreamStatus : Option ℕ)
    (outcome : String) (errorKind : Option String) : InspectorAttemptRecord :=
  { b.toAttemptRecord with
    status := status
    outcome := outcome
    errorKind := errorKind
    upstreamStatus := upstreamStatus }

end InspectorAttemptBuilder

/-! ### Debug captures -/

/-- A capture that is made only if the attempt fails. -/
structure PendingDebugCapture where
  method : String
  clientPath : String
  clientQuery : Option String
  upstreamPath : String
  upstreamQuery : Option String
  contentType : Option String
  requestId : Option String
  labels : MetricLabels
  requestedModel : String
  publicModel : String
  backendModel : String
  inboundBody : Bytes
  upstreamBody : Bytes
  deriving DecidableEq, Repr

/-! ### What lies outside -/

/-- What the proxy calls: the JSON library and the one for forms, the URL and header libraries, the
file system, which gives the id of a capture or fails, and the rewriting of a request body. -/
structure Services where
  codec : Codec
  form : Form
  backendTarget : String → String
  headerName : String → Option String
  headerValue : String → Option Bytes
  capture : PendingDebugCapture → Option String
  rewrite : RewriteArgs → Except RequestRewriteError Bytes

/-! ### The context -/

/-- What is carried along while a request is forwarded. -/
structure ProxyContext where
  effects : List Effect
  clientHeaders : HeaderMap
  debugCaptureConfig : DebugCaptureConfig
  debugCapture : Option String
  pendingDebugCapture : Option PendingDebugCapture
  inspectorBase : InspectorRequestBase
  inspectorEnabled : Bool
  liveRecord : LiveRecord
  backendTarget : String
  backendRemoteAddr : Option String
  route : SelectedRoute
  labels : MetricLabels
  modelLogFields : ModelLogFields
  requestedModel : Option String
  clientStreamUsageRequested : Bool
  attempt : ℕ
  maxAttempts : ℕ
  backendAttempts : List InspectorAttemptRecord
  retriedAttempts : List InspectorAttemptRecord
  currentAttempt : Option InspectorAttemptBuilder

namespace ProxyContext

/-- Record or send something. -/
def emit (ctx : ProxyContext) (effect : Effect) : ProxyContext :=
  { ctx with effects := ctx.effects ++ [effect] }

/-- Record several things. -/
def emitAll (ctx : ProxyContext) (effects : List Effect) : ProxyContext :=
  { ctx with effects := ctx.effects ++ effects }

/-- Change the record in flight, and write it. -/
def updateLive (ctx : ProxyContext) (mutate : InspectorRequestRecord → InspectorRequestRecord) :
    ProxyContext :=
  { ctx with
    liveRecord := ctx.liveRecord.update mutate
    effects := ctx.effects ++ (ctx.liveRecord.update mutate).snapshot.map .upsert }

/-- What is known of the request, with the address and the capture of the attempt. -/
def currentBase (ctx : ProxyContext) : InspectorRequestBase :=
  { ctx.inspectorBase with
    backendRemoteAddr := ctx.backendRemoteAddr
    debugCaptureId := ctx.debugCapture }

/-- A record of the request as it stands. -/
def buildLiveRecord (ctx : ProxyContext) : InspectorRequestRecord where
  base := ctx.currentBase
  outcome := .inFlight
  status := 0
  errorKind := none
  backendAttempts := ctx.backendAttempts ++
    ctx.currentAttempt.toList.map InspectorAttemptBuilder.toAttemptRecord
  retriedAttempts := ctx.retriedAttempts
  responseBodyBytes := none
  tokens := {}

/-- Write a snapshot of the request. -/
def liveUpsert (ctx : ProxyContext) : ProxyContext := ctx.updateLive fun _ => ctx.buildLiveRecord

/-- Write the record in flight again, with new clock readings. -/
def liveTouch (ctx : ProxyContext) : ProxyContext := ctx.updateLive id

/-- The public name of the model, for the labels. -/
def publicModelLabel (requestedModel : Option String) (route : SelectedRoute) : String :=
  (route.publicModel.or requestedModel).getD "none"

/-- Go on with another route. -/
def applyRoute (S : Services) (ctx : ProxyContext) (route : SelectedRoute) : ProxyContext :=
  let target := S.backendTarget route.baseUrl
  let fields := ModelLogFields.fromRoute ctx.requestedModel route
  let base := { ctx.inspectorBase with
    requestedModel := fields.requested
    publicModel := fields.public
    backendModel := fields.backend
    backend := route.backendId
    backendTarget := target
    backendRemoteAddr := none
    debugCaptureId := none }
  { ctx with
    backendTarget := target
    backendRemoteAddr := none
    debugCapture := none
    pendingDebugCapture := none
    modelLogFields := fields
    labels := { ctx.labels with
      backend := route.backendId
      publicModel := publicModelLabel ctx.requestedModel route }
    inspectorBase := base
    route := route : ProxyContext }.updateLive fun record => { record with base := base }

/-- Note an attempt that is followed by another. -/
def recordRetriedAttempt (ctx : ProxyContext) (attempt : InspectorAttemptRecord) : ProxyContext :=
  { ctx with
    backendAttempts := ctx.backendAttempts ++ [attempt]
    retriedAttempts := ctx.retriedAttempts ++ [attempt] : ProxyContext }.liveUpsert

/-- Note the end of the current attempt. -/
def pushFinalAttempt (ctx : ProxyContext) (status : ℕ) (upstreamStatus : Option ℕ)
    (outcome : String) (errorKind : Option String) : ProxyContext :=
  match ctx.currentAttempt with
  | some attempt =>
    { ctx with
      currentAttempt := none
      backendAttempts := ctx.backendAttempts ++
        [attempt.finish status upstreamStatus outcome errorKind] }
  | none => ctx

/-- Note the end of the current attempt, and write a snapshot of the request. -/
def recordFinalAttempt (ctx : ProxyContext) (status : ℕ) (upstreamStatus : Option ℕ)
    (outcome : String) (errorKind : Option String) : ProxyContext :=
  if ctx.currentAttempt.isSome then
    (ctx.pushFinalAttempt status upstreamStatus outcome errorKind).liveUpsert
  else ctx

/-- Make the capture of a failed attempt, if it was put off. -/
def ensureFailureDebugCapture (S : Services) (ctx : ProxyContext) : ProxyContext :=
  match ctx.debugCapture, ctx.pendingDebugCapture with
  | none, some pending =>
    { ctx with debugCapture := S.capture pending, pendingDebugCapture := none }
  | _, _ => ctx

/-- The same, and note it in the current attempt. -/
def ensureCurrentDebugCapture (S : Services) (ctx : ProxyContext) : ProxyContext :=
  let ctx := ctx.ensureFailureDebugCapture S
  { ctx with currentAttempt := ctx.currentAttempt.map (·.setDebugCapture ctx.debugCapture) }

/-- The last record of a request. -/
def finalRecord (ctx : ProxyContext) (outcome : InspectorOutcome) (status : ℕ)
    (errorKind : Option String) (responseBodyBytes : Option ℕ) (tokens : InspectorTokenCounts) :
    InspectorRequestRecord where
  base := ctx.currentBase
  outcome := outcome
  status := status
  errorKind := errorKind
  backendAttempts := ctx.backendAttempts
  retriedAttempts := ctx.retriedAttempts
  responseBodyBytes := responseBodyBytes
  tokens := tokens

/-- Write the last record of a request, by way of the record in flight. -/
def recordContextInspector (ctx : ProxyContext) (outcome : InspectorOutcome) (status : ℕ)
    (errorKind : Option String) (responseBodyBytes : Option ℕ) (tokens : InspectorTokenCounts) :
    ProxyContext :=
  if ctx.liveRecord.enabled then
    ctx.emit (.upsertFinal (ctx.liveRecord.finalRecord
      (ctx.finalRecord outcome status errorKind responseBodyBytes tokens)))
  else ctx

/-- Write the last record of a request to the store. -/
def recordInspectorRequest (ctx : ProxyContext) (outcome : InspectorOutcome) (status : ℕ)
    (errorKind : Option String) (responseBodyBytes : Option ℕ) (tokens : InspectorTokenCounts) :
    ProxyContext :=
  if ctx.inspectorEnabled then
    ctx.emit (.upsertFinal (ctx.finalRecord outcome status errorKind responseBodyBytes tokens))
  else ctx

/-! ### What was recorded and sent -/

/-- How often the request was counted in `onair.requests`. -/
def requestCount (ctx : ProxyContext) : ℕ := ctx.effects.countP Effect.isRequest

/-- The records written for the request. -/
def writtenRecords (ctx : ProxyContext) : List InspectorRequestRecord :=
  ctx.effects.filterMap Effect.written

/-- The requests sent to backends. -/
def sentRequests (ctx : ProxyContext) : List UpstreamRequest := ctx.effects.filterMap Effect.sent

variable (ctx : ProxyContext)

@[simp] theorem requestCount_emit (e : Effect) :
    (ctx.emit e).requestCount = ctx.requestCount + (if e.isRequest then 1 else 0) := by
  simp [requestCount, emit]

@[simp] theorem writtenRecords_emit (e : Effect) :
    (ctx.emit e).writtenRecords = ctx.writtenRecords ++ e.written.toList := by
  cases e <;> simp [writtenRecords, emit, Effect.written]

@[simp] theorem sentRequests_emit (e : Effect) :
    (ctx.emit e).sentRequests = ctx.sentRequests ++ e.sent.toList := by
  cases e <;> simp [sentRequests, emit, Effect.sent]

variable (mutate : InspectorRequestRecord → InspectorRequestRecord)

@[simp] theorem requestCount_updateLive :
    (ctx.updateLive mutate).requestCount = ctx.requestCount := by
  simp [requestCount, updateLive, Effect.isRequest]

@[simp] theorem writtenRecords_updateLive :
    (ctx.updateLive mutate).writtenRecords =
      ctx.writtenRecords ++ (ctx.liveRecord.update mutate).snapshot := by
  simp only [writtenRecords, updateLive, List.filterMap_append, List.filterMap_map]
  exact congrArg _ List.filterMap_some

@[simp] theorem sentRequests_updateLive :
    (ctx.updateLive mutate).sentRequests = ctx.sentRequests := by
  simp [sentRequests, updateLive, Effect.sent]

end ProxyContext

end Onair
