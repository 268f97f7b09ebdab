import Onair.Core.Buffered
import Onair.Proxy.Forward
import Onair.Proxy.Stream

/-!
# Answering a request

What `do_proxy` does with the response of a backend: an error is replaced or sent on, a body is read
and rewritten, a stream is rewritten as it comes. The stream is accounted for when it is dropped.

* `readBufferedUpstreamBody`, `readCappedUpstreamErrorBody`: reading a body;
* `nonSuccessResponse`, `bufferedResponse`: errors and bodies;
* `StreamLife`, `normalizedLoop`, `rawLoop`, `StreamLife.drop`, `streamResponse`: streams;
* `doProxy`, `routedContext`, `forward`: a request that was routed.
-/

namespace Onair

open Json Text

/-! ### Reading a body -/

/-- Why a body was not read. -/
inductive BufferedBodyReadError where
  | upstream (error : ClientError)
  | shutdown
  deriving DecidableEq, Repr

/-- Read a body, after the bytes that came already. -/
def readBufferedUpstreamBody (bytes : Bytes) :
    List ChunkPoll → Option (Except BufferedBodyReadError Bytes)
  | [] => none
  | poll :: polls =>
    if poll.shutdown then some (.error .shutdown)
    else
      match poll.changed with
      | some change =>
        if change.stops then some (.error .shutdown) else readBufferedUpstreamBody bytes polls
      | none =>
        match poll.next with
        | none => some (.ok bytes)
        | some (.error error) => some (.error (.upstream error))
        | some (.ok chunk) => readBufferedUpstreamBody (bytes ++ chunk) polls

/-- The most that is read of the body of an error. -/
def maxUpstreamErrorCaptureBytes : ℕ := 1024 * 1024

/-- The body of an error, as far as it was read. -/
structure CapturedUpstreamErrorBody where
  bytes : Bytes
  truncated : Bool
  deriving DecidableEq, Repr

/-- Read the body of an error, after the bytes that came already. -/
def readCappedUpstreamErrorBody (bytes : Bytes) :
    List ChunkPoll → Option (Except BufferedBodyReadError CapturedUpstreamErrorBody)
  | [] => none
  | poll :: polls =>
    match nextStreamChunk poll with
    | none =>
      if poll.after then some (.error .shutdown) else some (.ok { bytes, truncated := false })
    | some (.error error) => some (.error (.upstream error))
    | some (.ok chunk) =>
      let remaining := maxUpstreamErrorCaptureBytes - bytes.length
      if remaining < chunk.length then
        some (.ok { bytes := bytes ++ chunk.take remaining, truncated := true })
      else if (bytes ++ chunk).length = maxUpstreamErrorCaptureBytes then
        some (.ok { bytes := bytes ++ chunk, truncated := true })
      else readCappedUpstreamErrorBody (bytes ++ chunk) polls

/-! ### Errors -/

/-- Record an error of the backend that the client sees with a status. -/
def recordNonSuccess (ctx : ProxyContext) (clientStatus upstreamStatus : ℕ) (exposed : Bool)
    (responseBodyBytes : Option ℕ) : ProxyContext :=
  let ctx := ctx.emit (.recordRequest ctx.labels clientStatus)
  let ctx := ctx.emit (.recordFailure ctx.labels.backend upstreamStatus "upstream_non_success")
  let ctx := ctx.recordFinalAttempt clientStatus (some upstreamStatus) "upstream_non_success" none
  let ctx := if exposed then
      { ctx with inspectorBase := { ctx.inspectorBase with exposedBackendError := true } }
    else ctx
  ctx.recordContextInspector .upstreamNonSuccess clientStatus none responseBodyBytes {}

/-- Send the body of an error on to the client. -/
def forwardUpstreamError (ctx : ProxyContext) (upstreamStatus : ℕ) (body : Bytes) :
    ProxyContext × Reply :=
  let mappedStatus := ApiError.mapUpstreamStatus upstreamStatus
  (recordNonSuccess ctx mappedStatus upstreamStatus true (some body.length),
    .response mappedStatus body)

/-- Send an error of the proxy instead. -/
def sanitizeUpstreamError (ctx : ProxyContext) (upstreamStatus : ℕ) : ProxyContext × Reply :=
  let apiError := ApiError.upstream upstreamStatus
  (recordNonSuccess ctx apiError.status upstreamStatus false none, .error apiError)

/-- Send an error on if the route says so and the body was read whole. -/
def answerUpstreamError (ctx : ProxyContext) (upstreamStatus : ℕ)
    (captured : Option CapturedUpstreamErrorBody) : ProxyContext × Reply :=
  let forwarded := if ctx.route.exposeBackendErrors then
      (captured.filter fun body => !body.truncated).map CapturedUpstreamErrorBody.bytes
    else none
  match forwarded with
  | some body => forwardUpstreamError ctx upstreamStatus body
  | none => sanitizeUpstreamError ctx upstreamStatus

/-- A response with an error. -/
def nonSuccessResponse (S : Services) (ctx : ProxyContext) (response : UpstreamResponse) :
    ProxyContext × Reply :=
  let ctx := ctx.ensureCurrentDebugCapture S
  if ctx.debugCapture.isSome || ctx.route.exposeBackendErrors then
    match readCappedUpstreamErrorBody [] response.body with
    | none => (ctx, .dropped)
    | some (.ok captured) => answerUpstreamError ctx response.status (some captured)
    | some (.error _) => answerUpstreamError ctx response.status none
  else answerUpstreamError ctx response.status none

/-! ### Bodies -/

/-- Record that the body could not be read. -/
def recordBodyReadFailure (S : Services) (ctx : ProxyContext) (upstreamStatus : ℕ)
    (error : ClientError) : ProxyContext :=
  let errorKind := upstreamErrorKind error
  let ctx := ctx.emit (.recordRequest ctx.labels 502)
  let ctx := ctx.ensureCurrentDebugCapture S
  let ctx := ctx.emit (.recordFailure ctx.labels.backend 502 errorKind)
  let ctx := ctx.pushFinalAttempt 502 (some upstreamStatus) "upstream_body_read_failed"
    (some errorKind)
  ctx.recordInspectorRequest .upstreamBodyReadFailed 502 (some errorKind) none {}

/-- Record a response that was sent whole. -/
def recordBuffered (ctx : ProxyContext) (upstreamStatus bodyBytes : ℕ) (usage : UsageTotals) :
    ProxyContext :=
  let ctx := ctx.liveTouch
  let ctx := ctx.emit (.recordUsage ctx.labels usage)
  let ctx := ctx.emit (.recordRequest ctx.labels upstreamStatus)
  let ctx := ctx.emit (.recordSuccess ctx.labels.backend upstreamStatus)
  let ctx := ctx.pushFinalAttempt upstreamStatus (some upstreamStatus) "completed" none
  let ctx := ctx.updateLive fun record => { record with backendAttempts := ctx.backendAttempts }
  ctx.recordInspectorRequest .completed upstreamStatus none (some bodyBytes)
    (inspectorTokens usage)

/-- A response that is read, rewritten and sent whole. -/
def bufferedResponse (S : Services) (ctx : ProxyContext) (response : UpstreamResponse) :
    ProxyContext × Reply :=
  match readBufferedUpstreamBody [] response.body with
  | none => (ctx, .dropped)
  | some (.error .shutdown) => (ctx, .error .internal)
  | some (.error (.upstream error)) =>
    (recordBodyReadFailure S ctx response.status error, .error (.upstream 502))
  | some (.ok bytes) =>
    let rewritten := rewriteResponseBody S.codec bytes (headerStr response.headers "content-type")
      ctx.route.backendModel ctx.route.publicModel ctx.route.requestMode
    (recordBuffered ctx response.status rewritten.1.length rewritten.2,
      .response response.status rewritten.1)

/-! ### Streams -/

/-- A stream while it lives: `StreamMetrics` of the source, with the context it was made from. -/
structure StreamLife where
  context : ProxyContext
  statusCode : ℕ
  metrics : StreamMetrics := {}
  bodyComplete : Bool := false
  streamErrorKind : Option String := none

namespace StreamLife

/-- A chunk came. -/
def markBodyChunk (life : StreamLife) : StreamLife :=
  { life with context := life.context.liveTouch }

/-- The body is complete. -/
def markBodyComplete (life : StreamLife) : StreamLife :=
  { life with bodyComplete := true, context := life.context.liveTouch }

/-- The upstream failed: the client sees an error. -/
def fail (life : StreamLife) (error : ClientError) : StreamLife :=
  { life with
    streamErrorKind := some (upstreamErrorKind error)
    context := life.context.emit (.yieldError (upstreamErrorKind error)) }

/-- Send some bytes, if there are any. -/
def yield (life : StreamLife) (bytes : Bytes) : StreamLife :=
  if bytes.isEmpty then life else { life with context := life.context.emit (.yield bytes) }

/-- The outcome of the attempt. -/
def attemptOutcome (life : StreamLife) : String :=
  match life.streamErrorKind with
  | some _ => "upstream_stream_failed"
  | none => if life.bodyComplete then "completed" else "stream_incomplete"

/-- The outcome of the request. -/
def inspectorOutcome (life : StreamLife) : InspectorOutcome :=
  match life.streamErrorKind with
  | some _ => .upstreamStreamFailed
  | none => if life.bodyComplete then .completed else .streamIncomplete

/-- What is recorded of the backend. -/
def health (life : StreamLife) : List Effect :=
  match life.streamErrorKind with
  | some errorKind => [.recordFailure life.context.labels.backend life.statusCode errorKind]
  | none =>
    if life.bodyComplete then [.recordSuccess life.context.labels.backend life.statusCode] else []

/-- The usage that is recorded. -/
def usageEffects (life : StreamLife) : List Effect :=
  if life.metrics.usage = 0 then [] else [.recordUsage life.context.labels life.metrics.usage]

/-- The context of a stream that is over, with the end of its attempt. -/
def closedContext (S : Services) (life : StreamLife) : ProxyContext :=
  let ctx := life.context.liveTouch
  let ctx := if life.streamErrorKind.isSome then ctx.ensureCurrentDebugCapture S else ctx
  ctx.pushFinalAttempt life.statusCode (some life.statusCode) life.attemptOutcome
    life.streamErrorKind

/-- The end of a stream, however it came: `Drop` of `StreamMetrics`. -/
def drop (S : Services) (life : StreamLife) : ProxyContext :=
  let ctx := (life.closedContext S).emitAll (life.usageEffects ++ life.health)
  let ctx := ctx.recordInspectorRequest life.inspectorOutcome life.statusCode
    life.streamErrorKind none (inspectorTokens life.metrics.usage)
  ctx.emit (.recordStream ctx.labels life.statusCode)

end StreamLife

/-- **The loop over a stream of events**, until it ends or is dropped. -/
def normalizedLoop (c : Codec) (strategy : SseStrategy) (life : StreamLife) :
    List ChunkPoll → StreamLife
  | [] => life
  | poll :: polls =>
    match nextStreamChunk poll with
    | none =>
      let life := life.markBodyComplete
      let tail := streamEnd c (strategy, life.metrics)
      { life with metrics := tail.1 : StreamLife }.yield tail.2
    | some (.error error) => life.fail error
    | some (.ok chunk) =>
      let life := life.markBodyChunk
      let r := streamChunk c (strategy, life.metrics) chunk
      normalizedLoop c r.1.1 ({ life with metrics := r.1.2 : StreamLife }.yield r.2) polls

/-- The loop over a stream that is sent on as it comes. -/
def rawLoop (life : StreamLife) : List ChunkPoll → StreamLife
  | [] => life
  | poll :: polls =>
    match nextStreamChunk poll with
    | none => life.markBodyComplete
    | some (.error error) => life.fail error
    | some (.ok chunk) =>
      rawLoop { life.markBodyChunk with
        context := life.markBodyChunk.context.emit (.yield chunk) } polls

/-- The start of a stream. -/
def startStream (ctx : ProxyContext) (response : UpstreamResponse) : StreamLife where
  context := (ctx.emit (.recordRequest ctx.labels response.status)).liveTouch
  statusCode := response.status

/-- The loop of a stream. -/
def streamLoop (S : Services) (ctx : ProxyContext) (response : UpstreamResponse) : StreamLife :=
  let contentType := headerStr response.headers "content-type"
  if ctx.labels.stream || isEventStreamContentType contentType then
    normalizedLoop S.codec
      (SseStrategy.new ctx.route.requestMode ctx.route.backendModel ctx.route.publicModel
        (ctx.labels.route != "chat_completions" || ctx.clientStreamUsageRequested))
      (startStream ctx response) response.body
  else rawLoop (startStream ctx response) response.body

/-- A response that is rewritten as it comes. -/
def streamResponse (S : Services) (ctx : ProxyContext) (response : UpstreamResponse) :
    ProxyContext × Reply :=
  ((streamLoop S ctx response).drop S, .stream response.status)

/-! ### Routed requests -/

/-- The status says that the request succeeded. -/
def isSuccess (status : ℕ) : Bool := 200 ≤ status && status < 300

/-- A response of a backend. -/
def handleResponse (S : Services) (stream : Bool) (ctx : ProxyContext)
    (response : UpstreamResponse) : ProxyContext × Reply :=
  if !isSuccess response.status then nonSuccessResponse S ctx response
  else if stream || isEventStreamContentType (headerStr response.headers "content-type") then
    streamResponse S ctx response
  else bufferedResponse S ctx response

/-- **Forward a request that was routed**, until the response is sent or its stream is dropped. -/
def doProxy (S : Services) (ctx : ProxyContext) (request : RoutedRequest)
    (fallbackRoutes : List SelectedRoute) (sends : ℕ → Option SendPoll) : ProxyContext × Reply :=
  match tryRoutes S request sends ctx fallbackRoutes with
  | .answered ctx response => handleResponse S request.stream ctx response
  | .ended ctx reply => (ctx, reply)

/-- What was observed of a request before it is routed. -/
structure RequestObservationBase where
  inspectorEnabled : Bool
  recordId : String
  clientRequestId : Option String
  startedAtUnixMs : ℕ
  method : String
  path : String
  query : Option String
  requestBodyBytes : ℕ
  deriving DecidableEq, Repr

/-- What `proxy_v1` knows of a request when it is routed. -/
structure Incoming where
  observation : RequestObservationBase
  headers : HeaderMap
  debugCapture : DebugCaptureConfig
  routeName : String
  identity : String
  shape : RequestShape
  method : String
  path : String
  query : Option String
  body : Bytes
  contentType : Option String

/-- The request that is forwarded. -/
def Incoming.request (incoming : Incoming) : RoutedRequest where
  method := incoming.method
  path := incoming.path
  query := incoming.query
  body := incoming.body
  contentType := incoming.contentType
  stream := incoming.shape.stream

/-- What is known of a routed request. -/
def routedInspectorBase (observation : RequestObservationBase) (labels : MetricLabels)
    (fields : ModelLogFields) (backendTarget : String) : InspectorRequestBase where
  recordId := observation.recordId
  clientRequestId := observation.clientRequestId
  startedAtUnixMs := observation.startedAtUnixMs
  method := observation.method
  path := observation.path
  query := observation.query
  route := labels.route
  identity := labels.identity
  requestedModel := fields.requested
  publicModel := fields.public
  backendModel := fields.backend
  backend := labels.backend
  backendTarget := backendTarget
  backendRemoteAddr := none
  stream := labels.stream
  requestBodyBytes := observation.requestBodyBytes
  debugCaptureId := none
  exposedBackendError := false

/-- The context of a request on its first route. Its record was changed and published. -/
def routedContext (S : Services) (incoming : Incoming) (route : SelectedRoute)
    (maxAttempts : ℕ) : ProxyContext :=
  let fields := ModelLogFields.fromRoute incoming.shape.model route
  let target := S.backendTarget route.baseUrl
  let labels : MetricLabels :=
    { route := incoming.routeName
      identity := incoming.identity
      publicModel := ProxyContext.publicModelLabel incoming.shape.model route
      backend := route.backendId
      stream := incoming.shape.stream }
  let base := routedInspectorBase incoming.observation labels fields target
  let live : LiveRecord :=
    { enabled := incoming.observation.inspectorEnabled
      record :=
        { base := base
          outcome := .inFlight
          status := 0
          errorKind := none
          backendAttempts := []
          retriedAttempts := []
          responseBodyBytes := none
          tokens := {} } }
  { effects := (live.snapshot ++ live.snapshot).map .upsert
    clientHeaders := incoming.headers
    debugCaptureConfig := incoming.debugCapture
    debugCapture := none
    pendingDebugCapture := none
    inspectorBase := base
    inspectorEnabled := incoming.observation.inspectorEnabled
    liveRecord := live
    backendTarget := target
    backendRemoteAddr := none
    route := route
    labels := labels
    modelLogFields := fields
    requestedModel := incoming.shape.model
    clientStreamUsageRequested := incoming.shape.streamUsageRequested
    attempt := 1
    maxAttempts := maxAttempts
    backendAttempts := []
    retriedAttempts := []
    currentAttempt := none }

/-- **The end of `proxy_v1`**: the first of the routes is tried, and as many of the others as the
configuration allows. -/
def forward (S : Services) (incoming : Incoming) (fallbackAttempts : ℕ) (route : SelectedRoute)
    (routes : List SelectedRoute) (sends : ℕ → Option SendPoll) : ProxyContext × Reply :=
  let fallbackRoutes := routes.take fallbackAttempts
  doProxy S (routedContext S incoming route (1 + fallbackRoutes.length)) incoming.request
    fallbackRoutes sends

end Onair
