import Onair.Proxy.Context
import Onair.Proxy.Upstream

/-!
# Trying the backends of a request

The loop of `do_proxy`: the request is rewritten for a route and sent; if the backend could not be
reached, the next route is tried. What the outside does is an argument: for every request sent what
came of it, or nothing if the caller went away while it was waited for.

* `ClientError`, `FailureKind`: errors of the HTTP client, and which of them are tried again;
* `sendUpstreamRequest`: waiting for a response or a shutdown;
* `prepareOutbound`: the request for a route;
* `recordRetry`, `recordFinalFailure`, `tryRoutes`: the loop.
-/

namespace Onair

open Json Text

/-! ### Failures -/

/-- An error of the HTTP client. -/
structure ClientError where
  isTimeout : Bool := false
  isConnect : Bool := false
  isRequest : Bool := false
  isBody : Bool := false
  isDecode : Bool := false
  isRedirect : Bool := false
  deriving DecidableEq, Repr

/-- The name of an error. -/
def upstreamErrorKind (error : ClientError) : String :=
  if error.isTimeout then "timeout"
  else if error.isConnect then "connect"
  else if error.isRequest then "request"
  else if error.isBody then "body"
  else if error.isDecode then "decode"
  else if error.isRedirect then "redirect"
  else "unknown"

/-- The backend did not see the request. -/
def retryableSendError (error : ClientError) : Bool :=
  error.isConnect ||
    (error.isRequest && !error.isBody && !error.isDecode && !error.isRedirect)

/-- Why no response came. -/
inductive FailureKind where
  | timeout
  | request (errorKind : String) (retryable : Bool)
  deriving DecidableEq, Repr

namespace FailureKind

/-- The status the client sees. -/
def clientStatus : FailureKind → ℕ
  | timeout => 504
  | request _ _ => 502

/-- The outcome of the attempt. -/
def outcome : FailureKind → String
  | timeout => "upstream_timeout"
  | request _ _ => "upstream_request_failed"

/-- The name of the error. -/
def errorKind : FailureKind → String
  | timeout => "timeout"
  | request errorKind _ => errorKind

/-- The error the client sees. -/
def apiError : FailureKind → ApiError
  | timeout => .timeout
  | request _ _ => .upstream 502

/-- The outcome of the request. -/
def inspectorOutcome : FailureKind → InspectorOutcome
  | timeout => .upstreamTimeout
  | request _ _ => .upstreamRequestFailed

/-- Another backend may be tried. -/
def isRetryable : FailureKind → Bool
  | timeout => true
  | request _ retryable => retryable

end FailureKind

/-- The kind of an error. -/
def classifyFailure (error : ClientError) : FailureKind :=
  if error.isTimeout then .timeout
  else .request (upstreamErrorKind error) (retryableSendError error)

/-! ### Waiting -/

/-- What the shutdown channel said when it woke a wait. -/
structure ShutdownChange where
  closed : Bool
  value : Bool
  deriving DecidableEq, Repr

/-- The change ends the wait. -/
def ShutdownChange.stops (change : ShutdownChange) : Bool := change.closed || change.value

/-- One wait for a chunk of a body: the shutdown flag before it; the shutdown channel, if it was
first to wake; what the upstream gave; and the flag after it. -/
structure ChunkPoll where
  shutdown : Bool := false
  changed : Option ShutdownChange := none
  next : Option (Except ClientError Bytes) := none
  after : Bool := false
  deriving DecidableEq

/-- A response, with the waits for its body. If they run out, the caller went away. -/
structure UpstreamResponse where
  status : ℕ
  headers : HeaderMap
  remoteAddr : Option String
  body : List ChunkPoll
  deriving DecidableEq

/-- One wait for a response. -/
structure SendPoll where
  shutdown : Bool := false
  changed : Option ShutdownChange := none
  result : Except ClientError UpstreamResponse
  deriving DecidableEq

/-- Why there is no response. -/
inductive UpstreamSendError where
  | request (error : ClientError)
  | shutdown
  deriving DecidableEq, Repr

/-- Wait for a response or a shutdown. -/
def sendUpstreamRequest (poll : SendPoll) : Except UpstreamSendError UpstreamResponse :=
  if poll.shutdown then .error .shutdown
  else
    match poll.changed with
    | some change =>
      if change.stops then .error .shutdown else poll.result.mapError .request
    | none => poll.result.mapError .request

/-- Wait for a chunk or a shutdown. A shutdown looks like the end of the body. -/
def nextStreamChunk (poll : ChunkPoll) : Option (Except ClientError Bytes) :=
  if poll.shutdown then none
  else
    match poll.changed with
    | some change => if change.stops then none else poll.next
    | none => poll.next

/-! ### Requests -/

/-- A request that was routed: `ProxyRequest` of the source. -/
structure RoutedRequest where
  method : String
  path : String
  query : Option String
  body : Bytes
  contentType : Option String
  stream : Bool
  deriving DecidableEq, Repr

/-- Set a header. -/
def insertHeader (headers : HeaderMap) (name : String) (value : Bytes) : HeaderMap :=
  headers.filter (fun h => h.1 ≠ name) ++ [(name, value)]

/-- The first header of a name, if it reads as text. -/
def validHeader (headers : HeaderMap) (name : String) : Option Bytes :=
  (headers.lookup name).filter fun value => (headerValueToStr value).isSome

/-- Set a header if there is a value for it. -/
def insertHeaderOpt (headers : HeaderMap) (name : String) (value : Option Bytes) : HeaderMap :=
  match value with
  | some value => insertHeader headers name value
  | none => headers

/-- Set a header of a route, if it is one. -/
def insertRouteHeader (S : Services) (headers : HeaderMap) (header : String × String) :
    HeaderMap :=
  match S.headerName header.1, S.headerValue header.2 with
  | some name, some value => insertHeader headers name value
  | _, _ => headers

/-- The version of the messages endpoint. -/
def anthropicVersionDefault : String := "2023-06-01"

/-- The headers of a request: those of the client, then those of the route, then the key. -/
def upstreamHeaders (S : Services) (clientHeaders : HeaderMap) (route : SelectedRoute)
    (stream bodyIsEmpty : Bool) : HeaderMap :=
  let headers := if bodyIsEmpty then []
    else insertHeaderOpt [] "content-type" (validHeader clientHeaders "content-type")
  let headers := if stream then insertHeader headers "accept" (asBytes "text/event-stream")
    else headers
  let headers := insertHeaderOpt headers "x-request-id" (validHeader clientHeaders "x-request-id")
  let headers := route.requestHeaders.foldl (insertRouteHeader S) headers
  let headers := insertHeaderOpt headers "authorization"
    (route.apiKey.bind fun apiKey => S.headerValue ("Bearer " ++ apiKey))
  match route.requestMode with
  | .anthropicMessagesNative | .chatCompletionsViaMessages =>
    if (headers.lookup "anthropic-version").isSome then headers
    else insertHeader headers "anthropic-version"
      ((validHeader clientHeaders "anthropic-version").getD (asBytes anthropicVersionDefault))
  | _ => headers

/-- What is rewritten for a route. -/
def rewriteArgs (request : RoutedRequest) (route : SelectedRoute) : RewriteArgs where
  body := request.body
  contentType := request.contentType
  backendModel := route.backendModel
  upstreamPath := upstreamPath request.path
  requestMode := route.requestMode
  policies := route.policies
  anthropicMaxTokens := route.anthropicMaxTokens
  extraBody := route.extraBody
  routeLabel := route.routeKeyLabel

/-- The query string for a route. -/
def upstreamQuery (S : Services) (request : RoutedRequest) (route : SelectedRoute) :
    Option String :=
  (rewriteQueryModel S.form request.query route.backendModel).filter fun query => query ≠ ""

/-- The capture of an attempt. -/
def pendingCapture (S : Services) (request : RoutedRequest) (clientHeaders : HeaderMap)
    (labels : MetricLabels) (fields : ModelLogFields) (route : SelectedRoute)
    (outboundBody : Bytes) : PendingDebugCapture where
  method := request.method
  clientPath := request.path
  clientQuery := request.query
  upstreamPath := upstreamPathForMode (upstreamPath request.path) route.requestMode
  upstreamQuery := upstreamQuery S request route
  contentType := request.contentType
  requestId := headerStr clientHeaders "x-request-id"
  labels := labels
  requestedModel := fields.requested
  publicModel := fields.public
  backendModel := fields.backend
  inboundBody := request.body
  upstreamBody := outboundBody

/-- Capture an attempt, or put it off until it fails. -/
def startCapture (S : Services) (ctx : ProxyContext) (pending : PendingDebugCapture) :
    ProxyContext :=
  if !ctx.debugCaptureConfig.enabled then
    { ctx with debugCapture := none, pendingDebugCapture := none }
  else if ctx.debugCaptureConfig.mode = .all then
    { ctx with debugCapture := S.capture pending, pendingDebugCapture := none }
  else { ctx with debugCapture := none, pendingDebugCapture := some pending }

/-- A new attempt. -/
def newAttempt (ctx : ProxyContext) : InspectorAttemptBuilder where
  attempt := ctx.attempt
  backend := ctx.labels.backend
  backendTarget := ctx.backendTarget
  backendRemoteAddr := ctx.backendRemoteAddr
  debugCaptureId := ctx.debugCapture

/-- The request for a route. -/
def outboundRequest (S : Services) (request : RoutedRequest) (clientHeaders : HeaderMap)
    (route : SelectedRoute) (outboundBody : Bytes) : UpstreamRequest where
  method := request.method
  url := upstreamUrl route.baseUrl
    (upstreamPathForMode (upstreamPath request.path) route.requestMode)
    (upstreamQuery S request route)
  headers := upstreamHeaders S clientHeaders route request.stream outboundBody.isEmpty
  body := if outboundBody.isEmpty then none else some outboundBody
  timeoutMs := route.timeoutMs

/-- The error of a request that could not be rewritten. -/
def rewriteApiError (error : RequestRewriteError) : ApiError :=
  .badRequest error.message error.param

/-- Note that a request was rewritten, and capture it. -/
def preparedContext (S : Services) (request : RoutedRequest) (ctx : ProxyContext)
    (outboundBody : Bytes) : ProxyContext :=
  let ctx := (ctx.emit (.recordBackendAttempt ctx.labels)).liveUpsert
  let ctx := startCapture S ctx (pendingCapture S request ctx.clientHeaders ctx.labels
    ctx.modelLogFields ctx.route outboundBody)
  let ctx := if ctx.debugCapture.isSome then ctx.liveUpsert else ctx
  ctx.liveUpsert

/-- Rewrite a request for the route of the context. -/
def prepareOutbound (S : Services) (request : RoutedRequest) (ctx : ProxyContext) :
    ProxyContext × Except ApiError (InspectorAttemptBuilder × UpstreamRequest) :=
  match S.rewrite (rewriteArgs request ctx.route) with
  | .error error =>
    (ctx.emit (.recordBackendAttempt ctx.labels), .error (rewriteApiError error))
  | .ok outboundBody =>
    let prepared := preparedContext S request ctx outboundBody
    (prepared, .ok ((newAttempt ctx).setDebugCapture prepared.debugCapture,
      outboundRequest S request ctx.clientHeaders ctx.route outboundBody))

/-! ### The loop -/

/-- Note a failure, and go on with the next route. -/
def recordRetry (S : Services) (ctx : ProxyContext) (attempt : InspectorAttemptBuilder)
    (kind : FailureKind) (nextRoute : SelectedRoute) : ProxyContext :=
  let ctx := ctx.emit (.recordFailure ctx.labels.backend kind.clientStatus kind.errorKind)
  let ctx := ctx.recordRetriedAttempt
    (attempt.finish kind.clientStatus none kind.outcome (some kind.errorKind))
  { ctx with attempt := ctx.attempt + 1 : ProxyContext }.applyRoute S nextRoute

/-- Note the failure a request ends with. -/
def recordFinalFailure (ctx : ProxyContext) (attempt : InspectorAttemptBuilder)
    (kind : FailureKind) : ProxyContext :=
  let ctx := ctx.emit (.recordRequest ctx.labels kind.clientStatus)
  let ctx := ctx.emit (.recordFailure ctx.labels.backend kind.clientStatus kind.errorKind)
  { ctx with
    backendAttempts := ctx.backendAttempts ++
      [attempt.finish kind.clientStatus none kind.outcome (some kind.errorKind)] :
    ProxyContext }.recordContextInspector kind.inspectorOutcome kind.clientStatus
      (some kind.errorKind) none {}

/-- Note that a response came. -/
def receiveHeaders (ctx : ProxyContext) (attempt : InspectorAttemptBuilder)
    (response : UpstreamResponse) : ProxyContext :=
  { ctx with
    backendRemoteAddr := response.remoteAddr
    currentAttempt := some (attempt.setBackendRemoteAddr response.remoteAddr) :
    ProxyContext }.liveUpsert

/-- What a client gets: an error, a response, or a response whose body is a stream; or it went away
before that. -/
inductive Reply where
  | error (error : ApiError)
  | response (status : ℕ) (body : Bytes)
  | stream (status : ℕ)
  | dropped
  deriving DecidableEq, Repr

/-- How the loop ends: with a response, or with what the client gets. -/
inductive LoopEnd where
  | answered (ctx : ProxyContext) (response : UpstreamResponse)
  | ended (ctx : ProxyContext) (reply : Reply)

/-- **The loop of `do_proxy`.** The sends are told what comes of them; a request that is not told
anything is waited for until the caller goes away. -/
def tryRoutes (S : Services) (request : RoutedRequest) (sends : ℕ → Option SendPoll)
    (ctx : ProxyContext) (fallbackRoutes : List SelectedRoute) : LoopEnd :=
  match prepareOutbound S request ctx with
  | (ctx, .error error) => .ended ctx (.error error)
  | (ctx, .ok (attempt, outbound)) =>
    match sends 0 with
    | none => .ended (ctx.emit (.send outbound)) .dropped
    | some poll =>
      let ctx := if poll.shutdown then ctx else ctx.emit (.send outbound)
      match sendUpstreamRequest poll with
      | .ok response => .answered (receiveHeaders ctx attempt response) response
      | .error .shutdown => .ended ctx (.error .internal)
      | .error (.request error) =>
        let kind := classifyFailure error
        let ctx := ctx.ensureFailureDebugCapture S
        let attempt := attempt.setDebugCapture ctx.debugCapture
        match fallbackRoutes with
        | nextRoute :: fallbackRoutes =>
          if kind.isRetryable then
            tryRoutes S request (fun n => sends (n + 1)) (recordRetry S ctx attempt kind nextRoute)
              fallbackRoutes
          else .ended (recordFinalFailure ctx attempt kind) (.error kind.apiError)
        | [] => .ended (recordFinalFailure ctx attempt kind) (.error kind.apiError)

end Onair
