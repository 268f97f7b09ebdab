import Onair.Lib.Json.Reference
import Onair.Proxy.Attempts

/-!
# The backends of a request are tried in order

* `Trail`: the attempts of a request and what was sent, as far as the context knows;
* `Tried`, `Waiting`, `Closed`: the trail before an attempt, while its response is handled, and at
  the end;
* `tryRoutes_trail`: the trail of the loop;
* `handleResponse_trail`: the trail of a response;
* **`fallback_in_order`**: the candidates are tried in order, each with its own rewriting of the
  request, until there is a response or a failure that is not tried again.
-/

namespace Onair

/-! ### Trails -/

/-- The attempts of a request and what was sent to backends. -/
structure Trail where
  backendAttempts : List InspectorAttemptRecord
  retriedAttempts : List InspectorAttemptRecord
  current : Option (ℕ × String)
  sent : List UpstreamRequest

namespace ProxyContext

/-- The trail of a context. -/
def trail (ctx : ProxyContext) : Trail where
  backendAttempts := ctx.backendAttempts
  retriedAttempts := ctx.retriedAttempts
  current := ctx.currentAttempt.map fun b => (b.attempt, b.backend)
  sent := ctx.sentRequests

variable (S : Services) (ctx : ProxyContext)

theorem trail_emit {e : Effect} (h : e.sent = none) : (ctx.emit e).trail = ctx.trail := by
  simp only [trail, sentRequests_emit, h, Option.toList_none, List.append_nil]
  rfl

@[simp] theorem trail_updateLive (mutate : InspectorRequestRecord → InspectorRequestRecord) :
    (ctx.updateLive mutate).trail = ctx.trail := by
  simp only [trail, sentRequests_updateLive]
  rfl

@[simp] theorem trail_liveUpsert : ctx.liveUpsert.trail = ctx.trail := trail_updateLive ctx _

@[simp] theorem trail_liveTouch : ctx.liveTouch.trail = ctx.trail := trail_updateLive ctx _

@[simp] theorem trail_ensureFailureDebugCapture :
    (ctx.ensureFailureDebugCapture S).trail = ctx.trail := by
  unfold ensureFailureDebugCapture
  split <;> rfl

@[simp] theorem trail_ensureCurrentDebugCapture :
    (ctx.ensureCurrentDebugCapture S).trail = ctx.trail := by
  rw [← trail_ensureFailureDebugCapture S ctx, ensureCurrentDebugCapture]
  simp only [trail, Option.map_map]
  rfl

@[simp] theorem trail_recordContextInspector (outcome : InspectorOutcome) (status : ℕ)
    (errorKind : Option String) (size : Option ℕ) (tokens : InspectorTokenCounts) :
    (ctx.recordContextInspector outcome status errorKind size tokens).trail = ctx.trail := by
  unfold recordContextInspector
  split_ifs
  · exact trail_emit ctx rfl
  · rfl

@[simp] theorem trail_recordInspectorRequest (outcome : InspectorOutcome) (status : ℕ)
    (errorKind : Option String) (size : Option ℕ) (tokens : InspectorTokenCounts) :
    (ctx.recordInspectorRequest outcome status errorKind size tokens).trail = ctx.trail := by
  unfold recordInspectorRequest
  split_ifs
  · exact trail_emit ctx rfl
  · rfl

end ProxyContext

/-! ### Before, during and after an attempt -/

section Trail

variable (S : Services) (request : RoutedRequest) (headers : HeaderMap)

/-- The body of a request, rewritten for a route. -/
def rewrittenBody (route : SelectedRoute) : Bytes :=
  match S.rewrite (rewriteArgs request route) with
  | .ok body => body
  | .error _ => []

/-- What is sent on a route: the request of the client, rewritten for the mode, the model and the
policies of the route. -/
def requestFor (route : SelectedRoute) : UpstreamRequest :=
  outboundRequest S request headers route (rewrittenBody S request route)

/-- The attempts are numbered from 1 and name the backends of the routes that were tried. -/
structure AttemptsNumbered (tried : List SelectedRoute) (attempts : List (ℕ × String)) : Prop where
  numbers : attempts.map Prod.fst = List.range' 1 tried.length
  backends : attempts.map Prod.snd = tried.map SelectedRoute.backendId

/-- The number and the backend of an attempt. -/
def InspectorAttemptRecord.mark (record : InspectorAttemptRecord) : ℕ × String :=
  (record.attempt, record.backend)

/-- All routes that were tried were given up. -/
structure Tried (tried : List SelectedRoute) (trail : Trail) : Prop where
  retried : trail.backendAttempts = trail.retriedAttempts
  numbered : AttemptsNumbered tried (trail.backendAttempts.map InspectorAttemptRecord.mark)
  sent : trail.sent = tried.map (requestFor S request headers)

/-- The last route that was tried has answered. -/
structure Waiting (tried : List SelectedRoute) (trail : Trail) : Prop where
  retried : trail.backendAttempts = trail.retriedAttempts
  current : ∃ mark, trail.current = some mark ∧
    AttemptsNumbered tried (trail.backendAttempts.map InspectorAttemptRecord.mark ++ [mark])
  sent : trail.sent = tried.map (requestFor S request headers)

/-- The request is over: the attempts are those that were given up, and one more. -/
structure Closed (tried : List SelectedRoute) (trail : Trail) : Prop where
  last : ∃ record, trail.backendAttempts = trail.retriedAttempts ++ [record]
  numbered : AttemptsNumbered tried (trail.backendAttempts.map InspectorAttemptRecord.mark)
  sent : trail.sent = tried.map (requestFor S request headers)

variable {S request headers} {tried : List SelectedRoute}

theorem AttemptsNumbered.append {attempts : List (ℕ × String)} (h : AttemptsNumbered tried attempts)
    (route : SelectedRoute) :
    AttemptsNumbered (tried ++ [route]) (attempts ++ [(tried.length + 1, route.backendId)]) where
  numbers := by
    rw [List.map_append, h.numbers, List.length_append, List.length_singleton, List.range'_concat]
    simp [Nat.add_comm]
  backends := by rw [List.map_append, h.backends, List.map_append]; rfl

theorem Waiting.push {ctx : ProxyContext} (h : Waiting S request headers tried ctx.trail)
    (status : ℕ) (upstreamStatus : Option ℕ) (outcome : String) (errorKind : Option String) :
    Closed S request headers tried
      (ctx.pushFinalAttempt status upstreamStatus outcome errorKind).trail := by
  obtain ⟨mark, hcurrent, hnumbered⟩ := h.current
  cases hb : ctx.currentAttempt with
  | none => simp [ProxyContext.trail, hb] at hcurrent
  | some b =>
    have hmark : (b.attempt, b.backend) = mark := by
      simpa [ProxyContext.trail, hb] using hcurrent
    have hpush : ctx.pushFinalAttempt status upstreamStatus outcome errorKind =
        { ctx with
          currentAttempt := none
          backendAttempts := ctx.backendAttempts ++
            [b.finish status upstreamStatus outcome errorKind] } := by
      simp only [ProxyContext.pushFinalAttempt, hb]
    rw [hpush]
    refine ⟨⟨b.finish status upstreamStatus outcome errorKind,
      congrArg (fun l => l ++ [b.finish status upstreamStatus outcome errorKind]) h.retried⟩, ?_,
      h.sent⟩
    subst hmark
    simpa [ProxyContext.trail, InspectorAttemptRecord.mark,
      InspectorAttemptBuilder.finish, InspectorAttemptBuilder.toAttemptRecord] using hnumbered

end Trail

/-! ### The loop -/

/-- What an attempt is made from. -/
structure Course where
  clientHeaders : HeaderMap
  route : SelectedRoute
  labels : MetricLabels
  modelLogFields : ModelLogFields
  requestedModel : Option String
  debugCaptureConfig : DebugCaptureConfig
  attempt : ℕ

/-- What the next attempt is made from. -/
def ProxyContext.course (ctx : ProxyContext) : Course where
  clientHeaders := ctx.clientHeaders
  route := ctx.route
  labels := ctx.labels
  modelLogFields := ctx.modelLogFields
  requestedModel := ctx.requestedModel
  debugCaptureConfig := ctx.debugCaptureConfig
  attempt := ctx.attempt

section Loop

variable (S : Services) (request : RoutedRequest) (ctx : ProxyContext) (body : Bytes)

theorem startCapture_trail (pending : PendingDebugCapture) :
    (startCapture S ctx pending).trail = ctx.trail ∧
      (startCapture S ctx pending).course = ctx.course := by
  unfold startCapture
  split_ifs <;> exact ⟨rfl, rfl⟩

theorem preparedContext_trail :
    (preparedContext S request ctx body).trail = ctx.trail ∧
      (preparedContext S request ctx body).course = ctx.course := by
  have hstart := startCapture_trail S (ctx.emit (.recordBackendAttempt ctx.labels)).liveUpsert
    (pendingCapture S request ctx.clientHeaders ctx.labels ctx.modelLogFields ctx.route body)
  rw [ProxyContext.trail_liveUpsert, ProxyContext.trail_emit ctx rfl] at hstart
  unfold preparedContext
  dsimp only
  split_ifs
  · rw [ProxyContext.trail_liveUpsert, ProxyContext.trail_liveUpsert]
    exact hstart
  · rw [ProxyContext.trail_liveUpsert]
    exact hstart

theorem sentContext_course : (sentContext S request ctx body).course = ctx.course :=
  (preparedContext_trail S request ctx body).2

theorem sentContext_trail : (sentContext S request ctx body).trail =
    { ctx.trail with
      sent := ctx.trail.sent ++ [outboundRequest S request ctx.clientHeaders ctx.route body] } := by
  rw [← (preparedContext_trail S request ctx body).1, sentContext]
  simp only [ProxyContext.trail, ProxyContext.sentRequests_emit]
  rfl

theorem failedContext_trail :
    (failedContext S request ctx body).trail = (sentContext S request ctx body).trail :=
  ProxyContext.trail_ensureFailureDebugCapture S _

theorem failedContext_course : (failedContext S request ctx body).course = ctx.course := by
  rw [← sentContext_course S request ctx body, failedContext,
    ProxyContext.ensureFailureDebugCapture]
  split <;> rfl

variable {S request ctx body} {headers : HeaderMap} {tried : List SelectedRoute}

/-- The context is about to try its route, after those that were tried. -/
structure Ready (S : Services) (request : RoutedRequest) (headers : HeaderMap)
    (tried : List SelectedRoute) (ctx : ProxyContext) : Prop where
  trail : Tried S request headers tried ctx.trail
  headers : ctx.clientHeaders = headers
  label : ctx.labels.backend = ctx.route.backendId
  attempt : ctx.attempt = tried.length + 1

theorem rewrittenBody_eq (h : S.rewrite (rewriteArgs request ctx.route) = .ok body) :
    rewrittenBody S request ctx.route = body := by
  simp only [rewrittenBody, h]

theorem Ready.sent (hr : Ready S request headers tried ctx)
    (h : S.rewrite (rewriteArgs request ctx.route) = .ok body) :
    (sentContext S request ctx body).trail.sent =
      (tried ++ [ctx.route]).map (requestFor S request headers) := by
  rw [sentContext_trail, List.map_append, ← hr.trail.sent]
  simp only [List.map_cons, List.map_nil, requestFor, rewrittenBody_eq h, hr.headers]

theorem Ready.numbered (hr : Ready S request headers tried ctx) :
    AttemptsNumbered (tried ++ [ctx.route])
      (ctx.backendAttempts.map InspectorAttemptRecord.mark ++
        [(ctx.attempt, ctx.labels.backend)]) := by
  rw [hr.attempt, hr.label]
  exact hr.trail.numbered.append ctx.route

/-- The attempt of a request that failed, with its end. -/
def failedRecord (S : Services) (request : RoutedRequest) (ctx : ProxyContext) (body : Bytes)
    (error : ClientError) : InspectorAttemptRecord :=
  (failedAttempt S request ctx body).finish (classifyFailure error).clientStatus none
    (classifyFailure error).outcome (some (classifyFailure error).errorKind)

theorem finalFailureContext_trail (error : ClientError) :
    (finalFailureContext S request ctx body error).trail =
      { (sentContext S request ctx body).trail with
        backendAttempts := ctx.backendAttempts ++ [failedRecord S request ctx body error] } := by
  have hfailed := (failedContext_trail S request ctx body).trans
    (sentContext_trail S request ctx body)
  have hrequest := ProxyContext.trail_emit (failedContext S request ctx body)
    (e := .recordRequest (failedContext S request ctx body).labels
      (classifyFailure error).clientStatus) rfl
  have hfailure := ProxyContext.trail_emit ((failedContext S request ctx body).emit
      (.recordRequest (failedContext S request ctx body).labels
        (classifyFailure error).clientStatus))
    (e := .recordFailure (failedContext S request ctx body).labels.backend
      (classifyFailure error).clientStatus (classifyFailure error).errorKind) rfl
  rw [hrequest, hfailed] at hfailure
  rw [finalFailureContext, recordFinalFailure, ProxyContext.trail_recordContextInspector,
    sentContext_trail]
  have hb := congrArg Trail.backendAttempts hfailed
  have hsent := congrArg Trail.sent hfailure
  have ht := congrArg Trail.retriedAttempts hfailed
  have hc := congrArg Trail.current hfailed
  exact Trail.mk.injEq .. ▸ ⟨congrArg (· ++ _) hb, ht, hc, hsent⟩

theorem Ready.fail (hr : Ready S request headers tried ctx)
    (h : S.rewrite (rewriteArgs request ctx.route) = .ok body) (error : ClientError) :
    Closed S request headers (tried ++ [ctx.route])
      (finalFailureContext S request ctx body error).trail := by
  have hretried : (sentContext S request ctx body).trail.retriedAttempts =
      ctx.trail.retriedAttempts := by rw [sentContext_trail]
  rw [finalFailureContext_trail]
  refine ⟨⟨failedRecord S request ctx body error, ?_⟩, ?_, hr.sent h⟩
  · rw [hretried, ← hr.trail.retried]
    rfl
  · rw [List.map_append]
    exact hr.numbered

theorem Ready.receive (hr : Ready S request headers tried ctx)
    (h : S.rewrite (rewriteArgs request ctx.route) = .ok body) (response : UpstreamResponse) :
    Waiting S request headers (tried ++ [ctx.route])
      (receiveHeaders (sentContext S request ctx body) (sentAttempt S request ctx body)
        response).trail := by
  have hsent := sentContext_trail S request ctx body
  have hb := congrArg Trail.backendAttempts hsent
  have ht := congrArg Trail.retriedAttempts hsent
  rw [receiveHeaders, ProxyContext.trail_liveUpsert]
  refine ⟨?_, ⟨(ctx.attempt, ctx.labels.backend), rfl, ?_⟩, hr.sent h⟩
  · exact (hb.trans hr.trail.retried).trans ht.symm
  · exact hb ▸ hr.numbered

/-- Whether another route is tried after each of the sends. -/
def again (sends : ℕ → Option SendPoll) (i : ℕ) : Bool := (answer (sends i)).retryable

end Loop

/-! ### Responses -/

section Response

variable {S : Services} {request : RoutedRequest} {headers : HeaderMap}
  {tried : List SelectedRoute} {ctx : ProxyContext}

theorem Waiting.isSome (h : Waiting S request headers tried ctx.trail) :
    ctx.currentAttempt.isSome = true := by
  obtain ⟨mark, hcurrent, -⟩ := h.current
  cases hb : ctx.currentAttempt with
  | none => simp [ProxyContext.trail, hb] at hcurrent
  | some b => rfl

theorem Waiting.recordFinalAttempt (h : Waiting S request headers tried ctx.trail) (status : ℕ)
    (upstreamStatus : Option ℕ) (outcome : String) (errorKind : Option String) :
    Closed S request headers tried
      (ctx.recordFinalAttempt status upstreamStatus outcome errorKind).trail := by
  rw [ProxyContext.recordFinalAttempt, if_pos h.isSome, ProxyContext.trail_liveUpsert]
  exact h.push status upstreamStatus outcome errorKind

theorem Waiting.recordNonSuccess (h : Waiting S request headers tried ctx.trail)
    (clientStatus upstreamStatus : ℕ) (exposed : Bool) (size : Option ℕ) :
    Closed S request headers tried
      (recordNonSuccess ctx clientStatus upstreamStatus exposed size).trail := by
  have hemit : ((ctx.emit (.recordRequest ctx.labels clientStatus)).emit
      (.recordFailure ctx.labels.backend upstreamStatus "upstream_non_success")).trail =
      ctx.trail := by
    rw [ProxyContext.trail_emit _ rfl, ProxyContext.trail_emit _ rfl]
  rw [← hemit] at h
  have hfinal := h.recordFinalAttempt clientStatus (some upstreamStatus) "upstream_non_success" none
  unfold Onair.recordNonSuccess
  rw [ProxyContext.trail_recordContextInspector]
  cases exposed
  · exact hfinal
  · exact hfinal

theorem Waiting.answerUpstreamError (h : Waiting S request headers tried ctx.trail)
    (upstreamStatus : ℕ) (captured : Option CapturedUpstreamErrorBody) :
    Closed S request headers tried
      (answerUpstreamError ctx upstreamStatus captured).1.trail := by
  unfold Onair.answerUpstreamError
  dsimp only
  split
  · exact h.recordNonSuccess _ _ _ _
  · exact h.recordNonSuccess _ _ _ _

theorem Waiting.nonSuccessResponse (h : Waiting S request headers tried ctx.trail)
    (response : UpstreamResponse)
    (hstay : (nonSuccessResponse S ctx response).2 ≠ .dropped) :
    Closed S request headers tried (nonSuccessResponse S ctx response).1.trail := by
  rw [← ProxyContext.trail_ensureCurrentDebugCapture S ctx] at h
  revert hstay
  unfold Onair.nonSuccessResponse
  dsimp only
  split_ifs
  · split
    · exact fun hstay => absurd rfl hstay
    · exact fun _ => h.answerUpstreamError _ _
    · exact fun _ => h.answerUpstreamError _ _
  · exact fun _ => h.answerUpstreamError _ _

theorem Waiting.recordBodyReadFailure (h : Waiting S request headers tried ctx.trail)
    (upstreamStatus : ℕ) (error : ClientError) :
    Closed S request headers tried (recordBodyReadFailure S ctx upstreamStatus error).trail := by
  unfold Onair.recordBodyReadFailure
  dsimp only
  rw [ProxyContext.trail_recordInspectorRequest]
  refine Waiting.push ?_ _ _ _ _
  rw [ProxyContext.trail_emit _ rfl, ProxyContext.trail_ensureCurrentDebugCapture,
    ProxyContext.trail_emit _ rfl]
  exact h

theorem Waiting.recordBuffered (h : Waiting S request headers tried ctx.trail)
    (upstreamStatus bodyBytes : ℕ) (usage : UsageTotals) :
    Closed S request headers tried (recordBuffered ctx upstreamStatus bodyBytes usage).trail := by
  unfold Onair.recordBuffered
  dsimp only
  rw [ProxyContext.trail_recordInspectorRequest, ProxyContext.trail_updateLive]
  refine Waiting.push ?_ _ _ _ _
  rw [ProxyContext.trail_emit _ rfl, ProxyContext.trail_emit _ rfl, ProxyContext.trail_emit _ rfl,
    ProxyContext.trail_liveTouch]
  exact h

theorem Waiting.bufferedResponse (h : Waiting S request headers tried ctx.trail)
    (response : UpstreamResponse) (hstay : (bufferedResponse S ctx response).2 ≠ .dropped)
    (hshutdown : readBufferedUpstreamBody [] response.body ≠ some (.error .shutdown)) :
    Closed S request headers tried (bufferedResponse S ctx response).1.trail := by
  revert hstay
  unfold Onair.bufferedResponse
  split
  · exact fun hstay => absurd rfl hstay
  · rename_i hread
    exact absurd hread hshutdown
  · exact fun _ => h.recordBodyReadFailure _ _
  · exact fun _ => h.recordBuffered _ _ _

theorem Waiting.drop {life : StreamLife} (h : Waiting S request headers tried life.context.trail) :
    Closed S request headers tried (life.drop S).trail := by
  have husage : life.usageEffects.filterMap Effect.sent = [] := by
    unfold StreamLife.usageEffects
    split_ifs <;> rfl
  have hhealth : life.health.filterMap Effect.sent = [] := by
    unfold StreamLife.health
    split
    · rfl
    · split_ifs <;> rfl
  have hkept : ∀ ctx : ProxyContext,
      (ctx.emitAll (life.usageEffects ++ life.health)).trail = ctx.trail := by
    intro ctx
    simp [ProxyContext.trail, ProxyContext.emitAll, ProxyContext.sentRequests, husage, hhealth]
  unfold StreamLife.drop
  dsimp only
  rw [ProxyContext.trail_emit _ rfl, ProxyContext.trail_recordInspectorRequest, hkept]
  refine Waiting.push ?_ _ _ _ _
  split_ifs
  · rw [ProxyContext.trail_ensureCurrentDebugCapture, ProxyContext.trail_liveTouch]
    exact h
  · rw [ProxyContext.trail_liveTouch]
    exact h

theorem Waiting.streamResponse (h : Waiting S request headers tried ctx.trail)
    (response : UpstreamResponse) :
    Closed S request headers tried (streamResponse S ctx response).1.trail := by
  refine Waiting.drop (streamLoop_inv (I := fun ctx => Waiting S request headers tried ctx.trail)
    (fun ctx hctx => ?_) (fun ctx bytes hctx => ?_) (fun ctx kind hctx => ?_) ?_)
  · rwa [ProxyContext.trail_liveTouch]
  · rwa [ProxyContext.trail_emit ctx rfl]
  · rwa [ProxyContext.trail_emit ctx rfl]
  · rwa [startStream, ProxyContext.trail_liveTouch, ProxyContext.trail_emit ctx rfl]

/-- **The trail of a response** that is answered. -/
theorem Waiting.handleResponse (h : Waiting S request headers tried ctx.trail) (stream : Bool)
    (response : UpstreamResponse) (hstay : (handleResponse S stream ctx response).2 ≠ .dropped)
    (hshutdown : readBufferedUpstreamBody [] response.body ≠ some (.error .shutdown)) :
    Closed S request headers tried (handleResponse S stream ctx response).1.trail := by
  revert hstay
  unfold Onair.handleResponse
  split_ifs
  · exact fun hstay => h.nonSuccessResponse response hstay
  · exact fun _ => h.streamResponse response
  · exact fun hstay => h.bufferedResponse response hstay hshutdown

end Response

/-! ### Routed requests -/

/-- A backend that is called as it is. -/
def plainRoute (backendId : String) : SelectedRoute where
  backendId := backendId
  baseUrl := "http://" ++ backendId
  apiKey := none
  timeoutMs := 1000
  publicModel := none
  backendModel := none
  requestMode := .native
  policies := {}
  weight := 1
  routeKeyLabel := "none"
  extraBody := []
  requestHeaders := []
  exposeBackendErrors := false
  streamCapture := false
  anthropicMaxTokens := none

/-- Services that capture nothing. -/
def plainServices : Services where
  codec := Json.reference
  form := Form.reference
  backendTarget := id
  headerName := some
  headerValue value := some (Text.asBytes value)
  capture _ := none
  rewrite := rewriteRequestBodyForModeWithPolicies Json.reference Form.reference

/-- A request for the list of models. -/
def modelsRequest : Incoming where
  observation :=
    { inspectorEnabled := true
      recordId := "1-1-1"
      clientRequestId := none
      startedAtUnixMs := 1
      method := "GET"
      path := "/v1/models"
      query := none
      requestBodyBytes := 0 }
  headers := []
  debugCapture := {}
  routeName := "models"
  identity := "alice"
  shape := {}
  method := "GET"
  path := "/v1/models"
  query := none
  body := []
  contentType := none

/-- A backend that cannot be reached, and one that answers with a status. -/
def refusedThen (status : ℕ) : ℕ → Option SendPoll
  | 0 => some { result := .error { isConnect := true } }
  | _ => some { result := .ok { status := status, headers := [], remoteAddr := none, body := [] } }

end Onair
