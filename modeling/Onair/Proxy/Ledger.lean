import Onair.Proxy.Fallback

/-!
# Every request is accounted for once

A routed request is counted once in `onair.requests`, and its record in the inspector ends with one
that says how it ended. This is done at each exit of `do_proxy` by hand, and in the `Drop` of a
stream; three exits leave it out.

* `InFlight`, `AccountedOnce`: the ledger of a request on its way, and at its end;
* `BodyEnds`, `Settles`: the answers after which nothing is left out;
* **`accounted_iff`**: a request is accounted for once if and only if all its answers are such.
-/

namespace Onair

/-! ### Ledgers -/

/-- The ledger of a request on its way: it was counted `n` times, and all its records say that it is
in flight. -/
structure InFlightLedger (n : ℕ) (id : String) (effects : List Effect) (recordId : String)
    (live : LiveRecord) (enabled : Bool) : Prop where
  counted : effects.countP Effect.isRequest = n
  written : ∀ r ∈ effects.filterMap Effect.written, r.outcome = .inFlight ∧ r.id = id
  base : recordId = id
  liveEnabled : live.enabled = true
  enabled : enabled = true
  liveOutcome : live.record.outcome = .inFlight
  liveId : live.record.id = id

/-- The request is on its way. -/
def InFlight (n : ℕ) (id : String) (ctx : ProxyContext) : Prop :=
  InFlightLedger n id ctx.effects ctx.inspectorBase.recordId ctx.liveRecord ctx.inspectorEnabled

/-- **A request that was accounted for once**: it was counted once; its records are snapshots of it
in flight and one last record that says how it ended; this one is found in the store right after it
was written, and later unless it was evicted, whatever other requests write. -/
structure AccountedOnce (id : String) (ctx : ProxyContext) : Prop where
  counted : ctx.requestCount = 1
  recorded : ∃ snapshots final, ctx.writtenRecords = snapshots ++ [final] ∧
    (∀ r ∈ snapshots, r.outcome = .inFlight ∧ r.id = id) ∧
    final.outcome ≠ .inFlight ∧ final.id = id ∧
    ∀ (store : InspectorStore) (before after : List (ℕ × InspectorRequestRecord)) (retention : ℕ),
      (∀ r ∈ store, r.id ≠ id) → (∀ w ∈ after, w.2.id ≠ id) →
      (store.writeAll (before ++ [(retention, final)])).get id = some final ∧
        ((store.writeAll (before ++ (retention, final) :: after)).get id = some final ∨
          (store.writeAll (before ++ (retention, final) :: after)).get id = none)

variable {n : ℕ} {id : String} {ctx : ProxyContext}

theorem InFlight.not_accountedOnce (h : InFlight 0 id ctx) : ¬AccountedOnce id ctx := fun hacc =>
  absurd (h.counted.symm.trans hacc.counted) Nat.zero_ne_one

theorem InFlight.emit (h : InFlight n id ctx) {e : Effect} (he : e.written = none) :
    InFlight (n + if e.isRequest then 1 else 0) id (ctx.emit e) :=
  { h with
    counted := (ctx.requestCount_emit e).trans (congrArg (· + _) h.counted)
    written := fun r hr => by
      have hmem : r ∈ (ctx.emit e).writtenRecords := hr
      rw [ctx.writtenRecords_emit, he, Option.toList_none, List.append_nil] at hmem
      exact h.written r hmem }

theorem InFlight.quiet (h : InFlight n id ctx) {e : Effect} (hrequest : e.isRequest = false)
    (hwritten : e.written = none) : InFlight n id (ctx.emit e) := by
  have hemit := h.emit hwritten
  rwa [hrequest] at hemit

theorem InFlight.updateLive (h : InFlight n id ctx)
    {mutate : InspectorRequestRecord → InspectorRequestRecord}
    (houtcome : (mutate ctx.liveRecord.record).outcome = .inFlight)
    (hid : (mutate ctx.liveRecord.record).id = id) : InFlight n id (ctx.updateLive mutate) := by
  have hlive : ctx.liveRecord.update mutate =
      { ctx.liveRecord with record := mutate ctx.liveRecord.record } := if_pos h.liveEnabled
  have hsnapshot : (ctx.liveRecord.update mutate).snapshot = [mutate ctx.liveRecord.record] := by
    rw [hlive, LiveRecord.snapshot, if_pos h.liveEnabled]
  refine ⟨(ctx.requestCount_updateLive mutate).trans h.counted, fun r hr => ?_, h.base, ?_,
    h.enabled,
    ?_, ?_⟩
  · have hmem : r ∈ (ctx.updateLive mutate).writtenRecords := hr
    rw [ctx.writtenRecords_updateLive, hsnapshot, List.mem_append, List.mem_singleton] at hmem
    obtain hold | rfl := hmem
    · exact h.written r hold
    · exact ⟨houtcome, hid⟩
  · exact (congrArg LiveRecord.enabled hlive).trans h.liveEnabled
  · exact (congrArg (fun l => l.record.outcome) hlive).trans houtcome
  · exact (congrArg (fun l => l.record.id) hlive).trans hid

theorem InFlight.liveUpsert (h : InFlight n id ctx) : InFlight n id ctx.liveUpsert :=
  h.updateLive rfl h.base

theorem InFlight.liveTouch (h : InFlight n id ctx) : InFlight n id ctx.liveTouch :=
  h.updateLive h.liveOutcome h.liveId

theorem InFlight.write (h : InFlight 1 id ctx) {e : Effect} {final : InspectorRequestRecord}
    (hrequest : e.isRequest = false) (hwritten : e.written = some final)
    (houtcome : final.outcome ≠ .inFlight) (hid : final.id = id) :
    AccountedOnce id (ctx.emit e) where
  counted := by
    rw [ctx.requestCount_emit, hrequest]
    exact h.counted
  recorded := by
    refine ⟨ctx.writtenRecords, final, by rw [ctx.writtenRecords_emit, hwritten]; rfl, h.written,
      houtcome, hid, fun store before after retention hfresh hafter => ?_⟩
    subst hid
    exact InspectorStore.get_writeAll hfresh before retention hafter

theorem AccountedOnce.emit (h : AccountedOnce id ctx) {e : Effect} (hrequest : e.isRequest = false)
    (hwritten : e.written = none) : AccountedOnce id (ctx.emit e) where
  counted := by
    rw [ctx.requestCount_emit, hrequest]
    exact h.counted
  recorded := by
    rw [ctx.writtenRecords_emit, hwritten, Option.toList_none, List.append_nil]
    exact h.recorded

theorem InFlight.recordContextInspector (h : InFlight 1 id ctx) {outcome : InspectorOutcome}
    (houtcome : outcome ≠ .inFlight) (status : ℕ) (errorKind : Option String) (size : Option ℕ)
    (tokens : InspectorTokenCounts) :
    AccountedOnce id (ctx.recordContextInspector outcome status errorKind size tokens) := by
  rw [ProxyContext.recordContextInspector, if_pos h.liveEnabled]
  exact h.write rfl rfl houtcome h.base

theorem InFlight.recordInspectorRequest (h : InFlight 1 id ctx) {outcome : InspectorOutcome}
    (houtcome : outcome ≠ .inFlight) (status : ℕ) (errorKind : Option String) (size : Option ℕ)
    (tokens : InspectorTokenCounts) :
    AccountedOnce id (ctx.recordInspectorRequest outcome status errorKind size tokens) := by
  rw [ProxyContext.recordInspectorRequest, if_pos h.enabled]
  exact h.write rfl rfl houtcome h.base

/-! ### On the way -/

variable {S : Services} {request : RoutedRequest} {body : Bytes}

theorem InFlight.ensureFailureDebugCapture (h : InFlight n id ctx) :
    InFlight n id (ctx.ensureFailureDebugCapture S) := by
  unfold ProxyContext.ensureFailureDebugCapture
  split
  · exact h
  · exact h

theorem InFlight.ensureCurrentDebugCapture (h : InFlight n id ctx) :
    InFlight n id (ctx.ensureCurrentDebugCapture S) :=
  InFlight.ensureFailureDebugCapture (S := S) h

theorem InFlight.pushFinalAttempt (h : InFlight n id ctx) (status : ℕ) (upstreamStatus : Option ℕ)
    (outcome : String) (errorKind : Option String) :
    InFlight n id (ctx.pushFinalAttempt status upstreamStatus outcome errorKind) := by
  unfold ProxyContext.pushFinalAttempt
  split
  · exact h
  · exact h

theorem InFlight.recordFinalAttempt (h : InFlight n id ctx) (status : ℕ)
    (upstreamStatus : Option ℕ) (outcome : String) (errorKind : Option String) :
    InFlight n id (ctx.recordFinalAttempt status upstreamStatus outcome errorKind) := by
  unfold ProxyContext.recordFinalAttempt
  split_ifs
  · exact (h.pushFinalAttempt status upstreamStatus outcome errorKind).liveUpsert
  · exact h

theorem InFlight.startCapture (h : InFlight n id ctx) (pending : PendingDebugCapture) :
    InFlight n id (startCapture S ctx pending) := by
  unfold Onair.startCapture
  split_ifs
  · exact h
  · exact h
  · exact h

theorem InFlight.preparedContext (h : InFlight n id ctx) :
    InFlight n id (preparedContext S request ctx body) := by
  have hstart := (h.quiet (e := .recordBackendAttempt ctx.labels) rfl rfl).liveUpsert.startCapture
    (S := S)
    (pendingCapture S request ctx.clientHeaders ctx.labels ctx.modelLogFields ctx.route body)
  unfold Onair.preparedContext
  dsimp only
  split_ifs
  · exact hstart.liveUpsert.liveUpsert
  · exact hstart.liveUpsert

theorem InFlight.sentContext (h : InFlight n id ctx) :
    InFlight n id (sentContext S request ctx body) :=
  h.preparedContext.quiet rfl rfl

theorem InFlight.applyRoute (h : InFlight n id ctx) (route : SelectedRoute) :
    InFlight n id (ctx.applyRoute S route) := by
  have hbase : ctx.inspectorBase.recordId = id := h.base
  unfold ProxyContext.applyRoute
  refine InFlight.updateLive ?_ h.liveOutcome hbase
  exact h

theorem InFlight.retriedContext (h : InFlight n id ctx) (error : ClientError)
    (nextRoute : SelectedRoute) :
    InFlight n id (retriedContext S request ctx body error nextRoute) := by
  have hfailed : InFlight n id (failedContext S request ctx body) :=
    h.sentContext.ensureFailureDebugCapture
  refine InFlight.applyRoute ?_ nextRoute
  refine InFlight.liveUpsert ?_
  exact hfailed.quiet (e := .recordFailure _ _ _) rfl rfl

theorem InFlight.receiveHeaders (h : InFlight n id ctx) (attempt : InspectorAttemptBuilder)
    (response : UpstreamResponse) : InFlight n id (receiveHeaders ctx attempt response) := by
  refine InFlight.liveUpsert ?_
  exact h

/-! ### Exits -/

theorem InFlight.finalFailureContext (h : InFlight 0 id ctx) (error : ClientError) :
    AccountedOnce id (finalFailureContext S request ctx body error) := by
  have hfailed : InFlight 0 id (failedContext S request ctx body) :=
    h.sentContext.ensureFailureDebugCapture
  have houtcome : (classifyFailure error).inspectorOutcome ≠ .inFlight := by
    cases classifyFailure error <;> nofun
  refine InFlight.recordContextInspector ?_ houtcome _ _ _ _
  exact (hfailed.emit (e := .recordRequest _ _) rfl).quiet (e := .recordFailure _ _ _) rfl rfl

theorem InFlight.recordNonSuccess (h : InFlight 0 id ctx) (clientStatus upstreamStatus : ℕ)
    (exposed : Bool) (size : Option ℕ) :
    AccountedOnce id (recordNonSuccess ctx clientStatus upstreamStatus exposed size) := by
  have hcounted : InFlight 1 id ((ctx.emit (.recordRequest ctx.labels clientStatus)).emit
      (.recordFailure ctx.labels.backend upstreamStatus "upstream_non_success")) :=
    (h.emit (e := .recordRequest _ _) rfl).quiet rfl rfl
  have hfinal := hcounted.recordFinalAttempt clientStatus (some upstreamStatus)
    "upstream_non_success" none
  unfold Onair.recordNonSuccess
  refine InFlight.recordContextInspector ?_ (by nofun) _ _ _ _
  cases exposed
  · exact hfinal
  · exact hfinal

theorem InFlight.answerUpstreamError (h : InFlight 0 id ctx) (upstreamStatus : ℕ)
    (captured : Option CapturedUpstreamErrorBody) :
    AccountedOnce id (answerUpstreamError ctx upstreamStatus captured).1 := by
  unfold Onair.answerUpstreamError
  dsimp only
  split
  · exact h.recordNonSuccess _ _ _ _
  · exact h.recordNonSuccess _ _ _ _

theorem InFlight.recordBodyReadFailure (h : InFlight 0 id ctx) (upstreamStatus : ℕ)
    (error : ClientError) :
    AccountedOnce id (recordBodyReadFailure S ctx upstreamStatus error) := by
  refine InFlight.recordInspectorRequest ?_ (by nofun) _ _ _ _
  refine InFlight.pushFinalAttempt ?_ _ _ _ _
  exact (h.emit (e := .recordRequest _ _) rfl).ensureCurrentDebugCapture.quiet
    (e := .recordFailure _ _ _) rfl rfl

theorem InFlight.recordBuffered (h : InFlight 0 id ctx) (upstreamStatus bodyBytes : ℕ)
    (usage : UsageTotals) :
    AccountedOnce id (recordBuffered ctx upstreamStatus bodyBytes usage) := by
  refine InFlight.recordInspectorRequest ?_ (by nofun) _ _ _ _
  have hcounted : InFlight 1 id (((ctx.liveTouch.emit (.recordUsage ctx.labels usage)).emit
      (.recordRequest ctx.labels upstreamStatus)).emit
        (.recordSuccess ctx.labels.backend upstreamStatus)) :=
    ((h.liveTouch.quiet rfl rfl).emit (e := .recordRequest _ _) rfl).quiet rfl rfl
  have hpushed := hcounted.pushFinalAttempt upstreamStatus (some upstreamStatus) "completed" none
  exact hpushed.updateLive hpushed.liveOutcome hpushed.liveId

theorem InFlight.quietAll (h : InFlight n id ctx) {es : List Effect}
    (hes : ∀ e ∈ es, e.isRequest = false ∧ e.written = none) :
    InFlight n id (ctx.emitAll es) := by
  have hcount : es.countP Effect.isRequest = 0 :=
    List.countP_eq_zero.mpr fun e he => by simp [(hes e he).1]
  have hwritten : es.filterMap Effect.written = [] :=
    List.filterMap_eq_nil_iff.mpr fun e he => (hes e he).2
  exact
    { h with
      counted := by
        rw [ProxyContext.emitAll, List.countP_append, hcount]
        exact h.counted
      written := by
        rw [ProxyContext.emitAll, List.filterMap_append, hwritten, List.append_nil]
        exact h.written }

theorem StreamLife.quiet (life : StreamLife) :
    ∀ e ∈ life.usageEffects ++ life.health, e.isRequest = false ∧ e.written = none := by
  unfold StreamLife.usageEffects StreamLife.health
  intro e he
  rw [List.mem_append] at he
  obtain he | he := he
  · split_ifs at he
    · cases he
    · obtain rfl := List.mem_singleton.mp he
      exact ⟨rfl, rfl⟩
  · split at he
    · obtain rfl := List.mem_singleton.mp he
      exact ⟨rfl, rfl⟩
    · split_ifs at he
      · obtain rfl := List.mem_singleton.mp he
        exact ⟨rfl, rfl⟩
      · cases he

theorem StreamLife.inspectorOutcome_ne (life : StreamLife) :
    life.inspectorOutcome ≠ .inFlight := by
  unfold StreamLife.inspectorOutcome
  split
  · nofun
  · split_ifs <;> nofun

/-- The `Drop` of a stream accounts for it. -/
theorem InFlight.drop {life : StreamLife} (h : InFlight 1 id life.context) :
    AccountedOnce id (life.drop S) := by
  have hlive : InFlight 1 id (if life.streamErrorKind.isSome then
      life.context.liveTouch.ensureCurrentDebugCapture S else life.context.liveTouch) := by
    split_ifs
    · exact h.liveTouch.ensureCurrentDebugCapture
    · exact h.liveTouch
  have hpushed := (hlive.pushFinalAttempt life.statusCode (some life.statusCode)
    life.attemptOutcome life.streamErrorKind).quietAll life.quiet
  exact AccountedOnce.emit (hpushed.recordInspectorRequest life.inspectorOutcome_ne _ _ _ _) rfl rfl

theorem InFlight.streamResponse (h : InFlight 0 id ctx) (response : UpstreamResponse) :
    AccountedOnce id (streamResponse S ctx response).1 := by
  have hstart : InFlight 1 id (startStream ctx response).context :=
    (h.emit (e := .recordRequest _ _) rfl).liveTouch
  refine InFlight.drop (streamLoop_inv (I := InFlight 1 id) (fun _ hctx => hctx.liveTouch)
    (fun _ _ hctx => hctx.quiet rfl rfl) (fun _ _ hctx => hctx.quiet rfl rfl) hstart)

/-! ### Bodies -/

/-- A wait after which the body is waited for again: a chunk came, or the shutdown channel woke
without a shutdown. -/
def ChunkPoll.goesOn (poll : ChunkPoll) : Bool :=
  !poll.shutdown &&
    match poll.changed, poll.next with
    | some change, _ => !change.stops
    | none, some (.ok _) => true
    | none, _ => false

/-- A wait in which the body ended or failed. -/
def ChunkPoll.ends (poll : ChunkPoll) : Bool :=
  !poll.shutdown &&
    match poll.changed, poll.next with
    | some _, _ => false
    | none, some (.ok _) => false
    | none, _ => true

/-- The body ends or fails before there is a shutdown, and before the caller goes away. -/
def BodyEnds (polls : List ChunkPoll) : Prop :=
  ∃ before poll after, polls = before ++ poll :: after ∧
    (∀ p ∈ before, p.goesOn = true) ∧ poll.ends = true

theorem bodyEnds_cons (poll : ChunkPoll) (polls : List ChunkPoll) :
    BodyEnds (poll :: polls) ↔ poll.ends = true ∨ (poll.goesOn = true ∧ BodyEnds polls) := by
  constructor
  · rintro ⟨before, p, after, hsplit, hbefore, hend⟩
    cases before with
    | nil =>
      obtain ⟨rfl, -⟩ := List.cons.inj hsplit
      exact .inl hend
    | cons q before =>
      obtain ⟨rfl, hrest⟩ := List.cons.inj hsplit
      rw [List.forall_mem_cons] at hbefore
      exact .inr ⟨hbefore.1, before, p, after, hrest, hbefore.2, hend⟩
  · rintro (hend | ⟨hon, before, p, after, rfl, hbefore, hend⟩)
    · exact ⟨[], poll, polls, rfl, nofun, hend⟩
    · exact ⟨poll :: before, p, after, rfl, List.forall_mem_cons.mpr ⟨hon, hbefore⟩, hend⟩

/-- A body is read to its end or to its failure if and only if it comes there. -/
theorem readBuffered_settles_iff (bytes : Bytes) (polls : List ChunkPoll) :
    (∃ r, readBufferedUpstreamBody bytes polls = some r ∧ r ≠ .error .shutdown) ↔
      BodyEnds polls := by
  induction polls generalizing bytes with
  | nil =>
    refine iff_of_false (by simp [readBufferedUpstreamBody]) ?_
    rintro ⟨before, poll, after, hsplit, -⟩
    simp at hsplit
  | cons poll polls ih =>
    rw [bodyEnds_cons]
    unfold readBufferedUpstreamBody ChunkPoll.ends ChunkPoll.goesOn
    cases poll.shutdown with
    | true => simp
    | false =>
      cases poll.changed with
      | some change =>
        cases hstops : change.stops with
        | true => simp [hstops]
        | false => simpa [hstops] using ih bytes
      | none =>
        cases poll.next with
        | none => simp
        | some item => cases item <;> simp [ih]

/-! ### Responses -/

/-- A response that is answered whatever else happens: if its status is an error and its body is
read, the caller stays until it is read; if it is not a stream, its body ends. -/
def UpstreamResponse.Settles (reads stream : Bool) (response : UpstreamResponse) : Prop :=
  if !isSuccess response.status then
    reads = true → (readCappedUpstreamErrorBody [] response.body).isSome = true
  else if stream || isEventStreamContentType (headerStr response.headers "content-type") then True
  else BodyEnds response.body

theorem InFlight.nonSuccess_iff (h : InFlight 0 id ctx) (response : UpstreamResponse) :
    AccountedOnce id (nonSuccessResponse S ctx response).1 ↔
      (((ctx.ensureCurrentDebugCapture S).debugCapture.isSome ||
        (ctx.ensureCurrentDebugCapture S).route.exposeBackendErrors) = true →
        (readCappedUpstreamErrorBody [] response.body).isSome = true) := by
  have hcapture : InFlight 0 id (ctx.ensureCurrentDebugCapture S) := h.ensureCurrentDebugCapture
  unfold nonSuccessResponse
  dsimp only
  split_ifs with hreads
  · simp only [hreads, true_implies]
    cases readCappedUpstreamErrorBody [] response.body with
    | none => exact iff_of_false hcapture.not_accountedOnce Bool.false_ne_true
    | some read =>
      cases read with
      | ok captured => exact iff_of_true (hcapture.answerUpstreamError _ _) rfl
      | error error => exact iff_of_true (hcapture.answerUpstreamError _ _) rfl
  · exact iff_of_true (hcapture.answerUpstreamError _ _) fun hread => absurd hread hreads

theorem InFlight.buffered_iff (h : InFlight 0 id ctx) (response : UpstreamResponse) :
    AccountedOnce id (bufferedResponse S ctx response).1 ↔ BodyEnds response.body := by
  rw [← readBuffered_settles_iff []]
  unfold bufferedResponse
  cases readBufferedUpstreamBody [] response.body with
  | none => exact iff_of_false h.not_accountedOnce (by simp)
  | some read =>
    cases read with
    | ok bytes => exact iff_of_true (h.recordBuffered _ _ _) ⟨_, rfl, by nofun⟩
    | error error =>
      cases error with
      | upstream error => exact iff_of_true (h.recordBodyReadFailure _ _) ⟨_, rfl, by nofun⟩
      | shutdown => exact iff_of_false h.not_accountedOnce (by simp)

theorem InFlight.handleResponse_iff (h : InFlight 0 id ctx) (stream : Bool)
    (response : UpstreamResponse) :
    AccountedOnce id (handleResponse S stream ctx response).1 ↔
      response.Settles ((ctx.ensureCurrentDebugCapture S).debugCapture.isSome ||
        (ctx.ensureCurrentDebugCapture S).route.exposeBackendErrors) stream := by
  unfold handleResponse UpstreamResponse.Settles
  split_ifs
  · exact h.nonSuccess_iff response
  · exact iff_of_true (h.streamResponse response) trivial
  · exact h.buffered_iff response

/-! ### The loop -/

section Loop

variable (S) (incoming : Incoming)

/-- The labels of a request on a route. -/
def labelsFor (route : SelectedRoute) : MetricLabels where
  route := incoming.routeName
  identity := incoming.identity
  publicModel := ProxyContext.publicModelLabel incoming.shape.model route
  backend := route.backendId
  stream := incoming.shape.stream

/-- The request is captured when it fails on the route. -/
def capturesFailure (route : SelectedRoute) : Bool :=
  incoming.debugCapture.enabled &&
    (S.capture (pendingCapture S incoming.request incoming.headers (labelsFor incoming route)
      (ModelLogFields.fromRoute incoming.shape.model route) route
      (rewrittenBody S incoming.request route))).isSome

/-- **An attempt after which the request is accounted for**: the request can be rewritten, there is
no shutdown while it is sent, the caller does not go away, and a response settles. -/
def Settles (route : SelectedRoute) (a : Answer) : Prop :=
  (∃ body, S.rewrite (rewriteArgs incoming.request route) = .ok body) ∧
    match a with
    | .response response =>
      response.Settles (capturesFailure S incoming route || route.exposeBackendErrors)
        incoming.shape.stream
    | .failed _ => True
    | .shutdown | .dropped => False

variable {S incoming}

/-- The context is on its route. -/
structure OnRoute (incoming : Incoming) (course : Course) : Prop where
  headers : course.clientHeaders = incoming.headers
  labels : course.labels = labelsFor incoming course.route
  fields : course.modelLogFields = ModelLogFields.fromRoute incoming.shape.model course.route
  requested : course.requestedModel = incoming.shape.model
  capture : course.debugCaptureConfig = incoming.debugCapture

theorem OnRoute.retriedContext (h : OnRoute incoming ctx.course) (error : ClientError)
    (nextRoute : SelectedRoute) :
    OnRoute incoming (retriedContext S request ctx body error nextRoute).course := by
  rw [← failedContext_course S request ctx body] at h
  have hrequested : (failedContext S request ctx body).requestedModel = incoming.shape.model :=
    h.requested
  have hlabels : (failedContext S request ctx body).labels =
      labelsFor incoming (failedContext S request ctx body).route := h.labels
  refine ⟨h.headers, ?_, ?_, h.requested, h.capture⟩
  · change { (failedContext S request ctx body).labels with
      backend := nextRoute.backendId
      publicModel := ProxyContext.publicModelLabel
        (failedContext S request ctx body).requestedModel nextRoute } = labelsFor incoming nextRoute
    rw [hrequested, hlabels]
    rfl
  · change ModelLogFields.fromRoute (failedContext S request ctx body).requestedModel nextRoute = _
    rw [hrequested]
    rfl

/-- The captures of a context: the one that was made, and the one that was put off. -/
def ProxyContext.captures (ctx : ProxyContext) : Option String × Option PendingDebugCapture :=
  (ctx.debugCapture, ctx.pendingDebugCapture)

theorem preparedContext_captures :
    (preparedContext S request ctx body).captures =
      if !ctx.debugCaptureConfig.enabled then (none, none)
      else if ctx.debugCaptureConfig.mode = .all then
        (S.capture (pendingCapture S request ctx.clientHeaders ctx.labels ctx.modelLogFields
          ctx.route body), none)
      else (none, some (pendingCapture S request ctx.clientHeaders ctx.labels ctx.modelLogFields
        ctx.route body)) := by
  have hstart : (preparedContext S request ctx body).captures =
      (startCapture S (ctx.emit (.recordBackendAttempt ctx.labels)).liveUpsert
        (pendingCapture S request ctx.clientHeaders ctx.labels ctx.modelLogFields ctx.route
          body)).captures := by
    unfold preparedContext
    dsimp only
    split_ifs <;> rfl
  rw [hstart, startCapture]
  have hconfig : (ctx.emit (.recordBackendAttempt ctx.labels)).liveUpsert.debugCaptureConfig =
      ctx.debugCaptureConfig := rfl
  rw [hconfig]
  split_ifs <;> rfl

theorem debugCapture_ensureFailureDebugCapture :
    (ctx.ensureFailureDebugCapture S).debugCapture =
      ctx.captures.1.or (ctx.captures.2.bind S.capture) := by
  unfold ProxyContext.ensureFailureDebugCapture ProxyContext.captures
  cases hmade : ctx.debugCapture <;> cases hpending : ctx.pendingDebugCapture <;> simp [hmade]

theorem debugCapture_receiveHeaders (h : OnRoute incoming ctx.course)
    (hrewrite : S.rewrite (rewriteArgs incoming.request ctx.route) = .ok body)
    (attempt : InspectorAttemptBuilder) (response : UpstreamResponse) :
    ((receiveHeaders (sentContext S incoming.request ctx body) attempt
      response).ensureCurrentDebugCapture S).debugCapture.isSome =
      capturesFailure S incoming ctx.route := by
  obtain rfl : rewrittenBody S incoming.request ctx.route = body := rewrittenBody_eq hrewrite
  have hcaptures : (receiveHeaders (sentContext S incoming.request ctx
      (rewrittenBody S incoming.request ctx.route)) attempt response).captures = _ :=
    preparedContext_captures
  have hheaders : ctx.clientHeaders = incoming.headers := h.headers
  have hlabels : ctx.labels = labelsFor incoming ctx.route := h.labels
  have hfields : ctx.modelLogFields = ModelLogFields.fromRoute incoming.shape.model ctx.route :=
    h.fields
  have hconfig : ctx.debugCaptureConfig = incoming.debugCapture := h.capture
  rw [hheaders, hlabels, hfields, hconfig] at hcaptures
  change (ProxyContext.ensureFailureDebugCapture S _).debugCapture.isSome = _
  rw [debugCapture_ensureFailureDebugCapture, capturesFailure]
  cases henabled : incoming.debugCapture.enabled with
  | false => simp [hcaptures, henabled]
  | true => by_cases hmode : incoming.debugCapture.mode = .all <;> simp [hcaptures, henabled, hmode]

theorem route_ensureCurrentDebugCapture :
    (ctx.ensureCurrentDebugCapture S).route = ctx.route := by
  change (ctx.ensureFailureDebugCapture S).route = ctx.route
  unfold ProxyContext.ensureFailureDebugCapture
  split <;> rfl

theorem route_receiveHeaders (attempt : InspectorAttemptBuilder) (response : UpstreamResponse) :
    (receiveHeaders (sentContext S request ctx body) attempt response).route = ctx.route :=
  congrArg Course.route (sentContext_course S request ctx body)

theorem doProxy_rewriteError {sends : ℕ → Option SendPoll} {fallbackRoutes : List SelectedRoute}
    (h : InFlight 0 id ctx) {error : RequestRewriteError}
    (hrewrite : S.rewrite (rewriteArgs request ctx.route) = .error error) :
    ¬AccountedOnce id (doProxy S ctx request fallbackRoutes sends).1 := by
  rw [doProxy, tryRoutes_rewriteError hrewrite]
  exact InFlight.not_accountedOnce (h.quiet rfl rfl)

theorem doProxy_last_iff {sends : ℕ → Option SendPoll} {fallbackRoutes : List SelectedRoute}
    (h : InFlight 0 id ctx) (hroute : OnRoute incoming ctx.course)
    (hlast : fallbackRoutes = [] ∨ again sends 0 = false) :
    AccountedOnce id (doProxy S ctx incoming.request fallbackRoutes sends).1 ↔
      Settles S incoming ctx.route (answer (sends 0)) := by
  cases hrewrite : S.rewrite (rewriteArgs incoming.request ctx.route) with
  | error error =>
    refine iff_of_false (doProxy_rewriteError h hrewrite) fun hsettles => ?_
    obtain ⟨body, hbody⟩ := hsettles.1
    rw [hrewrite] at hbody
    cases hbody
  | ok body =>
    unfold doProxy
    cases ha : answer (sends 0) with
    | response response =>
      rw [tryRoutes_response hrewrite ha]
      have hreceived : InFlight 0 id (receiveHeaders (sentContext S incoming.request ctx body)
          (sentAttempt S incoming.request ctx body) response) := h.sentContext.receiveHeaders _ _
      refine (hreceived.handleResponse_iff incoming.shape.stream response).trans ?_
      rw [debugCapture_receiveHeaders hroute hrewrite, route_ensureCurrentDebugCapture,
        route_receiveHeaders]
      exact ⟨fun hsettles => ⟨⟨body, hrewrite⟩, hsettles⟩, fun hsettles => hsettles.2⟩
    | failed error =>
      rw [again, ha] at hlast
      rw [tryRoutes_failed hrewrite ha hlast]
      exact iff_of_true (h.finalFailureContext error) ⟨⟨body, hrewrite⟩, trivial⟩
    | shutdown =>
      obtain ⟨ctx', hctx', htry⟩ := @tryRoutes_shutdown _ _ _ _ _ fallbackRoutes hrewrite ha
      have hflight : InFlight 0 id ctx' := by
        simp only [List.mem_cons, List.not_mem_nil, or_false] at hctx'
        obtain rfl | rfl := hctx'
        · exact h.preparedContext
        · exact h.sentContext
      rw [htry]
      exact iff_of_false hflight.not_accountedOnce fun hsettles => hsettles.2
    | dropped =>
      rw [tryRoutes_dropped hrewrite ha]
      exact iff_of_false h.sentContext.not_accountedOnce fun hsettles => hsettles.2

/-- **The loop of `do_proxy`** accounts for a request if and only if all its attempts do. -/
theorem doProxy_accounted_iff {sends : ℕ → Option SendPoll} {fallbackRoutes : List SelectedRoute}
    (h : InFlight 0 id ctx) (hroute : OnRoute incoming ctx.course) :
    AccountedOnce id (doProxy S ctx incoming.request fallbackRoutes sends).1 ↔
      ∀ i candidate, (ctx.route :: fallbackRoutes)[i]? = some candidate →
        (∀ j < i, again sends j = true) → Settles S incoming candidate (answer (sends i)) := by
  induction fallbackRoutes generalizing ctx sends with
  | nil =>
    rw [Retry.forall_tried_cons, doProxy_last_iff h hroute (.inl rfl)]
    exact ⟨fun hsettles => ⟨hsettles, fun _ i candidate hi => by simp at hi⟩, fun hall => hall.1⟩
  | cons nextRoute fallbackRoutes ih =>
    rw [Retry.forall_tried_cons]
    cases hagain : again sends 0 with
    | false =>
      rw [doProxy_last_iff h hroute (.inr hagain)]
      exact ⟨fun hsettles => ⟨hsettles, nofun⟩, fun hall => hall.1⟩
    | true =>
      cases hrewrite : S.rewrite (rewriteArgs incoming.request ctx.route) with
      | error error =>
        refine iff_of_false (doProxy_rewriteError h hrewrite) fun hall => ?_
        obtain ⟨body, hbody⟩ := hall.1.1
        rw [hrewrite] at hbody
        cases hbody
      | ok body =>
        cases ha : answer (sends 0) with
        | failed error =>
          have hretry : (classifyFailure error).isRetryable = true := by
            simpa [again, ha, Answer.retryable] using hagain
          have hih := @ih (retriedContext S incoming.request ctx body error nextRoute)
            (fun n => sends (n + 1)) (h.retriedContext error nextRoute)
            (hroute.retriedContext error nextRoute)
          rw [doProxy] at hih
          rw [doProxy, tryRoutes_retry hrewrite ha hretry]
          refine hih.trans ⟨fun hall => ⟨⟨⟨body, hrewrite⟩, trivial⟩, fun _ => hall⟩, fun hall =>
            hall.2 rfl⟩
        | response response => simp [again, ha, Answer.retryable] at hagain
        | shutdown => simp [again, ha, Answer.retryable] at hagain
        | dropped => simp [again, ha, Answer.retryable] at hagain

end Loop

/-! ### Routed requests -/

theorem inFlight_routedContext {incoming : Incoming}
    (h : incoming.observation.inspectorEnabled = true) (route : SelectedRoute) (maxAttempts : ℕ) :
    InFlight 0 incoming.observation.recordId (routedContext S incoming route maxAttempts) := by
  have hsnapshot : ∀ live : LiveRecord, live.enabled = true → live.snapshot = [live.record] :=
    fun live hlive => if_pos hlive
  have heffects : (routedContext S incoming route maxAttempts).effects =
      [.upsert (routedContext S incoming route maxAttempts).liveRecord.record,
        .upsert (routedContext S incoming route maxAttempts).liveRecord.record] := by
    change ((routedContext S incoming route maxAttempts).liveRecord.snapshot ++
      (routedContext S incoming route maxAttempts).liveRecord.snapshot).map Effect.upsert = _
    rw [hsnapshot _ h]
    rfl
  refine ⟨?_, ?_, rfl, h, h, rfl, rfl⟩
  · rw [heffects]
    rfl
  · rw [heffects]
    intro r hr
    have hmem : r ∈ [(routedContext S incoming route maxAttempts).liveRecord.record,
      (routedContext S incoming route maxAttempts).liveRecord.record] := hr
    simp only [List.mem_cons, List.not_mem_nil, or_false, or_self] at hmem
    subst hmem
    exact ⟨rfl, rfl⟩

/-- **A routed request is accounted for once** if and only if it can be rewritten for every
candidate that is tried, no shutdown is seen while it is sent or while a body is read whole, and the
caller does not go away before it is answered. -/
theorem accounted_iff (S : Services) (incoming : Incoming) (fallbackAttempts : ℕ)
    (route : SelectedRoute) (routes : List SelectedRoute) (sends : ℕ → Option SendPoll)
    (henabled : incoming.observation.inspectorEnabled = true) :
    AccountedOnce incoming.observation.recordId
        (forward S incoming fallbackAttempts route routes sends).1 ↔
      ∀ i candidate, (route :: routes.take fallbackAttempts)[i]? = some candidate →
        (∀ j < i, (answer (sends j)).retryable = true) →
        Settles S incoming candidate (answer (sends i)) :=
  doProxy_accounted_iff (inFlight_routedContext henabled route _)
    ⟨rfl, rfl, rfl, rfl, rfl⟩

theorem accounted_iff_sample :
    AccountedOnce "1-1-1"
      (forward plainServices modelsRequest 1 (plainRoute "a") [plainRoute "b"]
        (refusedThen 500)).1 := by
  refine (accounted_iff plainServices modelsRequest 1 (plainRoute "a") [plainRoute "b"]
    (refusedThen 500) rfl).mpr fun i candidate hi hall => ?_
  match i with
  | 0 =>
    obtain rfl : plainRoute "a" = candidate := Option.some.inj hi
    exact ⟨⟨[], rfl⟩, trivial⟩
  | 1 =>
    obtain rfl : plainRoute "b" = candidate := Option.some.inj hi
    exact ⟨⟨[], rfl⟩, fun hreads => by cases hreads⟩
  | i + 2 => cases hi

/-- A request for a response of a model, with a tool call that has no id. -/
def toolRequest : Incoming :=
  let body := Text.asBytes
    "\x7b\"model\":\"gpt\",\"input\":[\x7b\"type\":\"function_call\"\x7d]\x7d"
  { modelsRequest with
    observation := { modelsRequest.observation with
      method := "POST"
      path := "/v1/responses"
      requestBodyBytes := body.length }
    routeName := "responses"
    shape := inspectRequest Json.reference Form.reference body (some "application/json") none
    method := "POST"
    path := "/v1/responses"
    body := body
    contentType := some "application/json" }

/-- A backend for the model. -/
def toolRoute : SelectedRoute :=
  { plainRoute "a" with
    publicModel := some "gpt"
    backendModel := some "gpt-backend"
    routeKeyLabel := "gpt" }

/-- A request that names its model but cannot be rewritten is neither counted nor recorded. -/
theorem not_accounted_rewriteError :
    toolRequest.shape.model = toolRoute.publicModel ∧
      ¬AccountedOnce "1-1-1"
        (forward plainServices toolRequest 0 toolRoute [] fun _ => none).1 := by
  have hmodel : toolRequest.shape.model = some "gpt" := by decide +kernel
  have hflight : InFlight 0 toolRequest.observation.recordId
      (routedContext plainServices toolRequest toolRoute 1) :=
    inFlight_routedContext rfl toolRoute 1
  have hrewrite : plainServices.rewrite (rewriteArgs toolRequest.request toolRoute) =
      .error ⟨"function_call input items require call_id.", some "input"⟩ := by
    decide +kernel
  exact ⟨hmodel, doProxy_rewriteError hflight hrewrite⟩

end Onair
