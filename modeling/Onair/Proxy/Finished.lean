import Onair.Proxy.Ledger

/-!
# Which streams count as finished

A stream ends because the upstream ended or failed, because of a shutdown, or because the client
went away. Only in the first case should it count as finished: the record says that it is complete,
the backend is healthy, and the client is sent the events that close its stream.

* `streamEnding`, `streamChunks`: how a stream ends, and what came until then;
* `LoopSpec`, `normalizedLoop_spec`, `rawLoop_spec`: what the loops do;
* `drop_effects`: what the `Drop` of a stream records;
* **`finished_iff`**: only a finished stream counts as finished, if and only if it is not cut by a
  shutdown.
-/

namespace Onair

open Json

/-! ### Endings -/

/-- The wait sees a shutdown. -/
def ChunkPoll.seesShutdown (poll : ChunkPoll) : Bool :=
  poll.shutdown || poll.changed.any ShutdownChange.stops

theorem nextStreamChunk_eq (poll : ChunkPoll) :
    nextStreamChunk poll = if poll.seesShutdown then none else poll.next := by
  unfold nextStreamChunk ChunkPoll.seesShutdown
  cases poll.shutdown with
  | true => rfl
  | false => cases poll.changed <;> rfl

/-- How a stream ends. -/
inductive StreamEnding where
  | ended
  | failed (error : ClientError)
  | cut
  | dropped
  deriving DecidableEq, Repr

/-- How the waits for a stream end: the upstream ended or failed, there was a shutdown, or the
client went away. -/
def streamEnding : List ChunkPoll → StreamEnding
  | [] => .dropped
  | poll :: polls =>
    if poll.seesShutdown then .cut
    else
      match poll.next with
      | none => .ended
      | some (.error error) => .failed error
      | some (.ok _) => streamEnding polls

/-- The chunks that come until then. -/
def streamChunks : List ChunkPoll → List Bytes
  | [] => []
  | poll :: polls =>
    if poll.seesShutdown then []
    else
      match poll.next with
      | some (.ok chunk) => chunk :: streamChunks polls
      | _ => []

namespace StreamEnding

/-- The loop takes the stream for complete. -/
def complete : StreamEnding → Bool
  | ended | cut => true
  | failed _ | dropped => false

/-- The error of the stream. -/
def errorKind : StreamEnding → Option String
  | failed error => some (upstreamErrorKind error)
  | ended | cut | dropped => none

end StreamEnding

/-! ### The loops -/

/-- What a stream is sent in the course of some effects. -/
def yieldedBytes (effects : List Effect) : Bytes := (effects.filterMap Effect.yielded).flatten

theorem yieldedBytes_append (es es' : List Effect) :
    yieldedBytes (es ++ es') = yieldedBytes es ++ yieldedBytes es' := by
  rw [yieldedBytes, List.filterMap_append, List.flatten_append]
  rfl

/-- The effects of a loop: snapshots, and what the client is sent. -/
def Effect.fromLoop : Effect → Bool
  | .upsert _ | .yield _ | .yieldError _ => true
  | _ => false

/-- **What a loop does**: it sends what it makes of the chunks, and its tail if it takes the stream
for complete. -/
structure LoopSpec (life life' : StreamLife) (ending : StreamEnding) (pushed tail : Bytes) :
    Prop where
  complete : life'.bodyComplete = ending.complete
  errorKind : life'.streamErrorKind = ending.errorKind
  labels : life'.context.labels = life.context.labels
  effects : ∃ es, life'.context.effects = life.context.effects ++ es ∧
    (∀ e ∈ es, e.fromLoop = true) ∧
    yieldedBytes es = pushed ++ if ending.complete then tail else []

theorem snapshot_fromLoop (live : LiveRecord) :
    ∀ e ∈ live.snapshot.map Effect.upsert, e.fromLoop = true := by
  intro e he
  obtain ⟨r, -, rfl⟩ := List.mem_map.mp he
  rfl

theorem yieldedBytes_eq_nil {es : List Effect} (h : ∀ e ∈ es, e.yielded = none) :
    yieldedBytes es = [] := by
  rw [yieldedBytes, List.filterMap_eq_nil_iff.mpr h]
  rfl

theorem snapshot_yielded (records : List InspectorRequestRecord) :
    yieldedBytes (records.map Effect.upsert) = [] := by
  refine yieldedBytes_eq_nil fun e he => ?_
  obtain ⟨r, -, rfl⟩ := List.mem_map.mp he
  rfl

theorem yield_effects (life : StreamLife) (bytes : Bytes) :
    ∃ es, (life.yield bytes).context.effects = life.context.effects ++ es ∧
      (∀ e ∈ es, e.fromLoop = true) ∧ yieldedBytes es = bytes := by
  unfold StreamLife.yield
  split_ifs with h
  · rw [List.isEmpty_iff.mp h]
    exact ⟨[], by simp, by simp, rfl⟩
  · exact ⟨[.yield bytes], rfl, by simp [Effect.fromLoop], by simp [yieldedBytes, Effect.yielded]⟩

theorem yield_fields (life : StreamLife) (bytes : Bytes) :
    (life.yield bytes).bodyComplete = life.bodyComplete ∧
      (life.yield bytes).streamErrorKind = life.streamErrorKind ∧
      (life.yield bytes).metrics = life.metrics ∧
      (life.yield bytes).context.labels = life.context.labels := by
  unfold StreamLife.yield
  split_ifs <;> exact ⟨rfl, rfl, rfl, rfl⟩

theorem LoopSpec.chunk {life life₁ life' : StreamLife} {ending : StreamEnding}
    {bytes pushed tail : Bytes} (hlabels : life₁.context.labels = life.context.labels)
    (heffects : ∃ es, life₁.context.effects = life.context.effects ++ es ∧
      (∀ e ∈ es, e.fromLoop = true) ∧ yieldedBytes es = bytes)
    (h : LoopSpec life₁ life' ending pushed tail) :
    LoopSpec life life' ending (bytes ++ pushed) tail where
  complete := h.complete
  errorKind := h.errorKind
  labels := h.labels.trans hlabels
  effects := by
    obtain ⟨es, hes, hloop, hyield⟩ := heffects
    obtain ⟨es', hes', hloop', hyield'⟩ := h.effects
    refine ⟨es ++ es', by rw [hes', hes, List.append_assoc],
      List.forall_mem_append.mpr ⟨hloop, hloop'⟩, ?_⟩
    rw [yieldedBytes_append, hyield, hyield', List.append_assoc]

theorem fail_spec {life : StreamLife} (hcomplete : life.bodyComplete = false)
    (error : ClientError) (tail : Bytes) :
    LoopSpec life (life.fail error) (.failed error) [] tail where
  complete := hcomplete
  errorKind := rfl
  labels := rfl
  effects := ⟨[.yieldError (upstreamErrorKind error)], rfl, by simp [Effect.fromLoop], rfl⟩

theorem dropped_spec {life : StreamLife} (hcomplete : life.bodyComplete = false)
    (herror : life.streamErrorKind = none) (tail : Bytes) :
    LoopSpec life life .dropped [] tail where
  complete := hcomplete
  errorKind := herror
  labels := rfl
  effects := ⟨[], by simp, by simp, rfl⟩

theorem touch_yield_effects (life life₁ : StreamLife) (bytes : Bytes)
    (h : life₁.context = life.context.liveTouch) :
    ∃ es, (life₁.yield bytes).context.effects = life.context.effects ++ es ∧
      (∀ e ∈ es, e.fromLoop = true) ∧ yieldedBytes es = bytes := by
  obtain ⟨es, hes, hloop, hyield⟩ := yield_effects life₁ bytes
  refine ⟨(life.context.liveRecord.update id).snapshot.map .upsert ++ es, ?_,
    List.forall_mem_append.mpr ⟨snapshot_fromLoop _, hloop⟩, ?_⟩
  · rw [hes, h, ← List.append_assoc]
    rfl
  · rw [yieldedBytes_append, snapshot_yielded, hyield, List.nil_append]

theorem complete_spec {life life₁ : StreamLife} {ending : StreamEnding}
    (hending : ending = .ended ∨ ending = .cut) (hcomplete : life₁.bodyComplete = true)
    (herror : life₁.streamErrorKind = none) (hcontext : life₁.context = life.context.liveTouch)
    (tail : Bytes) : LoopSpec life (life₁.yield tail) ending [] tail where
  complete := by
    rw [(yield_fields life₁ tail).1, hcomplete]
    obtain rfl | rfl := hending <;> rfl
  errorKind := by
    rw [(yield_fields life₁ tail).2.1, herror]
    obtain rfl | rfl := hending <;> rfl
  labels := by
    rw [(yield_fields life₁ tail).2.2.2, hcontext]
    rfl
  effects := by
    obtain ⟨es, hes, hloop, hyield⟩ := touch_yield_effects life life₁ tail hcontext
    refine ⟨es, hes, hloop, ?_⟩
    obtain rfl | rfl := hending <;> simpa [StreamEnding.complete] using hyield

/-- **The loop over a stream of events.** -/
theorem normalizedLoop_spec (c : Codec) (strategy : SseStrategy) {life : StreamLife}
    (hcomplete : life.bodyComplete = false) (herror : life.streamErrorKind = none)
    (polls : List ChunkPoll) :
    LoopSpec life (normalizedLoop c strategy life polls) (streamEnding polls)
      (Mealy.run (streamChunk c) (strategy, life.metrics) (streamChunks polls)).2
      (streamEnd c
        (Mealy.run (streamChunk c) (strategy, life.metrics) (streamChunks polls)).1).2 := by
  induction polls generalizing life strategy with
  | nil => exact dropped_spec hcomplete herror _
  | cons poll polls ih =>
    unfold normalizedLoop streamEnding streamChunks
    rw [nextStreamChunk_eq]
    cases hsees : poll.seesShutdown with
    | true =>
      rw [if_pos rfl, if_pos rfl, if_pos rfl]
      exact @complete_spec life { life.markBodyComplete with metrics := _ } .cut (.inr rfl) rfl
        herror rfl _
    | false =>
      rw [if_neg Bool.false_ne_true, if_neg Bool.false_ne_true, if_neg Bool.false_ne_true]
      cases hnext : poll.next with
      | none =>
        exact @complete_spec life { life.markBodyComplete with metrics := _ } .ended (.inl rfl) rfl
          herror rfl _
      | some item =>
        cases item with
        | error error => exact fail_spec hcomplete error _
        | ok chunk =>
          have hstep := yield_fields
            { life.markBodyChunk with
              metrics := (streamChunk c (strategy, life.metrics) chunk).1.2 }
            (streamChunk c (strategy, life.metrics) chunk).2
          have hih := ih (streamChunk c (strategy, life.metrics) chunk).1.1
            (hstep.1.trans hcomplete) (hstep.2.1.trans herror)
          rw [hstep.2.2.1] at hih
          exact LoopSpec.chunk hstep.2.2.2 (touch_yield_effects life _ _ rfl) hih

/-- **The loop over a stream that is sent on as it comes.** -/
theorem rawLoop_spec {life : StreamLife} (hcomplete : life.bodyComplete = false)
    (herror : life.streamErrorKind = none) (polls : List ChunkPoll) :
    LoopSpec life (rawLoop life polls) (streamEnding polls) (streamChunks polls).flatten [] := by
  induction polls generalizing life with
  | nil => exact dropped_spec hcomplete herror _
  | cons poll polls ih =>
    unfold rawLoop streamEnding streamChunks
    rw [nextStreamChunk_eq]
    cases hsees : poll.seesShutdown with
    | true =>
      rw [if_pos rfl, if_pos rfl, if_pos rfl]
      exact @complete_spec life life.markBodyComplete .cut (.inr rfl) rfl herror rfl []
    | false =>
      rw [if_neg Bool.false_ne_true, if_neg Bool.false_ne_true, if_neg Bool.false_ne_true]
      cases hnext : poll.next with
      | none => exact @complete_spec life life.markBodyComplete .ended (.inl rfl) rfl herror rfl []
      | some item =>
        cases item with
        | error error => exact fail_spec hcomplete error _
        | ok chunk =>
          have heffects : ∃ es, (life.context.liveTouch.emit (.yield chunk)).effects =
              life.context.effects ++ es ∧ (∀ e ∈ es, e.fromLoop = true) ∧
              yieldedBytes es = chunk := by
            refine ⟨(life.context.liveRecord.update id).snapshot.map .upsert ++ [.yield chunk],
              by simp [ProxyContext.emit, ProxyContext.liveTouch, ProxyContext.updateLive],
              List.forall_mem_append.mpr ⟨snapshot_fromLoop _, by simp [Effect.fromLoop]⟩, ?_⟩
            rw [yieldedBytes_append, snapshot_yielded]
            simp [yieldedBytes, Effect.yielded]
          exact LoopSpec.chunk (by rfl) heffects (@ih { life.markBodyChunk with
            context := life.markBodyChunk.context.emit (.yield chunk) } hcomplete herror)

/-! ### The end of a stream -/

theorem effects_ensureCurrentDebugCapture (S : Services) (ctx : ProxyContext) :
    (ctx.ensureCurrentDebugCapture S).effects = ctx.effects := by
  change (ctx.ensureFailureDebugCapture S).effects = ctx.effects
  unfold ProxyContext.ensureFailureDebugCapture
  split <;> rfl

theorem effects_pushFinalAttempt (ctx : ProxyContext) (status : ℕ) (upstreamStatus : Option ℕ)
    (outcome : String) (errorKind : Option String) :
    (ctx.pushFinalAttempt status upstreamStatus outcome errorKind).effects = ctx.effects := by
  unfold ProxyContext.pushFinalAttempt
  split <;> rfl

theorem effects_recordInspectorRequest (ctx : ProxyContext) (outcome : InspectorOutcome)
    (status : ℕ) (errorKind : Option String) (size : Option ℕ) (tokens : InspectorTokenCounts) :
    ∃ records : List InspectorRequestRecord,
      (ctx.recordInspectorRequest outcome status errorKind size tokens).effects =
        ctx.effects ++ records.map .upsertFinal ∧ ∀ r ∈ records, r.outcome = outcome := by
  unfold ProxyContext.recordInspectorRequest
  split_ifs
  · exact ⟨[ctx.finalRecord outcome status errorKind size tokens], rfl, by
      simp [ProxyContext.finalRecord]⟩
  · exact ⟨[], by simp, by simp⟩

theorem closedContext_effects (S : Services) (life : StreamLife) :
    ∃ snapshots : List InspectorRequestRecord, (life.closedContext S).effects =
      life.context.effects ++ snapshots.map Effect.upsert := by
  refine ⟨(life.context.liveRecord.update id).snapshot, ?_⟩
  unfold StreamLife.closedContext
  dsimp only
  rw [effects_pushFinalAttempt]
  split_ifs
  · rw [effects_ensureCurrentDebugCapture]
    rfl
  · rfl

/-- **What the `Drop` of a stream records**: a snapshot, the usage, the health of the backend, the
last record, and the duration. -/
theorem drop_effects (S : Services) (life : StreamLife) :
    ∃ (snapshots records : List InspectorRequestRecord) (labels : MetricLabels),
      (life.drop S).effects = life.context.effects ++ (snapshots.map Effect.upsert ++
        (life.usageEffects ++ life.health) ++ records.map Effect.upsertFinal ++
        [.recordStream labels life.statusCode]) ∧
      ∀ r ∈ records, r.outcome = life.inspectorOutcome := by
  obtain ⟨snapshots, hclosed⟩ := closedContext_effects S life
  obtain ⟨records, hrecords, houtcome⟩ := effects_recordInspectorRequest
    ((life.closedContext S).emitAll (life.usageEffects ++ life.health)) life.inspectorOutcome
    life.statusCode life.streamErrorKind none (inspectorTokens life.metrics.usage)
  refine ⟨snapshots, records, (ProxyContext.recordInspectorRequest
    ((life.closedContext S).emitAll (life.usageEffects ++ life.health)) life.inspectorOutcome
    life.statusCode life.streamErrorKind none (inspectorTokens life.metrics.usage)).labels, ?_,
    houtcome⟩
  rw [StreamLife.drop, ProxyContext.emit, hrecords, ProxyContext.emitAll, hclosed]
  simp only [List.append_assoc]

/-! ### Finished streams -/

/-- What a stream records and sends. -/
def streamEffects (S : Services) (ctx : ProxyContext) (response : UpstreamResponse) : List Effect :=
  (streamResponse S ctx response).1.effects.drop ctx.effects.length

/-- What a stream sends of the chunks that came, and what it would send at its end. -/
def streamOutput (S : Services) (ctx : ProxyContext) (response : UpstreamResponse) :
    Bytes × Bytes :=
  if ctx.labels.stream || isEventStreamContentType (headerStr response.headers "content-type") then
    let r := Mealy.run (streamChunk S.codec)
      (SseStrategy.new ctx.route.requestMode ctx.route.backendModel ctx.route.publicModel
        (ctx.labels.route != "chat_completions" || ctx.clientStreamUsageRequested), {})
      (streamChunks response.body)
    (r.2, (streamEnd S.codec r.1).2)
  else ((streamChunks response.body).flatten, [])

/-- **Only a finished stream counts as finished**: the body is marked as complete, the record says
that the request is, the backend is recorded as healthy, and what `finish` gives is sent, only if
the upstream has ended; a stream that was cut by a shutdown is recorded as incomplete. -/
structure OnlyFinished (S : Services) (ctx : ProxyContext) (response : UpstreamResponse) :
    Prop where
  body : (streamLoop S ctx response).bodyComplete = true → streamEnding response.body = .ended
  outcome : ∀ r, .upsertFinal r ∈ streamEffects S ctx response → r.outcome = .completed →
    streamEnding response.body = .ended
  health : ∀ backend status, .recordSuccess backend status ∈ streamEffects S ctx response →
    streamEnding response.body = .ended
  terminal : yieldedBytes (streamEffects S ctx response) =
    (streamOutput S ctx response).1 ++
      if streamEnding response.body = .ended then (streamOutput S ctx response).2 else []
  cut : streamEnding response.body = .cut →
    ∀ r, .upsertFinal r ∈ streamEffects S ctx response → r.outcome = .streamIncomplete

section Finished

variable (S : Services) (ctx : ProxyContext) (response : UpstreamResponse)

theorem streamLoop_spec : LoopSpec (startStream ctx response) (streamLoop S ctx response)
    (streamEnding response.body) (streamOutput S ctx response).1
    (streamOutput S ctx response).2 := by
  unfold streamLoop streamOutput
  dsimp only
  split_ifs
  · exact normalizedLoop_spec S.codec _ rfl rfl response.body
  · exact rawLoop_spec rfl rfl response.body

/-- **What a stream records**: what its loop does, and then its `Drop`. -/
theorem streamEffects_spec :
    ∃ (starting snapshots records : List InspectorRequestRecord) (es : List Effect)
      (labels : MetricLabels), streamEffects S ctx response =
        Effect.recordRequest ctx.labels response.status :: (starting.map Effect.upsert ++ es ++
          (snapshots.map Effect.upsert ++ ((streamLoop S ctx response).usageEffects ++
            (streamLoop S ctx response).health) ++ records.map Effect.upsertFinal ++
            [.recordStream labels (streamLoop S ctx response).statusCode])) ∧
      (∀ e ∈ es, e.fromLoop = true) ∧
      yieldedBytes es = (streamOutput S ctx response).1 ++
        (if (streamEnding response.body).complete then (streamOutput S ctx response).2 else []) ∧
      ∀ r ∈ records, r.outcome = (streamLoop S ctx response).inspectorOutcome := by
  obtain ⟨es, hes, hloop, hyield⟩ := (streamLoop_spec S ctx response).effects
  obtain ⟨snapshots, records, labels, hdrop, houtcome⟩ := drop_effects S (streamLoop S ctx response)
  refine ⟨((ctx.emit (.recordRequest ctx.labels response.status)).liveRecord.update id).snapshot,
    snapshots, records, es, labels, ?_, hloop, hyield, houtcome⟩
  have hstart : (startStream ctx response).context.effects = ctx.effects ++
      (Effect.recordRequest ctx.labels response.status ::
        ((ctx.emit (.recordRequest ctx.labels response.status)).liveRecord.update
          id).snapshot.map Effect.upsert) := List.append_assoc ctx.effects [_] _
  rw [streamEffects, streamResponse, hdrop, hes, hstart]
  simp only [List.append_assoc, List.cons_append, List.drop_left]

variable {S ctx response}

theorem mem_health_of_mem {backend : String} {status : ℕ}
    (h : .recordSuccess backend status ∈ streamEffects S ctx response) :
    .recordSuccess backend status ∈ (streamLoop S ctx response).health := by
  obtain ⟨starting, snapshots, records, es, labels, heffects, hloop, -, -⟩ :=
    streamEffects_spec S ctx response
  have hes : .recordSuccess backend status ∉ es := fun hmem => Bool.noConfusion (hloop _ hmem)
  have husage : .recordSuccess backend status ∉ (streamLoop S ctx response).usageEffects := by
    unfold StreamLife.usageEffects
    split_ifs <;> simp
  rw [heffects] at h
  simpa [hes, husage] using h

theorem outcome_of_mem {r : InspectorRequestRecord}
    (h : .upsertFinal r ∈ streamEffects S ctx response) :
    r.outcome = (streamLoop S ctx response).inspectorOutcome := by
  obtain ⟨starting, snapshots, records, es, labels, heffects, hloop, -, houtcome⟩ :=
    streamEffects_spec S ctx response
  have hes : .upsertFinal r ∉ es := fun hmem => Bool.noConfusion (hloop _ hmem)
  have hquiet : .upsertFinal r ∉ (streamLoop S ctx response).usageEffects ++
      (streamLoop S ctx response).health := fun hmem => by
    cases ((streamLoop S ctx response).quiet _ hmem).2
  rw [List.mem_append, not_or] at hquiet
  rw [heffects] at h
  have hrecords : r ∈ records := by
    simpa [hes, hquiet.1, hquiet.2] using h
  exact houtcome r hrecords

theorem usage_health_yielded (life : StreamLife) :
    yieldedBytes (life.usageEffects ++ life.health) = [] := by
  refine yieldedBytes_eq_nil fun e he => ?_
  unfold StreamLife.usageEffects StreamLife.health at he
  obtain he | he := List.mem_append.mp he
  · split_ifs at he
    · cases he
    · obtain rfl := List.mem_singleton.mp he
      rfl
  · split at he
    · obtain rfl := List.mem_singleton.mp he
      rfl
    · split_ifs at he
      · obtain rfl := List.mem_singleton.mp he
        rfl
      · cases he

theorem streamEffects_yielded : yieldedBytes (streamEffects S ctx response) =
    (streamOutput S ctx response).1 ++
      (if (streamEnding response.body).complete then (streamOutput S ctx response).2 else []) := by
  obtain ⟨starting, snapshots, records, es, labels, heffects, -, hyield, -⟩ :=
    streamEffects_spec S ctx response
  have hfinal : yieldedBytes (records.map Effect.upsertFinal) = [] := by
    refine yieldedBytes_eq_nil fun e he => ?_
    obtain ⟨r, -, rfl⟩ := List.mem_map.mp he
    rfl
  have hrequest (labels : MetricLabels) (status : ℕ) (es : List Effect) :
      yieldedBytes (.recordRequest labels status :: es) = yieldedBytes es := rfl
  have hstream (labels : MetricLabels) (status : ℕ) :
      yieldedBytes [.recordStream labels status] = [] := rfl
  rw [heffects, hrequest]
  simp only [yieldedBytes_append, snapshot_yielded, hfinal, hstream, hyield]
  rw [← yieldedBytes_append, usage_health_yielded]
  simp

/-- A stream that is taken for complete is one that ended, or that was cut. -/
theorem StreamEnding.complete_iff {ending : StreamEnding} :
    ending.complete = true ↔ ending = .ended ∨ ending = .cut := by
  cases ending <;> simp [StreamEnding.complete]

theorem complete_of_health {backend : String} {status : ℕ}
    (h : .recordSuccess backend status ∈ streamEffects S ctx response) :
    (streamEnding response.body).complete = true := by
  have hmem := mem_health_of_mem h
  rw [← (streamLoop_spec S ctx response).complete]
  unfold StreamLife.health at hmem
  split at hmem
  · simp at hmem
  · split_ifs at hmem with hcomplete
    · exact hcomplete
    · cases hmem

theorem complete_of_outcome {r : InspectorRequestRecord}
    (h : .upsertFinal r ∈ streamEffects S ctx response) (hcompleted : r.outcome = .completed) :
    (streamEnding response.body).complete = true := by
  have houtcome := (outcome_of_mem h).symm.trans hcompleted
  rw [← (streamLoop_spec S ctx response).complete]
  unfold StreamLife.inspectorOutcome at houtcome
  split at houtcome
  · cases houtcome
  · split_ifs at houtcome with hcomplete
    exact hcomplete

/-- A stream that is cut is marked as complete. -/
theorem bodyComplete_of_cut (hcut : streamEnding response.body = .cut) :
    (streamLoop S ctx response).bodyComplete = true := by
  rw [(streamLoop_spec S ctx response).complete, hcut]
  rfl

theorem not_onlyFinished_of_cut (hcut : streamEnding response.body = .cut) :
    ¬OnlyFinished S ctx response := fun h => by
  have hended := h.body (bodyComplete_of_cut hcut)
  rw [hcut] at hended
  cases hended

variable (S ctx response)

/-- **Only a finished stream counts as finished, if and only if it is not cut by a shutdown**: the
loop then takes it for complete. -/
theorem finished_iff : OnlyFinished S ctx response ↔ streamEnding response.body ≠ .cut := by
  refine ⟨fun h hcut => not_onlyFinished_of_cut hcut h, fun hcut => ?_⟩
  have hended : (streamEnding response.body).complete = true →
      streamEnding response.body = .ended := fun hcomplete =>
    (StreamEnding.complete_iff.mp hcomplete).resolve_right hcut
  exact
    { body := fun hcomplete =>
        hended ((streamLoop_spec S ctx response).complete.symm.trans hcomplete)
      outcome := fun r hr hcompleted => hended (complete_of_outcome hr hcompleted)
      health := fun backend status hmem => hended (complete_of_health hmem)
      terminal := by
        rw [streamEffects_yielded]
        cases hending : streamEnding response.body <;> simp [StreamEnding.complete]
        exact absurd hending hcut
      cut := fun h => absurd h hcut }

end Finished

/-- A stream of events of which one chunk comes, and then a shutdown. -/
def cutStream : UpstreamResponse where
  status := 200
  headers := [("content-type", Text.asBytes "text/event-stream")]
  remoteAddr := none
  body := [{ next := some (.ok (Text.asBytes "data: {}\n\n")) }, { shutdown := true }]

theorem not_onlyFinished_cutStream :
    ¬OnlyFinished plainServices (routedContext plainServices modelsRequest (plainRoute "a") 1)
      cutStream :=
  not_onlyFinished_of_cut rfl

end Onair
