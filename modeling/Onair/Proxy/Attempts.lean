import Onair.Lib.Retry
import Onair.Proxy.Respond

/-!
# One attempt

What one turn of the loop of `do_proxy` can do, in one lemma for each answer of the outside.

* `Answer`, `answer`: what comes of a request that is sent;
* `sentContext`, `failedContext`, `retriedContext`: the context in the course of an attempt;
* `tryRoutes_rewriteError`, `tryRoutes_response`, `tryRoutes_retry`, …: the turns of the loop.
-/

namespace Onair

/-! ### Answers -/

/-- What comes of a request that is sent. -/
inductive Answer where
  | response (response : UpstreamResponse)
  | failed (error : ClientError)
  | shutdown
  | dropped

/-- What a wait for a response ends with. -/
def answer : Option SendPoll → Answer
  | none => .dropped
  | some poll =>
    match sendUpstreamRequest poll with
    | .ok response => .response response
    | .error (.request error) => .failed error
    | .error .shutdown => .shutdown

/-- The request failed before there was a response, and another backend may be tried. -/
def Answer.retryable : Answer → Bool
  | .failed error => (classifyFailure error).isRetryable
  | _ => false

theorem answer_eq_dropped {send : Option SendPoll} (h : answer send = .dropped) : send = none := by
  cases send with
  | none => rfl
  | some poll =>
    rw [answer] at h
    split at h <;> cases h

theorem answer_eq_shutdown {send : Option SendPoll} (h : answer send = .shutdown) :
    ∃ poll, send = some poll ∧ sendUpstreamRequest poll = .error .shutdown := by
  cases send with
  | none => cases h
  | some poll =>
    refine ⟨poll, rfl, ?_⟩
    rw [answer] at h
    split at h
    · cases h
    · cases h
    · assumption

theorem shutdown_eq_false_of_ne {poll : SendPoll}
    (h : sendUpstreamRequest poll ≠ .error .shutdown) : poll.shutdown = false := by
  by_contra hs
  rw [Bool.not_eq_false] at hs
  exact h (by rw [sendUpstreamRequest, if_pos hs])

theorem answer_eq_response {send : Option SendPoll} {response : UpstreamResponse}
    (h : answer send = .response response) :
    ∃ poll, send = some poll ∧ poll.shutdown = false ∧ sendUpstreamRequest poll = .ok response := by
  cases send with
  | none => cases h
  | some poll =>
    rw [answer] at h
    split at h
    · rename_i hsend
      cases h
      exact ⟨poll, rfl, shutdown_eq_false_of_ne (by rw [hsend]; nofun), hsend⟩
    · cases h
    · cases h

theorem answer_eq_failed {send : Option SendPoll} {error : ClientError}
    (h : answer send = .failed error) :
    ∃ poll, send = some poll ∧ poll.shutdown = false ∧
      sendUpstreamRequest poll = .error (.request error) := by
  cases send with
  | none => cases h
  | some poll =>
    rw [answer] at h
    split at h
    · cases h
    · rename_i hsend
      cases h
      exact ⟨poll, rfl, shutdown_eq_false_of_ne (by rw [hsend]; nofun), hsend⟩
    · cases h

/-! ### The turns of the loop -/

section Turn

variable (S : Services) (request : RoutedRequest) (ctx : ProxyContext) (body : Bytes)

/-- The context of a request that was sent. -/
def sentContext : ProxyContext :=
  (preparedContext S request ctx body).emit
    (.send (outboundRequest S request ctx.clientHeaders ctx.route body))

/-- The attempt of a request that was sent. -/
def sentAttempt : InspectorAttemptBuilder :=
  (newAttempt ctx).setDebugCapture (preparedContext S request ctx body).debugCapture

/-- The context of a request that failed. -/
def failedContext : ProxyContext := (sentContext S request ctx body).ensureFailureDebugCapture S

/-- The attempt of a request that failed. -/
def failedAttempt : InspectorAttemptBuilder :=
  (sentAttempt S request ctx body).setDebugCapture (failedContext S request ctx body).debugCapture

/-- The context after a failure that is followed by another attempt. -/
def retriedContext (error : ClientError) (nextRoute : SelectedRoute) : ProxyContext :=
  recordRetry S (failedContext S request ctx body) (failedAttempt S request ctx body)
    (classifyFailure error) nextRoute

/-- The context after the failure a request ends with. -/
def finalFailureContext (error : ClientError) : ProxyContext :=
  recordFinalFailure (failedContext S request ctx body) (failedAttempt S request ctx body)
    (classifyFailure error)

variable {S request ctx body} {sends : ℕ → Option SendPoll} {fallbackRoutes : List SelectedRoute}

theorem tryRoutes_rewriteError {error : RequestRewriteError}
    (h : S.rewrite (rewriteArgs request ctx.route) = .error error) :
    tryRoutes S request sends ctx fallbackRoutes =
      .ended (ctx.emit (.recordBackendAttempt ctx.labels)) (.error (rewriteApiError error)) := by
  unfold tryRoutes
  simp only [prepareOutbound, h]

variable (h : S.rewrite (rewriteArgs request ctx.route) = .ok body)
include h

theorem tryRoutes_dropped (ha : answer (sends 0) = .dropped) :
    tryRoutes S request sends ctx fallbackRoutes =
      .ended (sentContext S request ctx body) .dropped := by
  unfold tryRoutes
  simp only [prepareOutbound, h, answer_eq_dropped ha]
  rfl

theorem tryRoutes_shutdown (ha : answer (sends 0) = .shutdown) :
    ∃ ctx' ∈ [preparedContext S request ctx body, sentContext S request ctx body],
      tryRoutes S request sends ctx fallbackRoutes = .ended ctx' (.error .internal) := by
  obtain ⟨poll, hpoll, hsend⟩ := answer_eq_shutdown ha
  unfold tryRoutes
  simp only [prepareOutbound, h, hpoll, hsend]
  split_ifs
  · exact ⟨_, List.mem_cons_self, rfl⟩
  · exact ⟨_, List.mem_cons_of_mem _ List.mem_cons_self, rfl⟩

theorem tryRoutes_response {response : UpstreamResponse}
    (ha : answer (sends 0) = .response response) :
    tryRoutes S request sends ctx fallbackRoutes =
      .answered (receiveHeaders (sentContext S request ctx body) (sentAttempt S request ctx body)
        response) response := by
  obtain ⟨poll, hpoll, hflag, hsend⟩ := answer_eq_response ha
  unfold tryRoutes
  simp only [prepareOutbound, h, hpoll, hsend, hflag]
  rfl

theorem tryRoutes_failed {error : ClientError} (ha : answer (sends 0) = .failed error)
    (hstop : fallbackRoutes = [] ∨ (classifyFailure error).isRetryable = false) :
    tryRoutes S request sends ctx fallbackRoutes =
      .ended (finalFailureContext S request ctx body error)
        (.error (classifyFailure error).apiError) := by
  obtain ⟨poll, hpoll, hflag, hsend⟩ := answer_eq_failed ha
  unfold tryRoutes
  simp only [prepareOutbound, h, hpoll, hsend, hflag]
  cases fallbackRoutes with
  | nil => rfl
  | cons nextRoute rest =>
    have hno := hstop.resolve_left (List.cons_ne_nil _ _)
    simp only [hno]
    rfl

theorem tryRoutes_retry {error : ClientError} {nextRoute : SelectedRoute}
    (ha : answer (sends 0) = .failed error)
    (hretry : (classifyFailure error).isRetryable = true) :
    tryRoutes S request sends ctx (nextRoute :: fallbackRoutes) =
      tryRoutes S request (fun n => sends (n + 1))
        (retriedContext S request ctx body error nextRoute)
        fallbackRoutes := by
  obtain ⟨poll, hpoll, hflag, hsend⟩ := answer_eq_failed ha
  conv_lhs => unfold tryRoutes
  simp only [prepareOutbound, h, hpoll, hsend, hflag, hretry]
  rfl

end Turn

/-! ### Streams -/

section Stream

variable {I : ProxyContext → Prop} (htouch : ∀ ctx, I ctx → I ctx.liveTouch)
  (hyield : ∀ ctx bytes, I ctx → I (ctx.emit (.yield bytes)))
  (hfail : ∀ ctx errorKind, I ctx → I (ctx.emit (.yieldError errorKind)))
include htouch hyield hfail

theorem normalizedLoop_inv {life : StreamLife} (h : I life.context) (c : Json.Codec)
    (strategy : SseStrategy) (polls : List ChunkPoll) :
    I (normalizedLoop c strategy life polls).context := by
  have hsend : ∀ (life : StreamLife) (bytes : Bytes), I life.context →
      I (life.yield bytes).context := by
    intro life bytes h
    unfold StreamLife.yield
    split_ifs
    · exact h
    · exact hyield _ _ h
  induction polls generalizing life strategy with
  | nil => exact h
  | cons poll polls ih =>
    unfold normalizedLoop
    split
    · exact hsend _ _ (htouch _ h)
    · exact hfail _ _ h
    · exact ih (hsend _ _ (htouch _ h)) _

theorem rawLoop_inv {life : StreamLife} (h : I life.context) (polls : List ChunkPoll) :
    I (rawLoop life polls).context := by
  induction polls generalizing life with
  | nil => exact h
  | cons poll polls ih =>
    unfold rawLoop
    split
    · exact htouch _ h
    · exact hfail _ _ h
    · exact ih (hyield _ _ (htouch _ h))

/-- **The invariant rule of a stream**: what is kept when the record in flight is written and when
the client is sent something holds when the stream is dropped. -/
theorem streamLoop_inv {S : Services} {ctx : ProxyContext} {response : UpstreamResponse}
    (h : I (startStream ctx response).context) : I (streamLoop S ctx response).context := by
  unfold streamLoop
  dsimp only
  split_ifs
  · exact normalizedLoop_inv htouch hyield hfail h _ _ _
  · exact rawLoop_inv htouch hyield hfail h _

end Stream

end Onair
