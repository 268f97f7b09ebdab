import Onair.Proxy.Ledger

/-!
# The body of an error

The body of an error of the backend is read up to a limit, and sent on to the client where the route
exposes errors and the body is not cut off.

* `ChunkPoll.Quiet`, `Delivers`: waits that give a body, in some chunks, without error or shutdown;
* `readCapped_delivers`: what is read of it;
* **`cappedWell_iff`**: it is read and sent on as documented, if and only if it does not end exactly
  at the limit.
-/

namespace Onair

/-! ### Bodies that are delivered -/

/-- No shutdown before, during or after the wait. -/
structure ChunkPoll.Quiet (poll : ChunkPoll) : Prop where
  before : poll.shutdown = false
  during : ∀ change ∈ poll.changed, change.stops = false
  after : poll.after = false

/-- The waits give a body, in chunks of any length. -/
inductive Delivers : List ChunkPoll → Bytes → Prop
  | finish {poll : ChunkPoll} {polls : List ChunkPoll} (hquiet : poll.Quiet)
      (hnext : poll.next = none) : Delivers (poll :: polls) []
  | chunk {poll : ChunkPoll} {polls : List ChunkPoll} {chunk rest : Bytes} (hquiet : poll.Quiet)
      (hnext : poll.next = some (.ok chunk)) (hrest : Delivers polls rest) :
      Delivers (poll :: polls) (chunk ++ rest)

theorem ChunkPoll.Quiet.nextStreamChunk {poll : ChunkPoll} (h : poll.Quiet) :
    nextStreamChunk poll = poll.next := by
  unfold Onair.nextStreamChunk
  rw [if_neg (by rw [h.before]; exact Bool.false_ne_true)]
  cases hchanged : poll.changed with
  | none => rfl
  | some change =>
    have hstops : change.stops = false := h.during change hchanged
    simp only [hstops, Bool.false_eq_true, if_false]

/-- A body in the chunks it is cut into. -/
def chunkPolls (chunks : List Bytes) : List ChunkPoll :=
  chunks.map (fun chunk => ({ next := some (.ok chunk) } : ChunkPoll)) ++
    [({ next := none } : ChunkPoll)]

theorem quiet_next (next : Option (Except ClientError Bytes)) :
    ChunkPoll.Quiet { next := next } := ⟨rfl, nofun, rfl⟩

theorem delivers_chunkPolls (chunks : List Bytes) :
    Delivers (chunkPolls chunks) chunks.flatten := by
  induction chunks with
  | nil => exact .finish (quiet_next none) rfl
  | cons chunk chunks ih => exact .chunk (quiet_next _) rfl ih

/-! ### What is read -/

/-- **What is read of a body** is what fits; it counts as cut off as soon as the limit is
reached. -/
theorem readCapped_delivers {polls : List ChunkPoll} {body : Bytes} (h : Delivers polls body)
    {bytes : Bytes} (hbytes : bytes.length < maxUpstreamErrorCaptureBytes) :
    readCappedUpstreamErrorBody bytes polls = some (.ok {
      bytes := (bytes ++ body).take maxUpstreamErrorCaptureBytes
      truncated := decide (maxUpstreamErrorCaptureBytes ≤ (bytes ++ body).length) }) := by
  induction h generalizing bytes with
  | finish hquiet hnext =>
    rw [readCappedUpstreamErrorBody, hquiet.nextStreamChunk, hnext]
    simp only [hquiet.after, Bool.false_eq_true, if_false, List.append_nil]
    rw [List.take_of_length_le hbytes.le, decide_eq_false (not_le.mpr hbytes)]
  | chunk hquiet hnext hrest ih =>
    rename_i poll polls chunk rest
    rw [readCappedUpstreamErrorBody, hquiet.nextStreamChunk, hnext]
    simp only [List.length_append]
    split_ifs with hover hfull
    · -- the limit is inside the chunk
      have hcut : maxUpstreamErrorCaptureBytes - bytes.length ≤ chunk.length := hover.le
      rw [List.take_append, List.take_of_length_le hbytes.le, List.take_append_of_le_length hcut,
        decide_eq_true (by omega)]
    · -- the limit is at the end of the chunk
      have hlength : (bytes ++ chunk).length = maxUpstreamErrorCaptureBytes := by
        rw [List.length_append, hfull]
      rw [← List.append_assoc, ← hlength, List.take_left, List.length_append,
        decide_eq_true (by omega)]
    · have hmore : (bytes ++ chunk).length < maxUpstreamErrorCaptureBytes := by
        rw [List.length_append]
        omega
      rw [ih hmore, List.append_assoc, List.length_append, List.length_append]

/-! ### What is sent on -/

/-- The first bytes are read, up to the limit, and the body counts as cut off if and only if it is
longer; where errors are exposed, a body that is not longer is sent on as it is. -/
structure CappedWell (polls : List ChunkPoll) (body : Bytes) : Prop where
  read : ∃ captured, readCappedUpstreamErrorBody [] polls = some (.ok captured) ∧
    captured.bytes = body.take maxUpstreamErrorCaptureBytes ∧
    (captured.truncated = true ↔ maxUpstreamErrorCaptureBytes < body.length)
  forwarded : body.length ≤ maxUpstreamErrorCaptureBytes →
    ∀ (S : Services) (ctx : ProxyContext) (response : UpstreamResponse), response.body = polls →
      ctx.route.exposeBackendErrors = true →
      (nonSuccessResponse S ctx response).2 =
        .response (ApiError.mapUpstreamStatus response.status) body

/-- A body below the limit is sent on. -/
theorem forwarded_of_lt {polls : List ChunkPoll} {body : Bytes} (h : Delivers polls body)
    (hlength : body.length < maxUpstreamErrorCaptureBytes) (S : Services) (ctx : ProxyContext)
    {response : UpstreamResponse} (hbody : response.body = polls)
    (hexpose : ctx.route.exposeBackendErrors = true) :
    (nonSuccessResponse S ctx response).2 =
      .response (ApiError.mapUpstreamStatus response.status) body := by
  have hread := readCapped_delivers h (show ([] : Bytes).length < _ by decide)
  rw [List.nil_append, decide_eq_false (not_le.mpr hlength), List.take_of_length_le hlength.le]
    at hread
  have hroute : (ctx.ensureCurrentDebugCapture S).route.exposeBackendErrors = true := by
    rw [route_ensureCurrentDebugCapture, hexpose]
  unfold nonSuccessResponse
  simp only [hroute, Bool.or_true, if_true, hbody, hread, answerUpstreamError]
  rfl

/-- **The body of an error is read and sent on as documented, if and only if it does not end exactly
at the limit**, however it is cut into chunks. -/
theorem cappedWell_iff {polls : List ChunkPoll} {body : Bytes} (h : Delivers polls body) :
    CappedWell polls body ↔ body.length ≠ maxUpstreamErrorCaptureBytes := by
  have hread := readCapped_delivers h (show ([] : Bytes).length < _ by decide)
  rw [List.nil_append] at hread
  constructor
  · rintro ⟨⟨captured, hcaptured, -, htruncated⟩, -⟩ hlength
    rw [hread] at hcaptured
    cases hcaptured
    rw [decide_eq_true_iff] at htruncated
    omega
  · intro hlength
    refine ⟨⟨_, hread, rfl, ?_⟩, fun hle S ctx response hbody hexpose =>
      forwarded_of_lt h (by omega) S ctx hbody hexpose⟩
    rw [decide_eq_true_iff]
    omega

/-- A short body in two chunks. -/
theorem cappedWell_short : CappedWell (chunkPolls [[1], [2, 3]]) [1, 2, 3] :=
  (cappedWell_iff (delivers_chunkPolls [[1], [2, 3]])).mpr (by decide)

/-- A body that ends at the limit counts as cut off. -/
theorem not_cappedWell_full :
    ¬CappedWell (chunkPolls [List.replicate maxUpstreamErrorCaptureBytes 0])
      (List.replicate maxUpstreamErrorCaptureBytes 0) := by
  have h := delivers_chunkPolls [List.replicate maxUpstreamErrorCaptureBytes 0]
  have hread := readCapped_delivers h (show ([] : Bytes).length < _ by decide)
  rintro ⟨⟨captured, hcaptured, -, htruncated⟩, -⟩
  rw [hread] at hcaptured
  cases hcaptured
  simp at htruncated

end Onair
