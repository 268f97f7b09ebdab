import Onair.Lib.Fifo
import Onair.Core.Usage

/-!
# The request inspector

The inspector keeps a record of every request. While a request is in flight its record is replaced
by snapshots; when it ends, by a last record with the outcome. Clock readings are left out.

* `InspectorOutcome`, `InspectorRequestRecord`: records;
* `InspectorStore.write`, `InspectorStore.get`: the store, and what is found in it;
* `LiveRecord`: the record of a request in flight.
-/

namespace Onair

/-- How a request ended, if it did. -/
inductive InspectorOutcome where
  | inFlight
  | completed
  | preflight (stage : String)
  | upstreamTimeout
  | upstreamRequestFailed
  | upstreamNonSuccess
  | upstreamBodyReadFailed
  | upstreamStreamFailed
  | streamIncomplete
  | interrupted
  deriving DecidableEq, Repr

/-- The tokens of a request. -/
structure InspectorTokenCounts where
  input : UInt64 := 0
  cachedInput : UInt64 := 0
  output : UInt64 := 0
  deriving DecidableEq, Repr

/-- The tokens of some usage. -/
def inspectorTokens (usage : UsageTotals) : InspectorTokenCounts where
  input := usage.input
  cachedInput := usage.cachedInput
  output := usage.output

/-- One attempt to send a request to a backend. -/
structure InspectorAttemptRecord where
  attempt : ℕ
  backend : String
  backendTarget : String
  backendRemoteAddr : Option String
  debugCaptureId : Option String
  status : ℕ
  outcome : String
  errorKind : Option String
  upstreamStatus : Option ℕ
  deriving DecidableEq, Repr

/-- What is known of a request apart from how it went. -/
structure InspectorRequestBase where
  recordId : String
  clientRequestId : Option String
  startedAtUnixMs : ℕ
  method : String
  path : String
  query : Option String
  route : String
  identity : String
  requestedModel : String
  publicModel : String
  backendModel : String
  backend : String
  backendTarget : String
  backendRemoteAddr : Option String
  stream : Bool
  requestBodyBytes : ℕ
  debugCaptureId : Option String
  exposedBackendError : Bool
  deriving DecidableEq, Repr

/-- The record of a request. -/
structure InspectorRequestRecord where
  base : InspectorRequestBase
  outcome : InspectorOutcome
  status : ℕ
  errorKind : Option String
  backendAttempts : List InspectorAttemptRecord
  retriedAttempts : List InspectorAttemptRecord
  responseBodyBytes : Option ℕ
  tokens : InspectorTokenCounts
  deriving DecidableEq, Repr

/-! ### The store -/

/-- The records that are kept, oldest first. -/
abbrev InspectorStore : Type := List InspectorRequestRecord

/-- The most records that are ever kept. -/
def maxRetentionRequests : ℕ := 100000

/-- How many records are kept. -/
def clampRetention (retentionRequests : ℕ) : ℕ := min (max retentionRequests 1) maxRetentionRequests

/-- The id of a record. -/
def InspectorRequestRecord.id (record : InspectorRequestRecord) : String := record.base.recordId

/-- The last of some records with an id. -/
abbrev lastOf (records : List InspectorRequestRecord) (id : String) :
    Option InspectorRequestRecord :=
  Fifo.get InspectorRequestRecord.id records id

namespace InspectorStore

/-- Replace the record with the same id, or add the record and drop the oldest. -/
def upsertWithFifoEviction (records : InspectorStore) (record : InspectorRequestRecord)
    (retentionRequests : ℕ) : InspectorStore :=
  Fifo.upsert InspectorRequestRecord.id retentionRequests records record

/-- What `record`, `upsert` and `upsert_final` do to the records. -/
def write (records : InspectorStore) (retentionRequests : ℕ) (record : InspectorRequestRecord) :
    InspectorStore :=
  upsertWithFifoEviction records record (clampRetention retentionRequests)

/-- The newest record with an id. -/
def get (records : InspectorStore) (recordId : String) : Option InspectorRequestRecord :=
  Fifo.get InspectorRequestRecord.id records recordId

/-- The writes of many requests, each with the retention of its configuration. -/
def writeAll (records : InspectorStore) (writes : List (ℕ × InspectorRequestRecord)) :
    InspectorStore :=
  writes.foldl (fun records w => write records w.1 w.2) records

theorem writeAll_eq (records : InspectorStore) (writes : List (ℕ × InspectorRequestRecord)) :
    writeAll records writes = Fifo.play InspectorRequestRecord.id records
      (writes.map fun w => (clampRetention w.1, w.2)) := by
  rw [Fifo.play, List.foldl_map]
  rfl

/-- **The last record written for an id** is found right after it was written, and later unless it
was evicted, whatever other requests write in between. -/
theorem get_writeAll {records : InspectorStore} {final : InspectorRequestRecord}
    (hfresh : ∀ r ∈ records, r.id ≠ final.id) (before : List (ℕ × InspectorRequestRecord))
    (retention : ℕ) {after : List (ℕ × InspectorRequestRecord)}
    (hafter : ∀ w ∈ after, w.2.id ≠ final.id) :
    get (writeAll records (before ++ [(retention, final)])) final.id = some final ∧
      (get (writeAll records (before ++ (retention, final) :: after)) final.id = some final ∨
        get (writeAll records (before ++ (retention, final) :: after)) final.id = none) := by
  have hnone : Fifo.ofKey InspectorRequestRecord.id final.id records = [] :=
    List.filter_eq_nil_iff.mpr fun r hr => by simpa using hfresh r hr
  simp only [writeAll_eq, List.map_append, List.map_cons, List.map_nil, get]
  refine Fifo.get_play (by simp [hnone]) _ fun w hw => ?_
  obtain ⟨w, hmem, rfl⟩ := List.mem_map.mp hw
  exact hafter w hmem

end InspectorStore

/-! ### Requests in flight -/

/-- The record of a request in flight. -/
structure LiveRecord where
  enabled : Bool
  record : InspectorRequestRecord
  deriving DecidableEq, Repr

namespace LiveRecord

/-- Change the record. -/
def update (live : LiveRecord) (mutate : InspectorRequestRecord → InspectorRequestRecord) :
    LiveRecord :=
  if live.enabled then { live with record := mutate live.record } else live

/-- What is written when the record was changed or is published: the record itself. -/
def snapshot (live : LiveRecord) : List InspectorRequestRecord :=
  if live.enabled then [live.record] else []

/-- The last record of a request, with the start of the record in flight. -/
def finalRecord (live : LiveRecord) (final : InspectorRequestRecord) : InspectorRequestRecord :=
  { final with base := { final.base with startedAtUnixMs := live.record.base.startedAtUnixMs } }

end LiveRecord

end Onair
