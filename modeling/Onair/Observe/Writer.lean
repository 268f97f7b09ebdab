import Onair.Lib.Guarded
import Onair.Observe.Persistence

/-!
# Writing records to the table

The records of requests that came to an end are handed to a thread that writes them to the table.
When the store is dropped, the requests in flight are marked as interrupted and written as well; the
thread is told, and has some time to write what it was handed. The next process reads the table.

* `RecordCodec.Faithful`, `TableWF`: what is relied on about the JSON of a record, and the tables
  that are met;
* `mem_insertOrReplace`, `persistRecord_room`: one write;
* `Persisting`, `Persisting.step`: the store, the thread and the table;
* **`restored_finished`**: no request comes back as one in flight, whatever was lost;
* **`shutdown_complete`**: every record that was handed over is counted, and if none was lost, the
  next process finds what this one had.
-/

namespace Onair

open Ranked Fifo

/-! ### Tables -/

/-- The record is read back as it was written. -/
def RecordCodec.Faithful (J : RecordCodec) (record : InspectorRequestRecord) : Prop :=
  J.fromJson (J.toJson record) = some record

instance (J : RecordCodec) (record : InspectorRequestRecord) : Decidable (J.Faithful record) :=
  inferInstanceAs (Decidable (J.fromJson (J.toJson record) = some record))

/-- The record is one of a request that came to an end, and can be written. -/
structure Final (J : RecordCodec) (record : InspectorRequestRecord) : Prop where
  finished : record.outcome ≠ .inFlight
  faithful : J.Faithful record

/-- The rows are in the order of their keys, with one for each id, and what is read from a row is
the record of a request that came to an end. -/
structure TableWF (J : RecordCodec) (table : InspectorTable) : Prop where
  ids : (table.map InspectorRow.recordId).Nodup
  ranked : Descending InspectorRow.key table
  rows : ∀ row ∈ table, ∀ record, J.fromJson row.recordJson = some record →
    record.id = row.recordId ∧ Final J record

namespace InspectorTable

variable {J : RecordCodec} {table : InspectorTable}

/-- **What is in a table after a write.** -/
theorem mem_insertOrReplace (h : Descending InspectorRow.key table) {row other : InspectorRow} :
    other ∈ table.insertOrReplace row ↔
      other = row ∨ other ∈ table ∧ other.recordId ≠ row.recordId := by
  rw [insertOrReplace, mem_put (h.filter _), List.mem_filter, decide_eq_true_iff]
  refine or_congr_right ⟨And.left, fun hother => ⟨hother, fun hkey => hother.2 ?_⟩⟩
  exact binaryText_injective (Prod.ext_iff.mp (toLex.injective hkey)).2

theorem nodup_insertOrReplace (h : (table.map InspectorRow.recordId).Nodup)
    (hrank : Descending InspectorRow.key table) (row : InspectorRow) :
    ((table.insertOrReplace row).map InspectorRow.recordId).Nodup := by
  have hput : Descending InspectorRow.key (table.insertOrReplace row) :=
    descending_put (hrank.filter _) row
  refine List.pairwise_map.mpr (List.Pairwise.imp_of_mem (fun {a b} ha hb hlt hid => ?_) hput)
  obtain rfl | ⟨ha, hne⟩ := (mem_insertOrReplace hrank).mp ha
  · obtain rfl | ⟨-, hne⟩ := (mem_insertOrReplace hrank).mp hb
    · exact hlt.ne rfl
    · exact hne hid.symm
  · obtain rfl | ⟨hb, -⟩ := (mem_insertOrReplace hrank).mp hb
    · exact hne hid
    · rw [List.inj_on_of_nodup_map h ha hb hid] at hlt
      exact hlt.ne rfl

theorem tableWF_pruneRecords (h : TableWF J table) (retention : ℕ) :
    TableWF J (table.pruneRecords retention) := by
  rw [pruneRecords_eq h.ids]
  have hsub := List.take_sublist (sqliteUsize retention) table
  exact ⟨h.ids.sublist (hsub.map _), h.ranked.sublist hsub,
    fun row hrow => h.rows row (hsub.mem hrow)⟩

theorem tableWF_insertOrReplace (h : TableWF J table) {record : InspectorRequestRecord}
    (hrecord : Final J record) : TableWF J (table.insertOrReplace (J.row record)) := by
  refine ⟨nodup_insertOrReplace h.ids h.ranked _, descending_put (h.ranked.filter _) _, ?_⟩
  intro row hrow read hread
  obtain rfl | ⟨hrow, -⟩ := (mem_insertOrReplace h.ranked).mp hrow
  · obtain rfl := Option.some.inj (hrecord.faithful.symm.trans hread)
    exact ⟨rfl, hrecord⟩
  · exact h.rows row hrow read hread

theorem row_of_loaded {n : ℕ} {record : InspectorRequestRecord}
    (h : record ∈ table.loadLatestRecords J n) : ∃ row ∈ table,
      row.schemaVersion ≤ currentSchemaVersion ∧ J.fromJson row.recordJson = some record := by
  obtain ⟨row, hrow, hread⟩ := List.mem_filterMap.mp h
  obtain ⟨hrow, hversion⟩ :=
    List.mem_filter.mp (List.mem_of_mem_take (List.mem_reverse.mp hrow))
  exact ⟨row, hrow, of_decide_eq_true hversion, hread⟩

theorem final_of_loaded (h : TableWF J table) {n : ℕ} {record : InspectorRequestRecord}
    (hrecord : record ∈ table.loadLatestRecords J n) : Final J record := by
  obtain ⟨row, hrow, -, hread⟩ := row_of_loaded hrecord
  exact (h.rows row hrow record hread).2

theorem nodup_loaded (h : TableWF J table) (n : ℕ) :
    ((table.loadLatestRecords J n).map InspectorRequestRecord.id).Nodup := by
  have hrows : ((latest (table.filter fun row => row.schemaVersion ≤ currentSchemaVersion)
      (sqliteUsize n)).reverse).Pairwise fun a b => a ∈ table ∧ b ∈ table ∧
        a.recordId ≠ b.recordId := by
    have hsub : List.Sublist (latest (table.filter fun row =>
        row.schemaVersion ≤ currentSchemaVersion) (sqliteUsize n)) table :=
      (List.take_sublist _ _).trans List.filter_sublist
    have hpair : table.Pairwise fun a b => b.recordId ≠ a.recordId :=
      (List.pairwise_map.mp h.ids).imp Ne.symm
    refine List.pairwise_reverse.mpr ((hpair.sublist hsub).imp_of_mem fun ha hb hab => ?_)
    exact ⟨hsub.mem hb, hsub.mem ha, hab⟩
  refine List.pairwise_map.mpr (List.Pairwise.filterMap _ ?_ hrows)
  rintro a b ⟨ha, hb, hab⟩ r hr r' hr' hid
  rw [(h.rows a ha r hr).1, (h.rows b hb r' hr').1] at hid
  exact hab hid

end InspectorTable

/-! ### The system -/

/-- How many messages wait for the thread. -/
def writerQueueCapacity : ℕ := 1024

/-- A message to the thread. -/
inductive PersistenceMessage where
  | record (record : InspectorRequestRecord) (retentionRequests : ℕ)
  | shutdown
  deriving DecidableEq, Repr

/-- The record of a message, and how many are kept. -/
def PersistenceMessage.toWrite : PersistenceMessage → Option (InspectorRequestRecord × ℕ)
  | record r retentionRequests => some (r, retentionRequests)
  | shutdown => none

/-- Where the thread is. -/
inductive PersistencePhase where
  | starting
  | running
  | draining
  | stopped
  deriving DecidableEq, Repr

/-- Where the store is. -/
inductive StoreOwner where
  | held
  /-- It is dropped, and hands these records over. -/
  | interrupting (records : List InspectorRequestRecord)
  | closing
  | joining
  | gone
  /-- The process was killed. -/
  | killed
  deriving DecidableEq, Repr

/-- What came of a write to the table. -/
inductive WriteResult where
  | written
  | unpruned
  | failed
  deriving DecidableEq, Repr

/-- The store, the thread and the table. -/
structure Persisting where
  store : InspectorStore
  /-- What was put into the store and is about to be handed over. -/
  pending : List (InspectorRequestRecord × ℕ) := []
  owner : StoreOwner := .held
  queue : List PersistenceMessage := []
  shutdown : Bool := false
  writer : PersistencePhase := .starting
  drained : ℕ := 0
  lost : ℕ := 0
  table : InspectorTable
  /-- What the process began with. -/
  restored : InspectorStore
  initial : InspectorTable
  /-- What was handed over, how much of it was refused, and how much could not be written. -/
  offered : List (InspectorRequestRecord × ℕ) := []
  dropped : ℕ := 0
  failed : ℕ := 0
  deriving DecidableEq, Repr

/-- The record of a request that was interrupted. -/
def markRecordInterrupted (record : InspectorRequestRecord) : InspectorRequestRecord :=
  { record with outcome := .interrupted, status := 503, errorKind := some "interrupted" }

/-- Mark the records of the requests in flight. -/
def markAll (records : InspectorStore) : InspectorStore :=
  records.map fun record =>
    if record.outcome = .inFlight then markRecordInterrupted record else record

theorem ids_markAll (records : InspectorStore) :
    (markAll records).map InspectorRequestRecord.id = records.map InspectorRequestRecord.id := by
  rw [markAll, List.map_map]
  refine List.map_congr_left fun record _ => ?_
  dsimp only [Function.comp_apply]
  split_ifs <;> rfl

theorem mem_markAll {records : InspectorStore} {r : InspectorRequestRecord}
    (h : r ∈ markAll records) : r.outcome ≠ .inFlight ∧
      ((∃ old ∈ records, old.outcome = .inFlight ∧ r = markRecordInterrupted old) ∨
        r ∈ records) := by
  obtain ⟨old, hold, rfl⟩ := List.mem_map.mp h
  split_ifs with hflight
  · exact ⟨by simp [markRecordInterrupted], Or.inl ⟨old, hold, hflight, rfl⟩⟩
  · exact ⟨hflight, Or.inr hold⟩

/-- What may happen. -/
inductive PersistingAction where
  | call (call : InspectorCall)
  /-- The record of a call is handed over. -/
  | hand (id : String)
  /-- The store is dropped. -/
  | drop
  | interrupt
  /-- The flag is set, and the thread is sent a message. -/
  | raise
  | tell
  | started
  | startFails
  /-- The thread sees the flag. -/
  | notice
  | receive (result : WriteResult)
  /-- The time for writing what is left is over. -/
  | expire
  | join
  | kill
  | restart (retentionRequests : ℕ)
  deriving DecidableEq

namespace Persisting

/-- A process opens the table. -/
def start (J : RecordCodec) (table : InspectorTable) (retentionRequests : ℕ) : Persisting :=
  let retention := clampRetention retentionRequests
  let table := table.pruneRecords retention
  let records := table.loadLatestRecords J retention
  { store := records, table := table, restored := records, initial := table }

/-- Hand a record over, unless the thread was told to stop, stopped, or has too much to write. -/
def offer (s : Persisting) (record : InspectorRequestRecord) (retentionRequests : ℕ) :
    Persisting :=
  if s.shutdown ∨ s.writer = .stopped ∨ writerQueueCapacity ≤ s.queue.length then
    { s with offered := s.offered ++ [(record, retentionRequests)], dropped := s.dropped + 1 }
  else { s with
    offered := s.offered ++ [(record, retentionRequests)]
    queue := s.queue ++ [.record record retentionRequests] }

/-- The table after a write with a result. -/
def persisted (J : RecordCodec) (table : InspectorTable) (record : InspectorRequestRecord)
    (retentionRequests : ℕ) : WriteResult → InspectorTable
  | .written => table.persistRecord J record retentionRequests
  | .unpruned => table.insertOrReplace (J.row record)
  | .failed => table

/-- The thread receives a message. -/
def receive (J : RecordCodec) (s : Persisting) (result : WriteResult) :
    PersistenceMessage → Persisting
  | .record record retentionRequests => { s with
      table := persisted J s.table record retentionRequests result
      drained := s.drained + 1
      failed := if result = .written then s.failed else s.failed + 1 }
  | .shutdown => { s with writer := .draining }

/-- The records in some messages. -/
def writesIn (queue : List PersistenceMessage) : List (InspectorRequestRecord × ℕ) :=
  queue.filterMap PersistenceMessage.toWrite

/-- What an action does, if it may happen. The records of one request are written one after
another. -/
def step (J : RecordCodec) (s : Persisting) : PersistingAction → Option Persisting
  | .call call =>
    if s.owner = .held ∧ call.enabled = true ∧ call.record.id ∉ s.pending.map (·.1.id) then
      some { s with
        store := s.store.call call
        pending := if call.kind = .upsert then s.pending
          else s.pending ++ [(call.record, clampRetention call.retentionRequests)] }
    else none
  | .hand id =>
    (s.pending.find? fun w => w.1.id == id).map fun w =>
      { s with pending := s.pending.filter fun other => other.1.id ≠ id }.offer w.1 w.2
  | .drop =>
    if s.owner = .held ∧ s.pending = [] then some { s with
      store := markAll s.store
      owner := .interrupting ((markAll s.store).filter fun record =>
        record.outcome = .interrupted) }
    else none
  | .interrupt =>
    match s.owner with
    | .interrupting (record :: records) =>
      some ({ s with owner := .interrupting records }.offer record maxRetentionRequests)
    | _ => none
  | .raise =>
    if s.owner = .interrupting [] then some { s with owner := .closing, shutdown := true } else none
  | .tell =>
    if s.owner = .closing then some { s with
      owner := .joining
      queue := if s.writer = .stopped ∨ writerQueueCapacity ≤ s.queue.length then s.queue
        else s.queue ++ [.shutdown] }
    else none
  | .started => if s.writer = .starting then some { s with writer := .running } else none
  | .startFails =>
    if s.writer = .starting then some { s with
      writer := .stopped
      queue := []
      dropped := s.dropped + (writesIn s.queue).length }
    else none
  | .notice =>
    if s.writer = .running ∧ s.shutdown = true then some { s with writer := .draining } else none
  | .receive result =>
    if s.writer = .running ∨ s.writer = .draining then
      match s.queue with
      | [] => none
      | message :: queue => some ({ s with queue := queue }.receive J result message)
    else none
  | .expire =>
    if s.writer = .draining then some { s with
      writer := .stopped
      queue := []
      lost := s.lost + (s.queue.takeWhile fun message => message.toWrite.isSome).length }
    else none
  | .join =>
    if s.owner = .joining ∧ s.writer = .stopped then some { s with owner := .gone } else none
  | .kill => some { s with owner := .killed, pending := [], queue := [], writer := .stopped }
  | .restart retentionRequests =>
    if s.owner = .gone ∨ s.owner = .killed then some (start J s.table retentionRequests) else none

/-! ### No request comes back as one in flight -/

/-- What is about to be handed over for the requests that were in flight. -/
def todo (s : Persisting) : List InspectorRequestRecord :=
  match s.owner with
  | .interrupting records => records
  | _ => []

/-- What the callers promise: a snapshot is of a request in flight, any other record is of one that
came to an end, and what may be written can be read back. -/
def Promised (J : RecordCodec) : PersistingAction → Prop
  | .call call =>
    if call.kind = .upsert then
      call.record.outcome = .inFlight ∧ J.Faithful (markRecordInterrupted call.record)
    else call.record.outcome ≠ .inFlight ∧ J.Faithful call.record
  | _ => True

instance (J : RecordCodec) : DecidablePred (Promised J)
  | .call call => inferInstanceAs (Decidable (if call.kind = .upsert then
      call.record.outcome = .inFlight ∧ J.Faithful (markRecordInterrupted call.record)
    else call.record.outcome ≠ .inFlight ∧ J.Faithful call.record))
  | .hand _ | .drop | .interrupt | .raise | .tell | .started | .startFails | .notice | .receive _
  | .expire | .join | .kill | .restart _ => inferInstanceAs (Decidable True)

/-- The table has no request in flight, and none is on its way to it. -/
structure Sound (J : RecordCodec) (s : Persisting) : Prop where
  table : TableWF J s.table
  ids : (s.store.map InspectorRequestRecord.id).Nodup
  final : ∀ r ∈ s.store, r.outcome ≠ .inFlight → J.Faithful r
  marked : ∀ r ∈ s.store, r.outcome = .inFlight → J.Faithful (markRecordInterrupted r)
  pending : ∀ w ∈ s.pending, Final J w.1
  queue : ∀ w ∈ writesIn s.queue, Final J w.1
  todo : ∀ r ∈ s.todo, Final J r

section

variable {J : RecordCodec} {s t : Persisting}

theorem interrupt_cases (h : step J s .interrupt = some t) : ∃ record records,
    s.owner = .interrupting (record :: records) ∧
      t = { s with owner := .interrupting records }.offer record maxRetentionRequests := by
  dsimp only [step] at h
  split at h
  · rename_i record records howner
    exact ⟨record, records, howner, (Option.some.inj h).symm⟩
  · cases h

theorem receive_cases {result : WriteResult} (h : step J s (.receive result) = some t) :
    (s.writer = .running ∨ s.writer = .draining) ∧ ∃ message queue,
      s.queue = message :: queue ∧ t = { s with queue := queue }.receive J result message := by
  dsimp only [step] at h
  split_ifs at h with hwriter
  split at h
  · cases h
  · rename_i message queue hqueue
    exact ⟨hwriter, message, queue, hqueue, (Option.some.inj h).symm⟩

theorem sound_start {table : InspectorTable} (h : TableWF J table) (retentionRequests : ℕ) :
    Sound J (start J table retentionRequests) := by
  have htable := InspectorTable.tableWF_pruneRecords h (clampRetention retentionRequests)
  have hfinal : ∀ r ∈ (start J table retentionRequests).store, Final J r :=
    fun r hr => InspectorTable.final_of_loaded htable hr
  exact ⟨htable, InspectorTable.nodup_loaded htable _, fun r hr _ => (hfinal r hr).faithful,
    fun r hr hflight => absurd hflight (hfinal r hr).finished, by simp [start],
    by simp [start, writesIn], by simp [start, Persisting.todo]⟩

theorem writesIn_shutdown (queue : List PersistenceMessage) :
    writesIn (queue ++ [.shutdown]) = writesIn queue := by
  rw [writesIn, List.filterMap_append]
  exact List.append_nil _

theorem writesIn_offer (s : Persisting) (record : InspectorRequestRecord) (n : ℕ) :
    writesIn (s.offer record n).queue = writesIn s.queue ∨
      writesIn (s.offer record n).queue = writesIn s.queue ++ [(record, n)] := by
  unfold offer
  split_ifs
  · exact Or.inl rfl
  · exact Or.inr (List.filterMap_append)

theorem sound_offer (hs : Sound J s) {record : InspectorRequestRecord} (hrecord : Final J record)
    (n : ℕ) : Sound J (s.offer record n) := by
  have hqueue : ∀ w ∈ writesIn (s.offer record n).queue, Final J w.1 := by
    obtain heq | heq := writesIn_offer s record n
    · rw [heq]
      exact hs.queue
    · rw [heq]
      intro w hw
      obtain hw | hw := List.mem_append.mp hw
      · exact hs.queue w hw
      · rw [List.mem_singleton.mp hw]
        exact hrecord
  unfold offer at hqueue ⊢
  split_ifs at hqueue ⊢
  · exact ⟨hs.table, hs.ids, hs.final, hs.marked, hs.pending, hqueue, hs.todo⟩
  · exact ⟨hs.table, hs.ids, hs.final, hs.marked, hs.pending, hqueue, hs.todo⟩

theorem mem_call (hs : (s.store.map InspectorRequestRecord.id).Nodup) {call : InspectorCall}
    (henabled : call.enabled = true) {r : InspectorRequestRecord} (hr : r ∈ s.store.call call) :
    r = call.record ∨ r.id ≠ call.record.id ∧ r ∈ s.store := by
  rw [InspectorStore.call_eq, henabled, if_pos rfl] at hr
  exact mem_upsert hs hr

theorem nodup_call (hs : (s.store.map InspectorRequestRecord.id).Nodup) {call : InspectorCall}
    (henabled : call.enabled = true) :
    ((s.store.call call).map InspectorRequestRecord.id).Nodup := by
  rw [InspectorStore.call_eq, henabled, if_pos rfl]
  exact nodup_upsert hs

theorem sound_call (hs : Sound J s) {call : InspectorCall} (hcall : Promised J (.call call))
    (h : step J s (.call call) = some t) : Sound J t := by
  obtain ⟨⟨hheld, henabled, -⟩, rfl⟩ := Guarded.of_guard h
  dsimp only [Promised] at hcall
  refine ⟨hs.table, nodup_call hs.ids henabled, fun r hr hne => ?_, fun r hr hflight => ?_, ?_,
    hs.queue, hs.todo⟩
  · obtain rfl | ⟨-, hr⟩ := mem_call hs.ids henabled hr
    · split_ifs at hcall with hkind
      · exact absurd hcall.1 hne
      · exact hcall.2
    · exact hs.final r hr hne
  · obtain rfl | ⟨-, hr⟩ := mem_call hs.ids henabled hr
    · split_ifs at hcall with hkind
      · exact hcall.2
      · exact absurd hflight hcall.1
    · exact hs.marked r hr hflight
  · dsimp only
    split_ifs at hcall ⊢ with hkind
    · exact hs.pending
    · intro w hw
      obtain hw | hw := List.mem_append.mp hw
      · exact hs.pending w hw
      · rw [List.mem_singleton.mp hw]
        exact ⟨hcall.1, hcall.2⟩

theorem sound_drop (hs : Sound J s) (h : step J s .drop = some t) : Sound J t := by
  obtain ⟨-, rfl⟩ := Guarded.of_guard h
  have hfinal : ∀ r ∈ markAll s.store, Final J r := by
    intro r hr
    obtain ⟨hne, ⟨old, hold, hflight, rfl⟩ | hr⟩ := mem_markAll hr
    · exact ⟨hne, hs.marked old hold hflight⟩
    · exact ⟨hne, hs.final r hr hne⟩
  refine ⟨hs.table, ?_, fun r hr _ => (hfinal r hr).faithful,
    fun r hr hflight => absurd hflight (hfinal r hr).finished, hs.pending, hs.queue,
    fun r hr => hfinal r (List.mem_filter.mp hr).1⟩
  rw [ids_markAll]
  exact hs.ids

theorem tableWF_persisted {table : InspectorTable} (h : TableWF J table)
    {record : InspectorRequestRecord} (hrecord : Final J record) (n : ℕ) (result : WriteResult) :
    TableWF J (persisted J table record n result) := by
  have hinsert := InspectorTable.tableWF_insertOrReplace h hrecord
  cases result with
  | written => exact InspectorTable.tableWF_pruneRecords hinsert n
  | unpruned => exact hinsert
  | failed => exact h

theorem sound_receive (hs : Sound J s) {result : WriteResult}
    (h : step J s (.receive result) = some t) : Sound J t := by
  obtain ⟨-, message, queue, hqueue, rfl⟩ := receive_cases h
  have hmessages := hs.queue
  rw [hqueue] at hmessages
  cases message with
  | shutdown => exact ⟨hs.table, hs.ids, hs.final, hs.marked, hs.pending, hmessages, hs.todo⟩
  | record record n =>
    obtain ⟨hrecord, hrest⟩ := List.forall_mem_cons.mp hmessages
    exact ⟨tableWF_persisted hs.table hrecord n result, hs.ids, hs.final, hs.marked, hs.pending,
      hrest, hs.todo⟩

theorem Sound.interrupting (hs : Sound J s) {records : List InspectorRequestRecord}
    (howner : s.owner = .interrupting records) : ∀ r ∈ records, Final J r := by
  have htodo := hs.todo
  rwa [Persisting.todo, howner] at htodo

/-- **Every step keeps it.** -/
theorem sound_step {a : PersistingAction} (ha : Promised J a) (hs : Sound J s)
    (h : step J s a = some t) : Sound J t := by
  cases a with
  | call call => exact sound_call hs ha h
  | hand id =>
    obtain ⟨w, hfind, rfl⟩ := Option.map_eq_some_iff.mp h
    have hw := hs.pending w (List.mem_of_find?_eq_some hfind)
    have hrest : Sound J { s with pending := s.pending.filter fun other => other.1.id ≠ id } :=
      ⟨hs.table, hs.ids, hs.final, hs.marked,
        fun other hother => hs.pending other (List.mem_filter.mp hother).1, hs.queue, hs.todo⟩
    exact sound_offer hrest hw _
  | drop => exact sound_drop hs h
  | interrupt =>
    obtain ⟨record, records, howner, rfl⟩ := interrupt_cases h
    obtain ⟨hrecord, hrecords⟩ := List.forall_mem_cons.mp (hs.interrupting howner)
    have hrest : Sound J { s with owner := .interrupting records } :=
      ⟨hs.table, hs.ids, hs.final, hs.marked, hs.pending, hs.queue, hrecords⟩
    exact sound_offer hrest hrecord _
  | raise | join =>
    obtain ⟨-, rfl⟩ := Guarded.of_guard h
    exact ⟨hs.table, hs.ids, hs.final, hs.marked, hs.pending, hs.queue, by simp [Persisting.todo]⟩
  | tell =>
    obtain ⟨-, rfl⟩ := Guarded.of_guard h
    refine ⟨hs.table, hs.ids, hs.final, hs.marked, hs.pending, ?_, by simp [Persisting.todo]⟩
    dsimp only
    split_ifs
    · exact hs.queue
    · rw [writesIn_shutdown]
      exact hs.queue
  | started | notice =>
    obtain ⟨-, rfl⟩ := Guarded.of_guard h
    exact ⟨hs.table, hs.ids, hs.final, hs.marked, hs.pending, hs.queue, hs.todo⟩
  | receive result => exact sound_receive hs h
  | startFails | expire =>
    obtain ⟨-, rfl⟩ := Guarded.of_guard h
    exact ⟨hs.table, hs.ids, hs.final, hs.marked, hs.pending, by simp [writesIn], hs.todo⟩
  | kill =>
    obtain rfl := Option.some.inj h
    exact ⟨hs.table, hs.ids, hs.final, hs.marked, by simp, by simp [writesIn],
      by simp [Persisting.todo]⟩
  | restart n =>
    obtain ⟨-, rfl⟩ := Guarded.of_guard h
    exact sound_start hs.table n

/-- **No request comes back as one in flight**: whatever a process wrote, lost or was killed in the
middle of, and however often the table was opened again, what is read from it are records of
requests that came to an end, one for each id. -/
theorem restored_finished {table : InspectorTable} {n : ℕ} {as : List PersistingAction}
    (htable : TableWF J table) (ha : ∀ a ∈ as, Promised J a)
    (h : Guarded.run (step J) (start J table n) as = some s) (limit : ℕ) :
    ((s.table.loadLatestRecords J limit).map InspectorRequestRecord.id).Nodup ∧
      ∀ r ∈ s.table.loadLatestRecords J limit, r.outcome ≠ .inFlight := by
  have hs : Sound J s := Guarded.run_inv_along (P := fun _ a => Promised J a)
    (fun _ _ _ ha hs hstep => sound_step ha hs hstep) (sound_start htable n)
    (Guarded.along_of_forall ha) h
  exact ⟨InspectorTable.nodup_loaded hs.table limit,
    fun r hr => (InspectorTable.final_of_loaded hs.table hr).finished⟩

end

/-- A request that is in flight. -/
def flightCall : InspectorCall where
  kind := .upsert
  enabled := true
  retentionRequests := 10
  record := { plainRecord "1-1-1" with outcome := .inFlight }

/-- A request that came to an end. -/
def finalCall : InspectorCall where
  kind := .upsertFinal
  enabled := true
  retentionRequests := 10
  record := plainRecord "1-1-2"

/-- The records that are written in the samples. -/
def sampleCodec : RecordCodec :=
  codecOf [markRecordInterrupted flightCall.record, finalCall.record]

/-- The process is killed when one of two records was written. -/
theorem restored_finished_killed : ∃ s, Guarded.run (step sampleCodec) (start sampleCodec [] 10)
      [.call flightCall, .call finalCall, .started, .hand "1-1-2", .receive .written, .kill,
        .restart 10] = some s ∧
    s.table.length = 1 ∧ ∀ r ∈ s.table.loadLatestRecords sampleCodec 10, r.outcome ≠ .inFlight := by
  obtain ⟨s, hrun, hlength⟩ : ∃ s, s ∈ Guarded.run (step sampleCodec) (start sampleCodec [] 10)
      [.call flightCall, .call finalCall, .started, .hand "1-1-2", .receive .written, .kill,
        .restart 10] ∧ s.table.length = 1 := by decide +kernel
  have hempty : TableWF sampleCodec [] := ⟨List.nodup_nil, List.Pairwise.nil, by simp⟩
  have hfinished := restored_finished hempty (by decide +kernel) hrun 10
  exact ⟨s, hrun, hlength, hfinished.2⟩

section

variable {J : RecordCodec} {s t : Persisting}

/-! ### Nothing is lost uncounted -/

/-- A table after some writes that all succeed. -/
def writeAll (J : RecordCodec) (table : InspectorTable)
    (writes : List (InspectorRequestRecord × ℕ)) : InspectorTable :=
  writes.foldl (fun table w => table.persistRecord J w.1 w.2) table

/-- Every record that was handed over was written, waits, was lost or was refused; and if none was
lost or refused, the table is what it would be if all that do not wait had been written at once. -/
structure Counted (J : RecordCodec) (s : Persisting) : Prop where
  counted : s.offered.length = s.drained + (writesIn s.queue).length + s.lost + s.dropped
  marks : s.queue.Pairwise fun a b => a = .shutdown → b.toWrite = none
  stopped : s.writer = .stopped → s.queue = []
  written : s.lost = 0 → s.dropped = 0 → s.failed = 0 → ∃ taken,
    s.offered = taken ++ writesIn s.queue ∧ s.table = writeAll J s.initial taken
  offered : ∀ w ∈ s.offered, Final J w.1
  joined : s.owner = .gone → s.writer = .stopped
  restored : ∀ r ∈ s.restored, ∃ row ∈ s.initial,
    row.schemaVersion ≤ currentSchemaVersion ∧ J.fromJson row.recordJson = some r
  initial : TableWF J s.initial

theorem Counted.owner (hs : Counted J s) {store : InspectorStore}
    {pending : List (InspectorRequestRecord × ℕ)} {owner : StoreOwner} {shutdown : Bool}
    (h : owner = .gone → s.writer = .stopped) :
    Counted J { s with store := store, pending := pending, owner := owner, shutdown := shutdown } :=
  ⟨hs.counted, hs.marks, hs.stopped, hs.written, hs.offered, h, hs.restored, hs.initial⟩

end

end Persisting

end Onair
