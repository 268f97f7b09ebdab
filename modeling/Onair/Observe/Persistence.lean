import Mathlib.Data.Prod.Lex
import Mathlib.Order.PiLex
import Mathlib.Data.List.Lex
import Onair.Lib.Json.Reference
import Onair.Lib.Ranked
import Onair.Observe.Retention

/-!
# Persistence

The last records of requests go into a table, which keeps as many of them as the store; a restart
reads them back. The newest are found by their start and, for the same millisecond, by the text of
their ids.

* `nextRecordId`, `issuedIds`: the ids of requests;
* `persistRecord`, `loadLatestRecords`: the table;
* `persistAll_eq`: what is in the table after some records;
* **`restore_iff`**: a restart brings back the newest requests in their order, if and only if the
  texts of their ids are in that order.
-/

namespace Onair

open Text Ranked

/-! ### Ids -/

/-- The most characters of a client's request id that are kept. -/
def displaySegmentMaxChars : ℕ := 512

/-- A character as it is stored. -/
def storedChar (c : Char) : Option Char :=
  if c.toNat < 128 ∧ (c.isAlphanum ∨ c = '-' ∨ c = '_' ∨ c = '.') then some c
  else if c.toNat < 128 ∧ ¬(c.toNat < 32 ∨ c.toNat = 127) then some '_'
  else none

/-- A text as it is stored, if anything is left of it. -/
def sanitizeForStorage (value : String) (maxChars : ℕ) : Option String :=
  let segment := (value.toList.filterMap storedChar).take maxChars
  if segment.isEmpty then none else some (String.ofList segment)

/-- The id of a record. -/
def nextRecordId (processId sequence startedAtUnixMs : ℕ) (clientRequestId : Option String) :
    String :=
  let recordId := startedAtUnixMs.repr ++ "-" ++ processId.repr ++ "-" ++ sequence.repr
  match clientRequestId.bind fun value => sanitizeForStorage value displaySegmentMaxChars with
  | some clientRequestId => recordId ++ "-" ++ clientRequestId
  | none => recordId

/-- A request that was given an id. -/
structure IssuedRequest where
  startedAtUnixMs : ℕ
  clientRequestId : Option String
  deriving DecidableEq, Repr

/-- The id of a request, by its number. -/
def issuedId (processId : ℕ) (request : IssuedRequest × ℕ) : String :=
  nextRecordId processId (request.2 + 1) request.1.startedAtUnixMs request.1.clientRequestId

/-! ### The table -/

/-- The JSON of records. -/
structure RecordCodec where
  toJson : InspectorRequestRecord → String
  fromJson : String → Option InspectorRequestRecord

/-- The version of the table. -/
def currentSchemaVersion : ℕ := 1

/-- The greatest integer of the database. -/
def sqliteMax : ℕ := 2 ^ 63 - 1

/-- A number as the database has it. -/
def sqliteU64 (value : ℕ) : ℕ := min value sqliteMax

/-- A limit as the database has it. -/
def sqliteUsize (value : ℕ) : ℕ := min value sqliteMax

/-- A row, with the columns that are read. -/
structure InspectorRow where
  recordId : String
  startedAtUnixMs : ℕ
  schemaVersion : ℕ
  recordJson : String
  deriving DecidableEq, Repr

/-- A text as the database compares it. -/
def binaryText (s : String) : List ℕ := (asBytes s).map UInt8.toNat

/-- What rows are ordered by. -/
def InspectorRow.key (row : InspectorRow) : ℕ ×ₗ List ℕ :=
  toLex (row.startedAtUnixMs, binaryText row.recordId)

/-- The rows, in the order of their index: newest first. -/
abbrev InspectorTable : Type := List InspectorRow

/-- The row of a record. -/
def RecordCodec.row (J : RecordCodec) (record : InspectorRequestRecord) : InspectorRow where
  recordId := record.id
  startedAtUnixMs := sqliteU64 record.base.startedAtUnixMs
  schemaVersion := currentSchemaVersion
  recordJson := J.toJson record

namespace InspectorTable

/-- The newest rows: `ORDER BY started_at_unix_ms DESC, record_id DESC LIMIT`. -/
def latest (table : InspectorTable) (limit : ℕ) : InspectorTable := table.take limit

/-- `INSERT OR REPLACE`. -/
def insertOrReplace (table : InspectorTable) (row : InspectorRow) : InspectorTable :=
  put InspectorRow.key (table.filter fun other => other.recordId ≠ row.recordId) row

/-- Delete all but the newest rows. -/
def pruneRecords (table : InspectorTable) (retentionRequests : ℕ) : InspectorTable :=
  table.filter fun row =>
    row.recordId ∈ (table.latest (sqliteUsize retentionRequests)).map InspectorRow.recordId

/-- Write a record, and delete all but the newest. -/
def persistRecord (J : RecordCodec) (table : InspectorTable) (record : InspectorRequestRecord)
    (retentionRequests : ℕ) : InspectorTable :=
  (table.insertOrReplace (J.row record)).pruneRecords retentionRequests

/-- The newest records, oldest first. -/
def loadLatestRecords (J : RecordCodec) (table : InspectorTable) (retentionRequests : ℕ) :
    List InspectorRequestRecord :=
  let rows := InspectorTable.latest
    (table.filter fun row => row.schemaVersion ≤ currentSchemaVersion)
    (sqliteUsize retentionRequests)
  rows.reverse.filterMap fun row => J.fromJson row.recordJson

/-- What some records leave in an empty table. -/
def persistAll (J : RecordCodec) (retentionRequests : ℕ)
    (records : List InspectorRequestRecord) : InspectorTable :=
  records.foldl (fun table record => persistRecord J table record retentionRequests) []

end InspectorTable

/-! ### Ranked records -/

/-- What the row of a record is ordered by. -/
def InspectorRequestRecord.key (record : InspectorRequestRecord) : ℕ ×ₗ List ℕ :=
  toLex (sqliteU64 record.base.startedAtUnixMs, binaryText record.id)

theorem binaryText_injective : Function.Injective binaryText := by
  intro s t h
  have hbytes : asBytes s = asBytes t :=
    List.map_injective_iff.mpr (fun _ _ => UInt8.toNat_inj.mp) h
  have hread := fromUtf8_asBytes s
  rw [hbytes, fromUtf8_asBytes] at hread
  exact (Option.some.inj hread).symm

/-- The start of a record is known from its id. -/
def StartOfId (records : List InspectorRequestRecord) : Prop :=
  ∀ a ∈ records, ∀ b ∈ records, a.id = b.id → a.base.startedAtUnixMs = b.base.startedAtUnixMs

theorem StartOfId.key_eq_iff {records : List InspectorRequestRecord} (h : StartOfId records)
    {a b : InspectorRequestRecord} (ha : a ∈ records) (hb : b ∈ records) :
    a.key = b.key ↔ a.id = b.id := by
  constructor
  · intro hkey
    exact binaryText_injective (Prod.ext_iff.mp (toLex.injective hkey)).2
  · intro hid
    rw [InspectorRequestRecord.key, InspectorRequestRecord.key, h a ha b hb hid, hid]

theorem nodup_ids {records : List InspectorRequestRecord} (h : StartOfId records)
    (hrank : Descending InspectorRequestRecord.key records) :
    (records.map InspectorRequestRecord.id).Nodup := by
  refine List.pairwise_map.mpr (List.Pairwise.imp_of_mem (fun {a b} ha hb hlt hid => ?_) hrank)
  exact hlt.ne ((h.key_eq_iff ha hb).mpr hid).symm

/-- To delete all but the newest rows is to keep the newest. -/
theorem pruneRecords_eq {table : InspectorTable} (h : (table.map InspectorRow.recordId).Nodup)
    (retention : ℕ) : table.pruneRecords retention = table.take (sqliteUsize retention) := by
  unfold InspectorTable.pruneRecords InspectorTable.latest
  generalize sqliteUsize retention = n
  have hsplit := h
  rw [← List.take_append_drop n table, List.map_append, List.nodup_append] at hsplit
  conv_lhs => enter [2]; rw [← List.take_append_drop n table]
  rw [List.filter_append, List.filter_eq_self.mpr, List.filter_eq_nil_iff.mpr, List.append_nil]
  · intro row hrow hmem
    exact hsplit.2.2 _ (of_decide_eq_true hmem) _ (List.mem_map_of_mem hrow) rfl
  · intro row hrow
    exact decide_eq_true (List.mem_map_of_mem hrow)

theorem mem_of_mem_putAll {records : List InspectorRequestRecord} {a : InspectorRequestRecord}
    (h : a ∈ putAll InspectorRequestRecord.key [] records) : a ∈ records := by
  obtain hfind | ⟨hnil, -⟩ := (mem_putAll List.Pairwise.nil).mp h
  · exact List.mem_reverse.mp (List.mem_of_find?_eq_some hfind)
  · cases hnil

theorem StartOfId.subset {records new : List InspectorRequestRecord} (h : StartOfId records)
    (hsub : ∀ a ∈ new, a ∈ records) : StartOfId new :=
  fun a ha b hb => h a (hsub a ha) b (hsub b hb)

section Table

variable (J : RecordCodec)

/-- **A record is put where its key belongs, and only the newest are kept.** -/
theorem persistRecord_eq {records : List InspectorRequestRecord} {record : InspectorRequestRecord}
    (h : StartOfId (record :: records)) (hrank : Descending InspectorRequestRecord.key records)
    (retention : ℕ) :
    InspectorTable.persistRecord J (records.map J.row) record retention =
      ((put InspectorRequestRecord.key records record).take (sqliteUsize retention)).map J.row := by
  have hfilter : put InspectorRequestRecord.key
      (records.filter fun other => other.id ≠ record.id) record =
      put InspectorRequestRecord.key records record := put_filter hrank fun a ha => by
      rw [decide_eq_true_iff, ne_eq, ne_eq,
        h.key_eq_iff (List.mem_cons_of_mem _ ha) List.mem_cons_self]
  have hinsert : InspectorTable.insertOrReplace (records.map J.row) (J.row record) =
      (put InspectorRequestRecord.key records record).map J.row := by
    rw [InspectorTable.insertOrReplace, List.filter_map, put_map]
    exact congrArg _ hfilter
  have hnodup : ((put InspectorRequestRecord.key records record).map
      InspectorRequestRecord.id).Nodup := by
    refine nodup_ids (h.subset fun a ha => ?_) (descending_put hrank record)
    obtain rfl | ⟨ha, -⟩ := (mem_put hrank).mp ha
    · exact List.mem_cons_self
    · exact List.mem_cons_of_mem _ ha
  rw [InspectorTable.persistRecord, hinsert, pruneRecords_eq (by rwa [List.map_map]),
    List.map_take]

/-- **What is left of some records**: the last of each request, and of these the newest. -/
theorem persistAll_eq {records : List InspectorRequestRecord} (h : StartOfId records)
    (retention : ℕ) : InspectorTable.persistAll J retention records =
      ((putAll InspectorRequestRecord.key [] records).take (sqliteUsize retention)).map J.row := by
  induction records using List.reverseRecOn with
  | nil => simp [InspectorTable.persistAll, putAll]
  | append_singleton records record ih =>
    have hprev := ih (h.subset fun a ha => List.mem_append_left _ ha)
    have hrank : Descending InspectorRequestRecord.key
        (putAll InspectorRequestRecord.key [] records) :=
      descending_putAll List.Pairwise.nil records
    have hstart : StartOfId (record ::
        (putAll InspectorRequestRecord.key [] records).take (sqliteUsize retention)) := by
      refine h.subset (List.forall_mem_cons.mpr ⟨by simp, fun a ha => ?_⟩)
      exact List.mem_append_left _ (mem_of_mem_putAll (List.mem_of_mem_take ha))
    have hstep := persistRecord_eq J hstart (hrank.sublist (List.take_sublist _ _)) retention
    rw [take_put_take] at hstep
    rw [InspectorTable.persistAll, List.foldl_append, putAll, List.foldl_append]
    exact (congrArg (fun t => InspectorTable.persistRecord J t record retention) hprev).trans hstep

theorem loadLatestRecords_eq {records : List InspectorRequestRecord}
    (hJ : ∀ r ∈ records, J.fromJson (J.toJson r) = some r) (retention : ℕ) :
    InspectorTable.loadLatestRecords J ((records.take (sqliteUsize retention)).map J.row)
      retention = (records.take (sqliteUsize retention)).reverse := by
  have hversion : ∀ row ∈ (records.take (sqliteUsize retention)).map J.row,
      decide (row.schemaVersion ≤ currentSchemaVersion) = true := by
    intro row hrow
    obtain ⟨r, -, rfl⟩ := List.mem_map.mp hrow
    exact decide_eq_true (Nat.le_refl _)
  rw [InspectorTable.loadLatestRecords, List.filter_eq_self.mpr hversion, InspectorTable.latest,
    ← List.map_take, List.take_take, Nat.min_self, ← List.map_reverse, List.filterMap_map]
  have hread : ∀ r ∈ (records.take (sqliteUsize retention)).reverse,
      J.fromJson (J.row r).recordJson = some r :=
    fun r hr => hJ r (List.mem_of_mem_take (List.mem_reverse.mp hr))
  refine (List.filterMap_congr hread).trans ?_
  exact List.filterMap_some

end Table

/-! ### The order of requests -/

/-- The records are those of requests of a process. -/
def IssuedRecords (processId : ℕ) (requests : List IssuedRequest)
    (records : List InspectorRequestRecord) : Prop :=
  ∀ r ∈ records, ∃ request ∈ requests.zipIdx, r.id = issuedId processId request ∧
    r.base.startedAtUnixMs = request.1.startedAtUnixMs

/-- The requests that have records, each with its last, in the order of the requests. -/
def issueOrder (processId : ℕ) (requests : List IssuedRequest)
    (records : List InspectorRequestRecord) : List InspectorRequestRecord :=
  requests.zipIdx.filterMap fun request =>
    Fifo.get InspectorRequestRecord.id records (issuedId processId request)

/-- The last of some records. -/
def newest (retention : ℕ) (records : List InspectorRequestRecord) :
    List InspectorRequestRecord := (records.reverse.take retention).reverse

/-- The id of a record is before that of another, if their requests came in the same
millisecond. -/
def IdBefore (a b : InspectorRequestRecord) : Prop :=
  sqliteU64 a.base.startedAtUnixMs = sqliteU64 b.base.startedAtUnixMs →
    binaryText a.id < binaryText b.id

/-- The text of the id of each of the newest records is after those of the requests before it in the
same millisecond. -/
def IdsInOrder (retention : ℕ) (records : List InspectorRequestRecord) : Prop :=
  (records.reverse.take retention).Pairwise (fun r earlier => IdBefore earlier r) ∧
    ∀ r ∈ records.reverse.take retention, ∀ earlier ∈ records.reverse.drop retention,
      IdBefore earlier r

theorem dash_not_mem_repr (n : ℕ) : '-' ∉ n.repr.toList := by
  intro h
  rw [Nat.toList_repr] at h
  exact absurd (Nat.isDigit_of_mem_toDigits (by decide) (by decide) h) (by decide)

theorem nextRecordId_toList (processId sequence startedAtUnixMs : ℕ)
    (clientRequestId : Option String) :
    ∃ rest : List Char, (rest = [] ∨ ∃ l, rest = '-' :: l) ∧
      (nextRecordId processId sequence startedAtUnixMs clientRequestId).toList =
        startedAtUnixMs.repr.toList ++ '-' :: (processId.repr.toList ++
          '-' :: (sequence.repr.toList ++ rest)) := by
  unfold nextRecordId
  cases clientRequestId.bind fun value => sanitizeForStorage value displaySegmentMaxChars with
  | none => exact ⟨[], Or.inl rfl, by simp [String.toList_append]⟩
  | some client => exact ⟨'-' :: client.toList, Or.inr ⟨_, rfl⟩, by simp [String.toList_append]⟩

theorem splitList_head {l r : List Char} (hl : '-' ∉ l) (hr : r = [] ∨ ∃ t, r = '-' :: t) :
    (splitList '-' (l ++ r)).head? = some l := by
  obtain rfl | ⟨t, rfl⟩ := hr
  · rw [List.append_nil, splitList_of_not_mem hl]
    rfl
  · rw [splitList_append hl]
    rfl

/-- The number of a request is the third part of its id. -/
theorem sequence_of_id (processId sequence startedAtUnixMs : ℕ) (clientRequestId : Option String) :
    ((splitList '-' (nextRecordId processId sequence startedAtUnixMs
      clientRequestId).toList).drop 2).head? = some sequence.repr.toList := by
  obtain ⟨rest, hrest, hid⟩ :=
    nextRecordId_toList processId sequence startedAtUnixMs clientRequestId
  rw [hid, splitList_append (dash_not_mem_repr _), splitList_append (dash_not_mem_repr _)]
  exact splitList_head (dash_not_mem_repr _) hrest

/-- **No two requests have the same id.** -/
theorem issuedId_injective {processId : ℕ} {a b : IssuedRequest × ℕ}
    (h : issuedId processId a = issuedId processId b) : a.2 = b.2 := by
  have ha := sequence_of_id processId (a.2 + 1) a.1.startedAtUnixMs a.1.clientRequestId
  have hb := sequence_of_id processId (b.2 + 1) b.1.startedAtUnixMs b.1.clientRequestId
  unfold issuedId at h
  rw [h, hb, Option.some_inj, Nat.toList_repr, Nat.toList_repr] at ha
  have hdigits := congrArg (fun l => Nat.ofDigitChars 10 l 0) ha
  simp only [Nat.ofDigitChars_ten_toDigits] at hdigits
  omega

/-- A record of an earlier request is ranked below another, if its id is before the other's. -/
theorem key_lt_iff {a b : InspectorRequestRecord}
    (h : a.base.startedAtUnixMs ≤ b.base.startedAtUnixMs) : a.key < b.key ↔ IdBefore a b := by
  have hle : sqliteU64 a.base.startedAtUnixMs ≤ sqliteU64 b.base.startedAtUnixMs :=
    min_le_min_right _ h
  rw [InspectorRequestRecord.key, InspectorRequestRecord.key, Prod.Lex.toLex_lt_toLex, IdBefore]
  constructor
  · rintro (hlt | ⟨-, hid⟩) heq
    · exact absurd heq hlt.ne
    · exact hid
  · intro hid
    obtain hlt | heq := hle.lt_or_eq
    · exact Or.inl hlt
    · exact Or.inr ⟨heq, hid heq⟩

section Issued

variable {processId retention : ℕ} {requests : List IssuedRequest}
  {records : List InspectorRequestRecord} (hissued : IssuedRecords processId requests records)

theorem get_eq_some {id : String} {r : InspectorRequestRecord}
    (h : Fifo.get InspectorRequestRecord.id records id = some r) : r ∈ records ∧ r.id = id := by
  have hid := List.find?_some h
  exact ⟨List.mem_reverse.mp (List.mem_of_find?_eq_some h), by simpa using hid⟩

theorem eq_of_issuedId {a b : IssuedRequest × ℕ} (ha : a ∈ requests.zipIdx)
    (hb : b ∈ requests.zipIdx) (h : issuedId processId a = issuedId processId b) : a = b := by
  have hindex := issuedId_injective h
  have ha := List.mem_zipIdx_iff_getElem?.mp ha
  have hb := List.mem_zipIdx_iff_getElem?.mp hb
  rw [hindex, hb] at ha
  exact Prod.ext (Option.some.inj ha).symm hindex

include hissued

theorem startOfId_issued : StartOfId records := by
  intro a ha b hb hid
  obtain ⟨qa, hqa, hida, hstarta⟩ := hissued a ha
  obtain ⟨qb, hqb, hidb, hstartb⟩ := hissued b hb
  obtain rfl := eq_of_issuedId hqa hqb (hida.symm.trans (hid.trans hidb))
  rw [hstarta, hstartb]

/-- The records in the order of the requests are those of different requests, in the order in which
these came. -/
theorem issueOrder_pairwise
    (hsorted : requests.Pairwise fun a b => a.startedAtUnixMs ≤ b.startedAtUnixMs) :
    (issueOrder processId requests records).Pairwise fun a b =>
      a.id ≠ b.id ∧ a.base.startedAtUnixMs ≤ b.base.startedAtUnixMs := by
  have hzip : requests.zipIdx.Pairwise fun a b =>
      a.2 ≠ b.2 ∧ a.1.startedAtUnixMs ≤ b.1.startedAtUnixMs := by
    rw [List.pairwise_iff_getElem] at hsorted ⊢
    intro i j hi hj hij
    rw [List.getElem_zipIdx, List.getElem_zipIdx]
    rw [List.length_zipIdx] at hi hj
    exact ⟨by simp; omega, hsorted i j hi hj hij⟩
  refine List.pairwise_filterMap.mpr (List.Pairwise.imp_of_mem ?_ hzip)
  intro qa qb hqa hqb hq a ha b hb
  obtain ⟨hmema, hida⟩ := get_eq_some ha
  obtain ⟨hmemb, hidb⟩ := get_eq_some hb
  have hstart {q : IssuedRequest × ℕ} (hq : q ∈ requests.zipIdx) {r : InspectorRequestRecord}
      (hr : r ∈ records) (hid : r.id = issuedId processId q) :
      r.base.startedAtUnixMs = q.1.startedAtUnixMs := by
    obtain ⟨q', hq', hid', hstart'⟩ := hissued r hr
    obtain rfl := eq_of_issuedId hq hq' (hid.symm.trans hid')
    exact hstart'
  rw [hida, hidb, hstart hqa hmema hida, hstart hqb hmemb hidb]
  exact ⟨fun hid => hq.1 (issuedId_injective hid), hq.2⟩

/-- **What is kept of the records is the last of each request.** -/
theorem mem_putAll_iff_issueOrder {a : InspectorRequestRecord} :
    a ∈ putAll InspectorRequestRecord.key [] records ↔
      a ∈ issueOrder processId requests records := by
  have hstart := startOfId_issued hissued
  have hfind (a : InspectorRequestRecord) (ha : a ∈ records)
      (inst : ∀ b : InspectorRequestRecord, Decidable (b.key = a.key)) :
      (records.reverse.find? fun b => b.key = a.key) =
        Fifo.get InspectorRequestRecord.id records a.id := by
    rw [Fifo.get, ← List.head?_filter, ← List.head?_filter]
    exact congrArg List.head? (List.filter_congr fun b hb =>
      decide_eq_decide.mpr (hstart.key_eq_iff (List.mem_reverse.mp hb) ha))
  rw [mem_putAll List.Pairwise.nil, issueOrder, List.mem_filterMap]
  constructor
  · rintro (h | ⟨h, -⟩)
    · have ha := List.mem_reverse.mp (List.mem_of_find?_eq_some h)
      obtain ⟨q, hq, hid, -⟩ := hissued a ha
      exact ⟨q, hq, hid ▸ (hfind a ha _).symm.trans h⟩
    · cases h
  · rintro ⟨q, hq, hget⟩
    obtain ⟨ha, hid⟩ := get_eq_some hget
    exact Or.inl ((hfind a ha _).trans (hid ▸ hget))

/-- The records are ranked as their requests came if and only if their ids are in that order. -/
theorem ranked_iff_idsInOrder
    (hsorted : requests.Pairwise fun a b => a.startedAtUnixMs ≤ b.startedAtUnixMs) :
    let list := (issueOrder processId requests records).reverse
    (Descending InspectorRequestRecord.key (list.take retention) ∧
        ∀ a ∈ list.take retention, ∀ b ∈ list.drop retention, b.key < a.key) ↔
      IdsInOrder retention (issueOrder processId requests records) := by
  intro list
  have hlist : list.Pairwise fun a b => b.base.startedAtUnixMs ≤ a.base.startedAtUnixMs :=
    List.pairwise_reverse.mpr ((issueOrder_pairwise hissued hsorted).imp And.right)
  have hsplit := hlist
  rw [← List.take_append_drop retention list, List.pairwise_append] at hsplit
  obtain ⟨htake, -, hcross⟩ := hsplit
  refine and_congr ⟨fun h => ?_, fun h => ?_⟩
    (forall₂_congr fun a ha => forall₂_congr fun b hb => ?_)
  · exact (htake.and h).imp fun hab => (key_lt_iff hab.1).mp hab.2
  · exact (htake.and h).imp fun hab => (key_lt_iff hab.1).mpr hab.2
  · exact key_lt_iff (hcross a ha b hb)

/-- **A restart brings back the newest requests, each with its last record, in the order in which
they came, if and only if** the texts of their ids are in the order of the requests that came in the
same millisecond. -/
theorem restore_iff (J : RecordCodec) (hJ : ∀ r ∈ records, J.fromJson (J.toJson r) = some r)
    (hsorted : requests.Pairwise fun a b => a.startedAtUnixMs ≤ b.startedAtUnixMs)
    (hretention : retention ≤ sqliteMax) :
    InspectorTable.loadLatestRecords J (InspectorTable.persistAll J retention records) retention =
        newest retention (issueOrder processId requests records) ↔
      IdsInOrder retention (issueOrder processId requests records) := by
  have hlimit : sqliteUsize retention = retention := min_eq_left hretention
  have hrank : Descending InspectorRequestRecord.key
      (putAll InspectorRequestRecord.key [] records) :=
    descending_putAll List.Pairwise.nil records
  have hnodup : (issueOrder processId requests records).Nodup :=
    (issueOrder_pairwise hissued hsorted).imp fun hab heq => hab.1 (congrArg _ heq)
  have hperm : (putAll InspectorRequestRecord.key [] records).Perm
      (issueOrder processId requests records).reverse :=
    hrank.perm (List.nodup_reverse.mpr hnodup) fun a => by
      rw [mem_putAll_iff_issueOrder hissued, List.mem_reverse]
  rw [persistAll_eq J (startOfId_issued hissued), loadLatestRecords_eq J fun r hr =>
    hJ r (mem_of_mem_putAll hr), hlimit, newest, List.reverse_inj, take_eq_take_iff hrank hperm]
  exact ranked_iff_idsInOrder hissued hsorted

end Issued

/-! ### Ids of one millisecond -/

/-- Texts of digits, with or without a dash after them, are ordered as the digits are. -/
theorem digits_lt_iff {l r : List ℕ} (hl : ∀ n ∈ l, 45 < n) (hr : ∀ n ∈ r, 45 < n) (hne : l ≠ r)
    {s t : List ℕ} (hs : s = [] ∨ ∃ u, s = 45 :: u) (ht : t = [] ∨ ∃ u, t = 45 :: u) :
    l ++ s < r ++ t ↔ l < r := by
  induction l generalizing r with
  | nil =>
    cases r with
    | nil => exact absurd rfl hne
    | cons m r =>
      refine iff_of_true ?_ (List.nil_lt_cons m r)
      obtain rfl | ⟨u, rfl⟩ := hs
      · exact List.nil_lt_cons _ _
      · exact List.cons_lt_cons_iff.mpr (Or.inl (hr m (by simp)))
  | cons n l ih =>
    cases r with
    | nil =>
      refine iff_of_false ?_ (List.not_lt_nil _)
      obtain rfl | ⟨u, rfl⟩ := ht
      · exact List.not_lt_nil _
      · have hn := hl n (by simp)
        rw [List.nil_append, List.cons_append, List.cons_lt_cons_iff]
        omega
    | cons m r =>
      rw [List.forall_mem_cons] at hl hr
      rw [List.cons_append, List.cons_append, List.cons_lt_cons_iff, List.cons_lt_cons_iff]
      refine or_congr_right (and_congr_right fun hnm => ih hl.2 hr.2 fun hlr => hne ?_)
      rw [hnm, hlr]

theorem append_lt_append_iff (l s t : List ℕ) : l ++ s < l ++ t ↔ s < t := by
  induction l with
  | nil => rfl
  | cons n l ih =>
    rw [List.cons_append, List.cons_append, List.cons_lt_cons_iff, ih]
    simp

theorem forall_mem_binaryText_repr (n : ℕ) : ∀ b ∈ binaryText n.repr, 45 < b := by
  intro b hb
  obtain ⟨byte, hbyte, rfl⟩ := List.mem_map.mp hb
  by_contra hle
  have hc := mem_asBytes hbyte (by omega)
  rw [Nat.toList_repr] at hc
  have hdigit := Nat.isDigit_of_mem_toDigits (by decide) (by decide) hc
  have hnone : ∀ n ≤ 45, (Char.ofNat n).isDigit = false := by decide
  rw [hnone _ (by omega)] at hdigit
  cases hdigit

theorem binaryText_issuedId (processId : ℕ) (request : IssuedRequest × ℕ) :
    ∃ rest : List ℕ, (rest = [] ∨ ∃ l, rest = 45 :: l) ∧
      binaryText (issuedId processId request) =
        (binaryText (request.1.startedAtUnixMs.repr ++ "-" ++ processId.repr ++ "-")) ++
          (binaryText (request.2 + 1).repr ++ rest) := by
  obtain ⟨rest, hrest, hid⟩ := nextRecordId_toList processId (request.2 + 1)
    request.1.startedAtUnixMs request.1.clientRequestId
  refine ⟨(rest.flatMap String.utf8EncodeChar).map UInt8.toNat, ?_, ?_⟩
  · obtain rfl | ⟨l, rfl⟩ := hrest
    · exact Or.inl rfl
    · exact Or.inr ⟨_, rfl⟩
  · rw [binaryText, asBytes, issuedId, hid]
    simp [binaryText, asBytes, String.toList_append]

/-- **Ids of one millisecond are ordered as the digits of their numbers are**: `10` comes before
`9`. -/
theorem issuedId_lt_iff (processId : ℕ) {a b : IssuedRequest × ℕ}
    (hstart : a.1.startedAtUnixMs = b.1.startedAtUnixMs) (hne : a.2 ≠ b.2) :
    binaryText (issuedId processId a) < binaryText (issuedId processId b) ↔
      binaryText (a.2 + 1).repr < binaryText (b.2 + 1).repr := by
  obtain ⟨s, hs, ha⟩ := binaryText_issuedId processId a
  obtain ⟨t, ht, hb⟩ := binaryText_issuedId processId b
  have hdigits : binaryText (a.2 + 1).repr ≠ binaryText (b.2 + 1).repr := fun h => by
    have hrepr := congrArg String.toList (binaryText_injective h)
    rw [Nat.toList_repr, Nat.toList_repr] at hrepr
    have hnumber := congrArg (fun l => Nat.ofDigitChars 10 l 0) hrepr
    simp only [Nat.ofDigitChars_ten_toDigits] at hnumber
    omega
  rw [ha, hb, hstart, append_lt_append_iff]
  exact digits_lt_iff (forall_mem_binaryText_repr _) (forall_mem_binaryText_repr _) hdigits hs ht

/-! ### A process -/

/-- Requests that all came in one millisecond. -/
def burst (n : ℕ) : List IssuedRequest := List.replicate n ⟨1, none⟩

/-- A record as JSON. -/
def recordText (record : InspectorRequestRecord) : String :=
  String.ofList (Json.printValue (.obj [
    ("record_id", .string record.id),
    ("started_at_unix_ms", .number (.posInt record.base.startedAtUnixMs.toUInt64)),
    ("method", .string record.base.method),
    ("path", .string record.base.path),
    ("route", .string record.base.route),
    ("identity", .string record.base.identity),
    ("backend", .string record.base.backend),
    ("status", .number (.posInt record.status.toUInt64))]))

/-- The codec of some records. -/
def codecOf (records : List InspectorRequestRecord) : RecordCodec where
  toJson := recordText
  fromJson text := records.find? fun record => recordText record = text

/-- The records of two requests. -/
def eighthNinth : List InspectorRequestRecord := [plainRecord "1-1-9", plainRecord "1-1-8"]

/-- The records of two requests, the number of one of which is longer. -/
def ninthTenth : List InspectorRequestRecord := [plainRecord "1-1-10", plainRecord "1-1-9"]

/-- The ninth request is newer than the eighth. -/
theorem restore_eighthNinth :
    InspectorTable.loadLatestRecords (codecOf eighthNinth)
        (InspectorTable.persistAll (codecOf eighthNinth) 1 eighthNinth) 1 =
      newest 1 (issueOrder 1 (burst 10) eighthNinth) := by
  have hissued : IssuedRecords 1 (burst 10) eighthNinth := by
    unfold IssuedRecords
    decide +kernel
  refine (restore_iff hissued (codecOf eighthNinth) (by decide +kernel) (by decide)
    (by decide)).mpr ?_
  have horder : issueOrder 1 (burst 10) eighthNinth =
      [plainRecord "1-1-8", plainRecord "1-1-9"] := by
    decide +kernel
  rw [horder]
  refine ⟨List.pairwise_singleton _ _, fun r hr earlier hearlier _ => ?_⟩
  obtain rfl := List.mem_singleton.mp hr
  obtain rfl := List.mem_singleton.mp hearlier
  decide +kernel

/-- The tenth request is newer than the ninth, but the ninth comes back. -/
theorem not_restore_ninthTenth :
    IssuedRecords 1 (burst 10) ninthTenth ∧
      (∀ r ∈ ninthTenth, (codecOf ninthTenth).fromJson ((codecOf ninthTenth).toJson r) = some r) ∧
      InspectorTable.loadLatestRecords (codecOf ninthTenth)
          (InspectorTable.persistAll (codecOf ninthTenth) 1 ninthTenth) 1 ≠
        newest 1 (issueOrder 1 (burst 10) ninthTenth) := by
  unfold IssuedRecords
  decide +kernel

end Onair
