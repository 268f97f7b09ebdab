import Onair.Observe.Inspector

/-!
# Retention

The store keeps as many records as the configuration says, and drops the oldest; the number may
change from one call to the next.

* `InspectorCall`, `InspectorStore.after`: calls of the store, and what they leave in it;
* `insertedIds`: the ids that calls add, in their order;
* `Retained`: what should hold after a call;
* **`retained_iff`**: it holds in a run, if and only if no call comes with a retention below the
  number of records in the store.
-/

namespace Onair

open Fifo

/-! ### Calls -/

/-- The ways to write a record. -/
inductive InspectorCallKind where
  | record
  | upsert
  | upsertFinal
  deriving DecidableEq, Repr

/-- A call of the store. -/
structure InspectorCall where
  kind : InspectorCallKind
  enabled : Bool
  retentionRequests : ℕ
  record : InspectorRequestRecord
  deriving DecidableEq, Repr

namespace InspectorStore

/-- A record that is complete. -/
def record (records : InspectorStore) (enabled : Bool) (retentionRequests : ℕ)
    (record : InspectorRequestRecord) : InspectorStore :=
  if enabled then write records retentionRequests record else records

/-- A snapshot of a request in flight. -/
def upsert (records : InspectorStore) (enabled : Bool) (retentionRequests : ℕ)
    (record : InspectorRequestRecord) : InspectorStore :=
  if enabled then write records retentionRequests record else records

/-- The last record of a request. -/
def upsertFinal (records : InspectorStore) (enabled : Bool) (retentionRequests : ℕ)
    (record : InspectorRequestRecord) : InspectorStore :=
  if enabled then write records retentionRequests record else records

/-- What a call does to the records. -/
def call (records : InspectorStore) (c : InspectorCall) : InspectorStore :=
  match c.kind with
  | .record => record records c.enabled c.retentionRequests c.record
  | .upsert => upsert records c.enabled c.retentionRequests c.record
  | .upsertFinal => upsertFinal records c.enabled c.retentionRequests c.record

/-- What some calls leave in a store. -/
def after (records : InspectorStore) (calls : List InspectorCall) : InspectorStore :=
  calls.foldl call records

/-- The ids in a store. -/
def ids (records : InspectorStore) : List String := records.map InspectorRequestRecord.id

/-- The ids that some calls add to a store, in their order. -/
def insertedIds (records : InspectorStore) : List InspectorCall → List String
  | [] => []
  | c :: calls =>
    (if c.enabled ∧ c.record.id ∉ records.ids then [c.record.id] else []) ++
      insertedIds (records.call c) calls

end InspectorStore

/-- **What should hold after a call**: the store is within the bound, no two records have the same
id, the record is found, and the records are in the order in which their ids were last added. -/
structure Retained (start : InspectorStore) (before : List InspectorCall) (c : InspectorCall) :
    Prop where
  bound : (start.after (before ++ [c])).length ≤ clampRetention c.retentionRequests
  distinct : (start.after (before ++ [c])).ids.Nodup
  found : (start.after (before ++ [c])).get c.record.id = some c.record
  order : (start.after (before ++ [c])).ids.Sublist
    (start.ids ++ start.insertedIds (before ++ [c])).dedup

/-- Something holds at every call that is not switched off. -/
def EveryCall (calls : List InspectorCall) (P : List InspectorCall → InspectorCall → Prop) : Prop :=
  ∀ before c later, calls = before ++ c :: later → c.enabled = true → P before c

/-! ### Runs -/

namespace InspectorStore

theorem call_eq (records : InspectorStore) (c : InspectorCall) :
    records.call c = if c.enabled then records.write c.retentionRequests c.record else records := by
  unfold call
  cases c.kind <;> rfl

/-- The writes of some calls. -/
def writes (calls : List InspectorCall) : List (ℕ × InspectorRequestRecord) :=
  (calls.filter InspectorCall.enabled).map fun c => (clampRetention c.retentionRequests, c.record)

theorem after_eq (records : InspectorStore) (calls : List InspectorCall) :
    records.after calls = play InspectorRequestRecord.id records (writes calls) := by
  induction calls generalizing records with
  | nil => rfl
  | cons c calls ih =>
    rw [after, List.foldl_cons, call_eq]
    refine (ih _).trans ?_
    cases h : c.enabled with
    | true => simp [writes, h, play, write, upsertWithFifoEviction]
    | false => simp [writes, h]

theorem insertedIds_eq (records : InspectorStore) (calls : List InspectorCall) :
    records.insertedIds calls = newKeys InspectorRequestRecord.id records (writes calls) := by
  induction calls generalizing records with
  | nil => rfl
  | cons c calls ih =>
    rw [insertedIds, call_eq, ih]
    cases h : c.enabled with
    | true =>
      simp only [writes, h, List.filter_cons_of_pos, List.map_cons, newKeys, if_true, true_and,
        ite_not]
      rfl
    | false => simp [writes, h]

end InspectorStore

theorem one_le_clampRetention (retentionRequests : ℕ) : 1 ≤ clampRetention retentionRequests := by
  unfold clampRetention maxRetentionRequests
  omega

section Retained

variable {start : InspectorStore} (hstart : start.ids.Nodup)

include hstart

/-- **What a call leaves**: no bound, but all the rest. -/
theorem retained_call_iff (before : List InspectorCall) {c : InspectorCall}
    (hc : c.enabled = true) :
    Retained start before c ↔ (start.after before).length ≤ clampRetention c.retentionRequests := by
  have hbefore : (start.after before).ids.Nodup := by
    rw [InspectorStore.after_eq]
    exact nodup_play hstart _
  have hlast : start.after (before ++ [c]) = Fifo.upsert InspectorRequestRecord.id
      (clampRetention c.retentionRequests) (start.after before) c.record := by
    rw [InspectorStore.after, List.foldl_append, List.foldl_cons, List.foldl_nil,
      InspectorStore.call_eq, if_pos hc]
    rfl
  have hbound : (upsert InspectorRequestRecord.id (clampRetention c.retentionRequests)
      (start.after before) c.record).length ≤ clampRetention c.retentionRequests ↔
      (start.after before).length ≤ clampRetention c.retentionRequests :=
    length_upsert_le (one_le_clampRetention c.retentionRequests)
  rw [← hlast] at hbound
  have hsuffix : (start.after (before ++ [c])).ids <:+
      start.ids ++ start.insertedIds (before ++ [c]) := by
    rw [InspectorStore.after_eq, InspectorStore.insertedIds_eq]
    exact suffix_newKeys _ _
  have hdistinct : (start.after (before ++ [c])).ids.Nodup := by
    rw [hlast]
    exact nodup_upsert hbefore
  refine ⟨fun h => hbound.mp h.bound, fun h => ⟨hbound.mpr h, hdistinct, ?_, ?_⟩⟩
  · rw [hlast]
    exact get_upsert hbefore
  · obtain ⟨l, hl⟩ := hsuffix
    rw [← hl, List.dedup_append, hdistinct.dedup]
    exact (List.suffix_union_right _ _).sublist

/-- **The store is well kept in a run, if and only if** no call comes with a retention below the
number of records that the store holds: a call drops one record at most. -/
theorem retained_iff (calls : List InspectorCall) :
    EveryCall calls (Retained start) ↔ EveryCall calls fun before c =>
      (start.after before).length ≤ clampRetention c.retentionRequests := by
  constructor
  · intro h before c later hcalls hc
    exact (retained_call_iff hstart before hc).mp (h before c later hcalls hc)
  · intro h before c later hcalls hc
    exact (retained_call_iff hstart before hc).mpr (h before c later hcalls hc)

end Retained

/-- A record with an id. -/
def plainRecord (id : String) : InspectorRequestRecord where
  base :=
    { recordId := id
      clientRequestId := none
      startedAtUnixMs := 1
      method := "GET"
      path := "/v1/models"
      query := none
      route := "models"
      identity := "alice"
      requestedModel := ""
      publicModel := ""
      backendModel := ""
      backend := "a"
      backendTarget := "http://a"
      backendRemoteAddr := none
      stream := false
      requestBodyBytes := 0
      debugCaptureId := none
      exposedBackendError := false }
  outcome := .completed
  status := 200
  errorKind := none
  backendAttempts := []
  retriedAttempts := []
  responseBodyBytes := none
  tokens := {}

/-- Calls with records of their own, each with a retention. -/
def recordCalls (retentions : List (String × ℕ)) : List InspectorCall :=
  retentions.map fun r => ⟨.record, true, r.2, plainRecord r.1⟩

/-- Two records, of which one is kept. -/
theorem retained_recordCalls :
    EveryCall (recordCalls [("a", 1), ("b", 1)]) (Retained []) := by
  have hnodup : (InspectorStore.ids []).Nodup := List.nodup_nil
  refine (retained_iff hnodup _).mpr fun before c later hcalls _ => ?_
  match before with
  | [] => exact Nat.zero_le _
  | [_] =>
    obtain ⟨rfl, rfl, -⟩ : _ = _ ∧ _ = _ ∧ _ := by simpa [recordCalls] using hcalls
    decide
  | _ :: _ :: _ => simp [recordCalls] at hcalls

/-- The third call comes with a smaller retention, and drops one record of two. -/
theorem not_retained_recordCalls :
    ¬EveryCall (recordCalls [("a", 2), ("b", 2), ("c", 1)]) (Retained []) := by
  intro h
  have hbound := (h (recordCalls [("a", 2), ("b", 2)]) _ [] rfl rfl).bound
  revert hbound
  decide

end Onair
