import Onair.Lib.Guarded
import Onair.Lib.OrdMap
import Onair.Observe.Retention

/-!
# The live page of the inspector

A record is written to the store and then sent to the streams that are open. A page opens a stream,
which begins with the newest records of the store; if messages of the stream are lost, the page asks
for the records again. Its answers come while the stream goes on.

* `InspectorEvent`, `Page`: what is streamed, and the page;
* `Live`, `Live.step`: the store, the stream, the page and its requests;
* `Live.Consistent`, `consistent_step`: what is still to come corrects the page, or the records are
  asked for again;
* **`page_shows_store`**: when nothing is on its way any more, the page shows the newest records of
  the store as they are;
* `page_outdated`: unless the page was told of a record while it waited for an older answer.
-/

namespace Onair

open Fifo

/-- How many records the page asks for. -/
def snapshotLimit : ℕ := 1000

/-- How many messages wait for a stream. -/
def eventChannelCapacity : ℕ := 1024

/-- The newest records. -/
def InspectorStore.recordsLimited (records : InspectorStore) (limit : ℕ) : InspectorStore :=
  latest (max limit 1) records

/-! ### The page -/

/-- An event of the stream. -/
inductive InspectorEvent where
  | snapshot (record : InspectorRequestRecord)
  | request (record : InspectorRequestRecord)
  | lagged (skipped : ℕ)
  deriving DecidableEq, Repr

namespace InspectorEvent

/-- The record of an event. -/
def record : InspectorEvent → Option InspectorRequestRecord
  | snapshot record | request record => some record
  | lagged _ => none

/-- The event says that messages were lost. -/
def isLagged : InspectorEvent → Bool
  | lagged _ => true
  | _ => false

end InspectorEvent

/-- What the server answers to a request of the page. -/
inductive InspectorAnswer where
  | list (records : List InspectorRequestRecord)
  | one (record : InspectorRequestRecord)
  deriving DecidableEq, Repr

/-- The answer says the same of the id of the record. An answer with all records says something of
every id. -/
def InspectorAnswer.Agrees (record : InspectorRequestRecord) : InspectorAnswer → Prop
  | list records => lastOf records record.id = some record
  | one other => other.id = record.id → other = record

instance (record : InspectorRequestRecord) (a : InspectorAnswer) : Decidable (a.Agrees record) :=
  match a with
  | .list records => inferInstanceAs (Decidable (lastOf records record.id = some record))
  | .one other => inferInstanceAs (Decidable (other.id = record.id → other = record))

/-- The page: the records it shows, and those it holds back while it is paused. -/
structure Page where
  records : List (String × InspectorRequestRecord) := []
  pendingRecords : List (String × InspectorRequestRecord) := []
  livePaused : Bool := false
  deriving DecidableEq, Repr

namespace Page

/-- Show a record. -/
def applyRecord (page : Page) (record : InspectorRequestRecord) : Page :=
  { page with records := OrdMap.insert record.id record page.records }

/-- Show a record, or hold it back. -/
def upsert (page : Page) (record : InspectorRequestRecord) : Page :=
  if page.livePaused then
    { page with pendingRecords := OrdMap.insert record.id record page.pendingRecords }
  else page.applyRecord record

/-- Pause, or go on and show what was held back. -/
def togglePause (page : Page) : Page :=
  if page.livePaused then
    { records := page.pendingRecords.foldl (fun m e => OrdMap.insert e.1 e.2 m) page.records
      pendingRecords := []
      livePaused := false }
  else { page with livePaused := true }

/-- An answer has come. -/
def land (page : Page) : InspectorAnswer → Page
  | .list records => { page with
      records := records.foldl (fun m record => OrdMap.insert record.id record m) []
      pendingRecords := [] }
  | .one record => page.applyRecord record

/-- What the page would show of an id if it went on. -/
def view (page : Page) (id : String) : Option InspectorRequestRecord :=
  (OrdMap.get id page.pendingRecords).or (OrdMap.get id page.records)

end Page

/-! ### The system -/

/-- Where a stream is. -/
inductive StreamPhase where
  | closed
  /-- It is subscribed, but has not looked at the store yet. -/
  | subscribed
  | live
  deriving DecidableEq, Repr

/-- The store, the stream, the page and its requests. -/
structure Live where
  store : InspectorStore
  /-- What was written to the store and is about to be sent. -/
  unsent : List InspectorRequestRecord := []
  phase : StreamPhase := .closed
  /-- What the stream has not received, and how much of it was dropped. -/
  queue : List InspectorRequestRecord := []
  lagged : ℕ := 0
  /-- What the page has not received. -/
  sse : List InspectorEvent := []
  page : Page := {}
  /-- How many requests for all records have not reached the store. -/
  asked : ℕ := 0
  /-- The answers that are on their way. -/
  answers : List InspectorAnswer := []
  deriving DecidableEq, Repr

/-- The page as it is opened. -/
def Live.start (store : InspectorStore) : Live := { store := store, asked := 1 }

/-- What may happen. -/
inductive LiveAction where
  | write (call : InspectorCall)
  | send (id : String)
  | connect
  /-- The stream looks at the store. -/
  | snapshot
  /-- The stream receives a message. -/
  | forward
  | disconnect
  /-- The page receives an event. -/
  | deliver
  | pause
  | reload
  /-- The store is read for a request. -/
  | readAll
  | readOne (id : String)
  | arrive (i : ℕ)
  /-- A request for all records comes to nothing, or an answer is lost. -/
  | fail (i : Option ℕ)
  deriving DecidableEq

namespace Live

/-- A record is sent to the stream. In a full channel the oldest message is dropped. -/
def broadcast (s : Live) (record : InspectorRequestRecord) : Live :=
  if s.phase = .closed then s
  else if eventChannelCapacity ≤ s.queue.length then
    { s with queue := (s.queue ++ [record]).tail, lagged := s.lagged + 1 }
  else { s with queue := s.queue ++ [record] }

/-- The page receives an event. -/
def receive (s : Live) : InspectorEvent → Live
  | .snapshot record | .request record => { s with page := s.page.upsert record }
  | .lagged _ => { s with asked := s.asked + 1 }

/-- What an action does, if it may happen. The records of one request are written one after
another. -/
def step (s : Live) : LiveAction → Option Live
  | .write call =>
    if call.enabled = true ∧ call.record.id ∉ s.unsent.map InspectorRequestRecord.id then
      some { s with store := s.store.call call, unsent := s.unsent ++ [call.record] }
    else none
  | .send id =>
    (s.unsent.find? fun record => record.id == id).map fun record =>
      { s with unsent := s.unsent.filter fun record => record.id ≠ id }.broadcast record
  | .connect => if s.phase = .closed then some { s with phase := .subscribed } else none
  | .snapshot =>
    if s.phase = .subscribed then some { s with
      phase := .live
      sse := (s.store.recordsLimited snapshotLimit).reverse.map .snapshot }
    else none
  | .forward =>
    if s.phase ≠ .live then none
    else if s.lagged ≠ 0 then some { s with sse := s.sse ++ [.lagged s.lagged], lagged := 0 }
    else match s.queue with
      | [] => none
      | record :: queue => some { s with sse := s.sse ++ [.request record], queue := queue }
  | .disconnect =>
    if s.phase ≠ .closed then some { s with phase := .closed, queue := [], lagged := 0, sse := [] }
    else none
  | .deliver =>
    match s.sse with
    | [] => none
    | event :: sse => some ({ s with sse := sse }.receive event)
  | .pause => some { s with page := s.page.togglePause }
  | .reload => some { s with asked := s.asked + 1 }
  | .readAll =>
    if s.asked ≠ 0 then some { s with
      asked := s.asked - 1
      answers := s.answers ++ [.list (s.store.recordsLimited snapshotLimit).reverse] }
    else none
  | .readOne id =>
    (s.store.get id).map fun record => { s with answers := s.answers ++ [.one record] }
  | .arrive i =>
    s.answers[i]?.map fun answer => { s with
      page := s.page.land answer
      answers := s.answers.eraseIdx i }
  | .fail none => if s.asked ≠ 0 then some { s with asked := s.asked - 1 } else none
  | .fail (some i) =>
    if i < s.answers.length then some { s with answers := s.answers.eraseIdx i } else none

/-- Nothing is on its way. -/
structure AtRest (s : Live) : Prop where
  phase : s.phase = .live
  unsent : s.unsent = []
  queue : s.queue = []
  lagged : s.lagged = 0
  sse : s.sse = []
  page : s.page.livePaused = false
  asked : s.asked = 0
  answers : s.answers = []

/-- What is put on the page agrees with the answers that are on their way, these come in their
order, and no request fails. -/
def Orderly (s : Live) : LiveAction → Prop
  | .deliver => ∀ event ∈ s.sse.head?, ∀ record ∈ event.record, ∀ a ∈ s.answers, a.Agrees record
  | .pause => ∀ e ∈ s.page.pendingRecords, ∀ a ∈ s.answers, a.Agrees e.2
  | .arrive i => i = 0
  | .fail _ => False
  | _ => True

instance : ∀ s a, Decidable (Orderly s a)
  | s, .deliver => inferInstanceAs (Decidable (∀ event ∈ s.sse.head?, ∀ record ∈ event.record,
      ∀ a ∈ s.answers, a.Agrees record))
  | s, .pause => inferInstanceAs (Decidable (∀ e ∈ s.page.pendingRecords, ∀ a ∈ s.answers,
      a.Agrees e.2))
  | _, .arrive i => inferInstanceAs (Decidable (i = 0))
  | _, .fail _ => inferInstanceAs (Decidable False)
  | _, .write _ | _, .send _ | _, .connect | _, .snapshot | _, .forward | _, .disconnect
  | _, .reload | _, .readAll | _, .readOne _ => inferInstanceAs (Decidable True)

/-! ### What is on its way -/

/-- The records in some events. -/
def recordsOf (sse : List InspectorEvent) : List InspectorRequestRecord :=
  sse.filterMap InspectorEvent.record

/-- The records in the events after the last one that says that messages were lost. -/
def recent : List InspectorEvent → List InspectorRequestRecord
  | [] => []
  | event :: sse =>
    (if sse.any InspectorEvent.isLagged then [] else event.record.toList) ++ recent sse

/-- What the page will receive if nothing more happens to the store. -/
def inFlight (s : Live) : List InspectorRequestRecord := recordsOf s.sse ++ (s.queue ++ s.unsent)

/-- The page when its answers have come. -/
def landed (s : Live) : Page := s.answers.foldl Page.land s.page

/-- What the page will show of an id. -/
def settled (s : Live) (id : String) : Option InspectorRequestRecord :=
  (lastOf s.inFlight id).or (s.landed.view id)

/-- The records will be asked for again. -/
def Recovering (s : Live) : Prop :=
  s.lagged ≠ 0 ∨ s.sse.any InspectorEvent.isLagged = true ∨ s.asked ≠ 0

theorem lastOf_flight (l l' l'' : List InspectorRequestRecord) (id : String) :
    lastOf (l ++ (l' ++ l'')) id = ((lastOf l'' id).or (lastOf l' id)).or (lastOf l id) := by
  rw [lastOf, get_append, get_append]

theorem recent_append_record {event : InspectorEvent} {record : InspectorRequestRecord}
    (h : event.record = some record) (sse : List InspectorEvent) :
    recent (sse ++ [event]) = recent sse ++ [record] := by
  have hlagged : event.isLagged = false := by
    cases event with
    | lagged n => cases h
    | snapshot r => rfl
    | request r => rfl
  induction sse with
  | nil => simp [recent, h]
  | cons e sse ih =>
    rw [List.cons_append, recent, recent, ih, List.any_append, List.any_cons, hlagged,
      List.any_nil, Bool.or_false, Bool.or_false, List.append_assoc]

theorem recent_append_lagged (sse : List InspectorEvent) (n : ℕ) :
    recent (sse ++ [.lagged n]) = [] := by
  induction sse with
  | nil => rfl
  | cons e sse ih =>
    have hany : (sse ++ [InspectorEvent.lagged n]).any InspectorEvent.isLagged = true := by
      simp [InspectorEvent.isLagged]
    rw [List.cons_append, recent, ih, hany, if_pos rfl]
    rfl

theorem recent_eq {sse : List InspectorEvent} (h : sse.any InspectorEvent.isLagged = false) :
    recent sse = recordsOf sse := by
  induction sse with
  | nil => rfl
  | cons e sse ih =>
    obtain ⟨-, hsse⟩ := Bool.or_eq_false_iff.mp (List.any_cons ▸ h)
    rw [recent, ih hsse, hsse, if_neg Bool.false_ne_true, recordsOf, recordsOf, List.filterMap_cons]
    cases e.record <;> rfl

/-! ### Pages -/

/-- Two pages have the same of an id. -/
def SameAt (id : String) (page other : Page) : Prop :=
  OrdMap.get id page.pendingRecords = OrdMap.get id other.pendingRecords ∧
    OrdMap.get id page.records = OrdMap.get id other.records

theorem view_of_sameAt {id : String} {page other : Page} (h : SameAt id page other) :
    page.view id = other.view id := by
  rw [Page.view, Page.view, h.1, h.2]

theorem sameAt_land {id : String} {page other : Page} (h : SameAt id page other)
    (answers : List InspectorAnswer) :
    SameAt id (answers.foldl Page.land page) (answers.foldl Page.land other) := by
  induction answers generalizing page other with
  | nil => exact h
  | cons a answers ih =>
    refine ih ?_
    cases a with
    | list records => exact ⟨rfl, rfl⟩
    | one record =>
      refine ⟨h.1, ?_⟩
      rw [Page.land, Page.land, Page.applyRecord, Page.applyRecord, OrdMap.get_insert,
        OrdMap.get_insert, h.2]

theorem get_foldl_insert (records : List InspectorRequestRecord) (id : String)
    (m : List (String × InspectorRequestRecord)) :
    OrdMap.get id (records.foldl (fun m record => OrdMap.insert record.id record m) m) =
      (lastOf records id).or (OrdMap.get id m) := by
  induction records generalizing m with
  | nil => rfl
  | cons record records ih =>
    rw [List.foldl_cons, ih, OrdMap.get_insert, ← List.singleton_append, lastOf, lastOf,
      Fifo.get_append]
    cases Fifo.get InspectorRequestRecord.id records id with
    | some r => rfl
    | none =>
      by_cases hid : id = record.id
      · simp [hid, Fifo.get]
      · simp [hid, Ne.symm hid, Fifo.get]

/-- A record that the answers agree with stays. -/
theorem view_land_of_agrees {record : InspectorRequestRecord} {page : Page}
    (hview : page.view record.id = some record) {answers : List InspectorAnswer}
    (h : ∀ a ∈ answers, a.Agrees record) :
    (answers.foldl Page.land page).view record.id = some record := by
  induction answers generalizing page with
  | nil => exact hview
  | cons a answers ih =>
    obtain ⟨ha, hanswers⟩ := List.forall_mem_cons.mp h
    refine ih ?_ hanswers
    cases a with
    | list records =>
      rw [Page.land, Page.view, get_foldl_insert, show lastOf records record.id = _ from ha]
      rfl
    | one other =>
      rw [Page.view, Option.or_eq_some_iff] at hview ⊢
      refine hview.imp_right fun hrecords => ⟨hrecords.1, ?_⟩
      rw [Page.land, Page.applyRecord, OrdMap.get_insert]
      split_ifs with hid
      · exact congrArg some (ha hid.symm)
      · exact hrecords.2

/-- What is held back: nothing unless the page is paused, and every record under its id. -/
structure PageWF (page : Page) : Prop where
  unpaused : page.livePaused = false → page.pendingRecords = []
  sorted : OrdMap.Sorted page.pendingRecords
  ids : ∀ e ∈ page.pendingRecords, e.2.id = e.1

theorem pageWF_upsert {page : Page} (h : PageWF page) (record : InspectorRequestRecord) :
    PageWF (page.upsert record) := by
  cases hpaused : page.livePaused with
  | false =>
    rw [Page.upsert, hpaused, if_neg Bool.false_ne_true]
    exact ⟨h.unpaused, h.sorted, h.ids⟩
  | true =>
    rw [Page.upsert, hpaused, if_pos rfl]
    refine ⟨fun hfalse => ?_, OrdMap.sorted_insert h.sorted _ _, fun e he => ?_⟩
    · cases hfalse
    · obtain rfl | he := OrdMap.mem_insert he
      · rfl
      · exact h.ids e he

theorem pageWF_togglePause {page : Page} (h : PageWF page) : PageWF page.togglePause := by
  cases hpaused : page.livePaused with
  | false =>
    rw [Page.togglePause, hpaused, if_neg Bool.false_ne_true]
    exact ⟨fun htrue => (by cases htrue), h.sorted, h.ids⟩
  | true =>
    rw [Page.togglePause, hpaused, if_pos rfl]
    exact ⟨fun _ => rfl, List.Pairwise.nil, by simp⟩

theorem pageWF_land {page : Page} (h : PageWF page) (a : InspectorAnswer) :
    PageWF (page.land a) := by
  cases a with
  | list records => exact ⟨fun _ => rfl, List.Pairwise.nil, by simp [Page.land]⟩
  | one record => exact ⟨h.unpaused, h.sorted, h.ids⟩

/-- **A record that is put on the page** is what it shows of the id, and all it changes. -/
theorem view_land_upsert {page : Page} (hpage : PageWF page) {record : InspectorRequestRecord}
    {answers : List InspectorAnswer} (h : ∀ a ∈ answers, a.Agrees record) (id : String) :
    (answers.foldl Page.land (page.upsert record)).view id =
      if id = record.id then some record else (answers.foldl Page.land page).view id := by
  split_ifs with hid
  · subst hid
    refine view_land_of_agrees ?_ h
    cases hpaused : page.livePaused with
    | false =>
      rw [Page.upsert, hpaused, if_neg Bool.false_ne_true, Page.view, Page.applyRecord,
        hpage.unpaused hpaused, OrdMap.get_insert_self]
      rfl
    | true =>
      rw [Page.upsert, hpaused, if_pos rfl, Page.view, OrdMap.get_insert_self]
      rfl
  · refine view_of_sameAt (sameAt_land ?_ answers)
    cases hpaused : page.livePaused with
    | false =>
      rw [Page.upsert, hpaused, if_neg Bool.false_ne_true]
      exact ⟨rfl, OrdMap.get_insert_ne hid _ _⟩
    | true =>
      rw [Page.upsert, hpaused, if_pos rfl]
      exact ⟨OrdMap.get_insert_ne hid _ _, rfl⟩

/-- Going on shows what was held back, and changes nothing else. -/
theorem view_land_togglePause {page : Page} (hpage : PageWF page) {answers : List InspectorAnswer}
    (h : ∀ e ∈ page.pendingRecords, ∀ a ∈ answers, a.Agrees e.2) (id : String) :
    (answers.foldl Page.land page.togglePause).view id =
      (answers.foldl Page.land page).view id := by
  cases hpaused : page.livePaused with
  | false =>
    rw [Page.togglePause, hpaused, if_neg Bool.false_ne_true]
    have hsame : SameAt id { page with livePaused := true } page := ⟨rfl, rfl⟩
    exact view_of_sameAt (sameAt_land hsame answers)
  | true =>
    have hrecords : OrdMap.get id
        (page.pendingRecords.foldl (fun m e => OrdMap.insert e.1 e.2 m) page.records) =
        page.view id := by
      rw [OrdMap.get_foldl_insert, ← OrdMap.get_ofList, OrdMap.ofList_of_sorted hpage.sorted]
      rfl
    rw [Page.togglePause, hpaused, if_pos rfl]
    cases hpending : OrdMap.get id page.pendingRecords with
    | none =>
      have hsame : SameAt id ⟨page.pendingRecords.foldl (fun m e => OrdMap.insert e.1 e.2 m)
          page.records, [], false⟩ page := by
        refine ⟨hpending.symm, ?_⟩
        rw [hrecords, Page.view, hpending]
        rfl
      exact view_of_sameAt (sameAt_land hsame answers)
    | some record =>
      -- the answers agree with the record, so that both pages show it in the end
      have hmem := OrdMap.mem_of_get hpending
      obtain rfl : record.id = id := hpage.ids _ hmem
      have hview : page.view record.id = some record := by
        rw [Page.view, hpending]
        rfl
      rw [view_land_of_agrees hview (h _ hmem)]
      refine view_land_of_agrees ?_ (h _ hmem)
      rw [Page.view, hrecords, hview]
      rfl

/-! ### What every step keeps -/

/-- **What is still to come corrects the page**: the last message on its way for an id is the
record of the store, and if the records will not be asked for again, the page will show the newest
records of the store as they are. -/
structure Consistent (s : Live) : Prop where
  ids : (s.store.map InspectorRequestRecord.id).Nodup
  unsent : (s.unsent.map InspectorRequestRecord.id).Nodup
  closed : s.phase = .closed → s.queue = [] ∧ s.sse = []
  page : PageWF s.page
  last : ∀ r ∈ s.store, ∀ x,
    lastOf ((if s.lagged = 0 then recent s.sse else []) ++ (s.queue ++ s.unsent)) r.id = some x →
    x = r
  shown : s.phase = .live → s.Recovering ∨
    ∀ r ∈ s.store.recordsLimited snapshotLimit, s.settled r.id = some r

section Steps

variable {s t : Live}

theorem lastOf_latest (hs : Consistent s) {r : InspectorRequestRecord}
    (hr : r ∈ s.store.recordsLimited snapshotLimit) :
    lastOf (s.store.recordsLimited snapshotLimit).reverse r.id = some r := by
  have hnodup : ((s.store.recordsLimited snapshotLimit).reverse.map
      InspectorRequestRecord.id).Nodup := by
    rw [List.map_reverse, List.nodup_reverse]
    exact hs.ids.sublist ((List.drop_sublist _ _).map _)
  exact get_of_mem hnodup (List.mem_reverse.mpr hr)

theorem eq_of_lastOf_latest (hs : Consistent s) {r x : InspectorRequestRecord} (hr : r ∈ s.store)
    (hx : lastOf (s.store.recordsLimited snapshotLimit).reverse r.id = some x) : x = r := by
  obtain ⟨hmem, hid⟩ := mem_of_get hx
  have hstore : x ∈ s.store := mem_of_mem_latest (List.mem_reverse.mp hmem)
  exact List.inj_on_of_nodup_map hs.ids hstore hr hid

theorem consistent_write (hs : Consistent s) {call : InspectorCall}
    (h : step s (.write call) = some t) : Consistent t := by
  obtain ⟨⟨henabled, hnew⟩, rfl⟩ := Guarded.of_guard h
  have hstore : s.store.call call =
      Fifo.upsert InspectorRequestRecord.id (clampRetention call.retentionRequests) s.store
        call.record := by
    rw [InspectorStore.call_eq, henabled, if_pos rfl]
    rfl
  -- the record of the call is the last message on its way, and the others are as they were
  have hlast : ∀ (l : List InspectorRequestRecord) (id : String),
      lastOf (l ++ (s.queue ++ (s.unsent ++ [call.record]))) id =
        if id = call.record.id then some call.record
        else lastOf (l ++ (s.queue ++ s.unsent)) id := by
    intro l id
    rw [← List.append_assoc s.queue, ← List.append_assoc l]
    exact get_concat id
  refine ⟨?_, ?_, hs.closed, hs.page, ?_, fun hphase => (hs.shown hphase).imp_right ?_⟩
  · rw [hstore]
    exact nodup_upsert hs.ids
  · rw [List.map_append, List.map_singleton, ← List.concat_eq_append]
    exact List.Nodup.concat hnew hs.unsent
  · intro r hr x hx
    rw [hstore] at hr
    rw [hlast] at hx
    obtain rfl | ⟨hid, hr⟩ := mem_upsert hs.ids hr
    · rw [if_pos rfl] at hx
      exact (Option.some.inj hx).symm
    · rw [if_neg hid] at hx
      exact hs.last r hr x hx
  · intro hshown r hr
    dsimp only at hr
    rw [hstore] at hr
    have hflight : (lastOf (recordsOf s.sse ++ (s.queue ++ (s.unsent ++ [call.record]))) r.id).or
        (s.landed.view r.id) = some r := by
      rw [hlast]
      obtain rfl | ⟨hid, -⟩ := mem_upsert hs.ids (mem_of_mem_latest hr)
      · rw [if_pos rfl]
        rfl
      · rw [if_neg hid]
        exact hshown r (mem_latest_upsert hid hr)
    exact hflight

theorem consistent_send (hs : Consistent s) {id : String} (h : step s (.send id) = some t) :
    Consistent t := by
  obtain ⟨record, hfind, rfl⟩ := Option.map_eq_some_iff.mp h
  have hmem : record ∈ s.unsent := List.mem_of_find?_eq_some hfind
  obtain rfl : record.id = id := by simpa using List.find?_some hfind
  set unsent := s.unsent.filter fun other => other.id ≠ record.id with hunsent
  have hnodup : (unsent.map InspectorRequestRecord.id).Nodup :=
    hs.unsent.sublist ((List.filter_sublist).map _)
  -- sending does not change what is on its way for an id
  have hextract : ∀ k, lastOf ([record] ++ unsent) k = lastOf s.unsent k :=
    get_extract hs.unsent hmem
  have hlast : ∀ (l : List InspectorRequestRecord) (k : String),
      lastOf (l ++ ((s.queue ++ [record]) ++ unsent)) k =
        lastOf (l ++ (s.queue ++ s.unsent)) k := by
    intro l k
    rw [List.append_assoc s.queue, lastOf_flight, lastOf_flight, hextract]
  unfold broadcast
  by_cases hphase : s.phase = .closed
  · obtain ⟨hqueue, hsse⟩ := hs.closed hphase
    rw [if_pos hphase]
    refine ⟨hs.ids, hnodup, hs.closed, hs.page, fun r hr x hx => hs.last r hr x ?_, ?_⟩
    · have hnone : (if s.lagged = 0 then recent s.sse else []) = [] := by
        rw [hsse]
        split_ifs <;> rfl
      dsimp only at hx
      rw [hnone, hqueue] at hx ⊢
      exact (hextract r.id).symm.trans (get_eq_some_of_append hx)
    · intro hlive
      rw [show s.phase = .live from hlive] at hphase
      cases hphase
  · rw [if_neg hphase]
    dsimp only
    split_ifs with hfull
    · refine ⟨hs.ids, hnodup, fun hclosed => absurd hclosed hphase, hs.page, ?_,
        fun _ => Or.inl (Or.inl (Nat.succ_ne_zero _))⟩
      intro r hr x hx
      dsimp only at hx
      rw [if_neg (Nat.succ_ne_zero _), List.nil_append] at hx
      refine hs.last r hr x ((hlast _ _).symm.trans (get_eq_some_of_append ?_))
      -- what is dropped is the first message
      cases hqueue : s.queue ++ [record] with
      | nil => simp at hqueue
      | cons first rest =>
        rw [hqueue] at hx
        rw [List.cons_append, ← List.singleton_append]
        exact get_eq_some_of_append hx
    · refine ⟨hs.ids, hnodup, fun hclosed => absurd hclosed hphase, hs.page, ?_, ?_⟩
      · intro r hr x hx
        exact hs.last r hr x ((hlast _ _).symm.trans hx)
      · intro hlive
        refine (hs.shown hlive).imp_right fun hshown r hr => ?_
        refine Eq.trans ?_ (hshown r hr)
        rw [settled, settled, inFlight, inFlight]
        dsimp only
        rw [hlast]
        rfl

theorem consistent_connect (hs : Consistent s) (h : step s .connect = some t) : Consistent t := by
  obtain ⟨-, rfl⟩ := Guarded.of_guard h
  exact ⟨hs.ids, hs.unsent, fun hclosed => (by cases hclosed), hs.page, hs.last,
    fun hlive => (by cases hlive)⟩

theorem consistent_snapshot (hs : Consistent s) (h : step s .snapshot = some t) :
    Consistent t := by
  obtain ⟨-, rfl⟩ := Guarded.of_guard h
  set newest := s.store.recordsLimited snapshotLimit with hnewest
  have hlagged :
      (newest.reverse.map InspectorEvent.snapshot).any InspectorEvent.isLagged = false := by
    simp [InspectorEvent.isLagged]
  have hrecords : recordsOf (newest.reverse.map InspectorEvent.snapshot) = newest.reverse := by
    rw [recordsOf, List.filterMap_map]
    exact List.filterMap_some
  have hlast : ∀ r ∈ s.store, ∀ x,
      lastOf (newest.reverse ++ (s.queue ++ s.unsent)) r.id = some x → x = r := by
    intro r hr x hx
    rw [lastOf, get_append, Option.or_eq_some_iff] at hx
    obtain hx | ⟨-, hx⟩ := hx
    · exact hs.last r hr x (get_eq_some_of_append hx)
    · exact eq_of_lastOf_latest hs hr hx
  refine ⟨hs.ids, hs.unsent, fun hclosed => (by cases hclosed), hs.page, ?_, fun _ => Or.inr ?_⟩
  · intro r hr x hx
    dsimp only at hx
    rw [recent_eq hlagged, hrecords] at hx
    split_ifs at hx
    · exact hlast r hr x hx
    · exact hs.last r hr x (get_eq_some_of_append hx)
  · intro r hr
    rw [settled, inFlight]
    dsimp only
    rw [hrecords]
    cases hx : lastOf (newest.reverse ++ (s.queue ++ s.unsent)) r.id with
    | some x =>
      rw [hlast r (mem_of_mem_latest hr) x hx]
      rfl
    | none =>
      rw [lastOf, get_append, Option.or_eq_none_iff] at hx
      cases hx.2.symm.trans (lastOf_latest hs hr)

theorem consistent_forward (hs : Consistent s) (h : step s .forward = some t) :
    Consistent t := by
  dsimp only [step] at h
  split_ifs at h with hphase hlagged
  · obtain rfl := Option.some.inj h
    refine ⟨hs.ids, hs.unsent, fun hclosed => absurd ?_ hphase, hs.page, ?_, fun _ => ?_⟩
    · rw [show s.phase = .closed from hclosed]
      decide
    · intro r hr x hx
      refine hs.last r hr x ?_
      dsimp only at hx
      rw [recent_append_lagged, if_pos rfl] at hx
      rwa [if_neg hlagged]
    · refine Or.inl (Or.inr (Or.inl ?_))
      dsimp only
      rw [List.any_append, List.any_cons]
      simp [InspectorEvent.isLagged]
  · -- nothing was lost
    split at h
    · cases h
    · rename_i record queue hqueue
      obtain rfl := Option.some.inj h
      have hlive : s.phase = .live := not_not.mp hphase
      have hzero : s.lagged = 0 := not_not.mp hlagged
      refine ⟨hs.ids, hs.unsent, fun hclosed => ?_, hs.page, ?_, fun _ => ?_⟩
      · rw [show s.phase = .closed from hclosed] at hlive
        cases hlive
      · intro r hr x hx
        refine hs.last r hr x ?_
        rw [hqueue]
        dsimp only at hx
        rw [recent_append_record rfl] at hx
        rw [if_pos hzero] at hx ⊢
        rwa [List.append_assoc] at hx
      · refine (hs.shown hlive).imp (fun hrecovering => ?_) fun hshown r hr => ?_
        · refine hrecovering.imp_right (Or.imp_left fun hany => ?_)
          dsimp only
          rw [List.any_append, hany, Bool.true_or]
        · refine Eq.trans ?_ (hshown r hr)
          rw [settled, settled, inFlight, inFlight]
          dsimp only
          rw [recordsOf, recordsOf, List.filterMap_append, hqueue, List.append_assoc]
          rfl

theorem consistent_disconnect (hs : Consistent s) (h : step s .disconnect = some t) :
    Consistent t := by
  obtain ⟨-, rfl⟩ := Guarded.of_guard h
  refine ⟨hs.ids, hs.unsent, fun _ => ⟨rfl, rfl⟩, hs.page, ?_, fun hlive => (by cases hlive)⟩
  intro r hr x hx
  refine hs.last r hr x ?_
  exact get_eq_some_of_append (get_eq_some_of_append hx)

theorem consistent_deliver (hs : Consistent s) (horderly : Orderly s .deliver)
    (h : step s .deliver = some t) : Consistent t := by
  dsimp only [step] at h
  split at h
  · cases h
  · rename_i event sse hsse
    obtain rfl := Option.some.inj h
    have hlast : ∀ r ∈ s.store, ∀ x,
        lastOf ((if s.lagged = 0 then recent sse else []) ++ (s.queue ++ s.unsent)) r.id = some x →
          x = r := by
      intro r hr x hx
      refine hs.last r hr x ?_
      rw [hsse]
      split_ifs at hx ⊢
      · rw [recent, List.append_assoc]
        exact get_eq_some_of_append hx
      · exact hx
    have hclosed : s.phase = .closed → s.queue = [] ∧ sse = [] := by
      intro hclosed
      have hnil := (hs.closed hclosed).2
      rw [hsse] at hnil
      cases hnil
    have hrecord : ∀ record, event.record = some record → event.isLagged = false →
        Consistent { s with sse := sse, page := s.page.upsert record } := by
      intro record hevent hnot
      have hagrees : ∀ a ∈ s.answers, a.Agrees record :=
        horderly event (by rw [hsse]; rfl) record hevent
      refine ⟨hs.ids, hs.unsent, hclosed, pageWF_upsert hs.page record, hlast, fun hlive => ?_⟩
      refine (hs.shown hlive).imp (fun hrecovering => ?_) fun hshown r hr => ?_
      · refine hrecovering.imp_right (Or.imp_left fun hany => ?_)
        rwa [hsse, List.any_cons, hnot, Bool.false_or] at hany
      · have hsettled := hshown r hr
        have hflight : s.inFlight = [record] ++ (recordsOf sse ++ (s.queue ++ s.unsent)) := by
          rw [inFlight, hsse, recordsOf, List.filterMap_cons, hevent]
          rfl
        rw [settled, hflight, lastOf, get_append, Option.or_assoc] at hsettled
        rw [settled, inFlight, landed]
        dsimp only
        rw [view_land_upsert hs.page hagrees]
        cases hrest : lastOf (recordsOf sse ++ (s.queue ++ s.unsent)) r.id with
        | some x =>
          rw [show Fifo.get InspectorRequestRecord.id _ r.id = some x from hrest] at hsettled
          exact hsettled
        | none =>
          rw [show Fifo.get InspectorRequestRecord.id _ r.id = none from hrest] at hsettled
          rw [Option.none_or] at hsettled ⊢
          by_cases hid : r.id = record.id
          · rw [if_pos hid]
            simpa [Fifo.get, hid] using hsettled
          · rw [if_neg hid]
            simpa [Fifo.get, Ne.symm hid, landed] using hsettled
    cases event with
    | snapshot record => exact hrecord record rfl rfl
    | request record => exact hrecord record rfl rfl
    | lagged skipped =>
      exact ⟨hs.ids, hs.unsent, hclosed, hs.page, hlast,
        fun _ => Or.inl (Or.inr (Or.inr (Nat.succ_ne_zero _)))⟩

theorem consistent_pause (hs : Consistent s) (horderly : Orderly s .pause)
    (h : step s .pause = some t) : Consistent t := by
  obtain rfl := Option.some.inj h
  refine ⟨hs.ids, hs.unsent, hs.closed, pageWF_togglePause hs.page, hs.last, fun hlive => ?_⟩
  refine (hs.shown hlive).imp_right fun hshown r hr => ?_
  refine Eq.trans ?_ (hshown r hr)
  rw [settled, settled, landed, landed, view_land_togglePause hs.page horderly]
  rfl

theorem consistent_readAll (hs : Consistent s) (h : step s .readAll = some t) :
    Consistent t := by
  obtain ⟨-, rfl⟩ := Guarded.of_guard h
  refine ⟨hs.ids, hs.unsent, hs.closed, hs.page, hs.last, fun _ => ?_⟩
  by_cases hlagged : s.lagged = 0
  · cases hany : s.sse.any InspectorEvent.isLagged with
    | true => exact Or.inl (Or.inr (Or.inl hany))
    | false =>
      -- the answer has the newest records, and no message on its way is older
      refine Or.inr fun r hr => ?_
      rw [settled, landed]
      dsimp only
      rw [List.foldl_append]
      change (lastOf s.inFlight r.id).or
        ((s.landed.land (.list (s.store.recordsLimited snapshotLimit).reverse)).view r.id) = some r
      cases hx : lastOf s.inFlight r.id with
      | some x =>
        have hrecent : lastOf ((if s.lagged = 0 then recent s.sse else []) ++
            (s.queue ++ s.unsent)) r.id = some x := by
          rw [if_pos hlagged, recent_eq hany]
          exact hx
        rw [hs.last r (mem_of_mem_latest hr) x hrecent]
        rfl
      | none =>
        rw [Option.none_or, Page.land, Page.view, get_foldl_insert, lastOf_latest hs hr]
        rfl
  · exact Or.inl (Or.inl hlagged)

theorem consistent_readOne (hs : Consistent s) {id : String} (h : step s (.readOne id) = some t) :
    Consistent t := by
  obtain ⟨record, hget, rfl⟩ := Option.map_eq_some_iff.mp h
  refine ⟨hs.ids, hs.unsent, hs.closed, hs.page, hs.last, fun hlive => ?_⟩
  refine (hs.shown hlive).imp_right fun hshown r hr => ?_
  have hsettled := hshown r hr
  rw [settled] at hsettled ⊢
  rw [landed]
  dsimp only
  rw [List.foldl_append]
  change (lastOf s.inFlight r.id).or ((s.landed.applyRecord record).view r.id) = some r
  cases hx : lastOf s.inFlight r.id with
  | some x =>
    rw [hx] at hsettled
    exact hsettled
  | none =>
    rw [hx, Option.none_or, Page.view] at hsettled
    rw [Option.none_or, Page.view, Page.applyRecord]
    dsimp only
    rw [OrdMap.get_insert]
    split_ifs with hid
    · -- the record that was read is the one of the store
      obtain ⟨hmem, -⟩ := mem_of_get hget
      obtain rfl := List.inj_on_of_nodup_map hs.ids (mem_of_mem_latest hr) hmem hid
      refine Option.or_eq_some_iff.mpr ((Option.or_eq_some_iff.mp hsettled).imp_right ?_)
      exact fun hnone => ⟨hnone.1, rfl⟩
    · exact hsettled

theorem consistent_arrive (hs : Consistent s) {i : ℕ} (hi : i = 0)
    (h : step s (.arrive i) = some t) : Consistent t := by
  subst hi
  obtain ⟨a, ha, rfl⟩ := Option.map_eq_some_iff.mp h
  cases hanswers : s.answers with
  | nil =>
    rw [hanswers] at ha
    cases ha
  | cons first rest =>
    rw [hanswers] at ha
    obtain rfl := Option.some.inj ha
    refine ⟨hs.ids, hs.unsent, hs.closed, pageWF_land hs.page first, hs.last, fun hlive => ?_⟩
    refine (hs.shown hlive).imp_right fun hshown r hr => ?_
    have hsettled := hshown r hr
    rw [settled, landed, hanswers] at hsettled
    exact hsettled

/-- **Every step keeps it**, if what is put on the page agrees with the answers on their way. -/
theorem consistent_step {a : LiveAction} (ha : Orderly s a) (hs : Consistent s)
    (h : step s a = some t) : Consistent t := by
  cases a with
  | write call => exact consistent_write hs h
  | send id => exact consistent_send hs h
  | connect => exact consistent_connect hs h
  | snapshot => exact consistent_snapshot hs h
  | forward => exact consistent_forward hs h
  | disconnect => exact consistent_disconnect hs h
  | deliver => exact consistent_deliver hs ha h
  | pause => exact consistent_pause hs ha h
  | reload =>
    obtain rfl := Option.some.inj h
    exact ⟨hs.ids, hs.unsent, hs.closed, hs.page, hs.last,
      fun _ => Or.inl (Or.inr (Or.inr (Nat.succ_ne_zero _)))⟩
  | readAll => exact consistent_readAll hs h
  | readOne id => exact consistent_readOne hs h
  | arrive i => exact consistent_arrive hs ha h
  | fail i => exact absurd ha not_false

end Steps

theorem consistent_start {store : InspectorStore}
    (h : (store.map InspectorRequestRecord.id).Nodup) : Consistent (start store) where
  ids := h
  unsent := List.nodup_nil
  closed _ := ⟨rfl, rfl⟩
  page := ⟨fun _ => rfl, List.Pairwise.nil, by simp [start]⟩
  last := by simp [start, recent, Fifo.get]
  shown hlive := by cases hlive

/-- **When nothing is on its way any more, the page shows the newest records of the store as they
are**, in whatever order they were written, sent, dropped, asked for and received, and however
often the page was paused or lost its stream. -/
theorem page_shows_store {store : InspectorStore} {s : Live} {as : List LiveAction}
    (hstore : (store.map InspectorRequestRecord.id).Nodup)
    (horderly : Guarded.Along step Orderly (start store) as)
    (h : Guarded.run step (start store) as = some s) (hrest : s.AtRest) :
    ∀ r ∈ s.store.recordsLimited snapshotLimit, OrdMap.get r.id s.page.records = some r := by
  have hs : Consistent s :=
    Guarded.run_inv_along (fun _ _ _ ha hs hstep => consistent_step ha hs hstep)
      (consistent_start hstore) horderly h
  intro r hr
  obtain hrecovering | hshown := hs.shown hrest.phase
  · obtain hlagged | hany | hasked := hrecovering
    · exact absurd hrest.lagged hlagged
    · rw [hrest.sse] at hany
      cases hany
    · exact absurd hrest.asked hasked
  · have hsettled := hshown r hr
    have hflight : s.inFlight = [] := by
      rw [inFlight, hrest.sse, hrest.queue, hrest.unsent]
      rfl
    rw [settled, hflight, landed, hrest.answers] at hsettled
    change s.page.view r.id = some r at hsettled
    rwa [Page.view, hs.page.unpaused hrest.page] at hsettled

/-- A request that is in flight, and the same request when it was interrupted. -/
def sampleUpdate (interrupted : Bool) : InspectorCall where
  kind := if interrupted then .upsertFinal else .upsert
  enabled := true
  retentionRequests := 1
  record := { plainRecord "1-1-1" with
    outcome := if interrupted then .interrupted else .inFlight }

/-- The page is paused when it is told of a request that it knew from the store. -/
theorem page_shows_store_paused : ∃ s, Guarded.run step (start []) [.readAll, .arrive 0, .connect,
      .write (sampleUpdate true), .snapshot, .send "1-1-1", .pause, .deliver, .forward, .deliver,
      .pause] = some s ∧
    OrdMap.get "1-1-1" s.page.records = some (sampleUpdate true).record := by
  have hrun : Guarded.run step (start []) [.readAll, .arrive 0, .connect,
      .write (sampleUpdate true), .snapshot, .send "1-1-1", .pause, .deliver, .forward, .deliver,
      .pause] = some { store := [(sampleUpdate true).record], phase := .live, page :=
        { records := [("1-1-1", (sampleUpdate true).record)] } } := by decide +kernel
  have hshown := page_shows_store (by decide) (by decide +kernel) hrun
    ⟨rfl, rfl, rfl, rfl, rfl, rfl, rfl, rfl⟩ (sampleUpdate true).record (by decide)
  exact ⟨_, hrun, hshown⟩

/-- **A page may stay outdated**: it asks for the records, is told of a newer one, and then gets
its answer. -/
theorem page_outdated : ∃ s, Guarded.run step (start []) [.connect, .snapshot,
      .write (sampleUpdate false), .send "1-1-1", .forward, .deliver, .readAll,
      .write (sampleUpdate true), .send "1-1-1", .forward, .deliver, .arrive 0] = some s ∧
    s.AtRest ∧ s.store = [(sampleUpdate true).record] ∧
    OrdMap.get "1-1-1" s.page.records = some (sampleUpdate false).record := by
  have hrun : Guarded.run step (start []) [.connect, .snapshot,
      .write (sampleUpdate false), .send "1-1-1", .forward, .deliver, .readAll,
      .write (sampleUpdate true), .send "1-1-1", .forward, .deliver, .arrive 0] =
      some { store := [(sampleUpdate true).record], phase := .live, page :=
        { records := [("1-1-1", (sampleUpdate false).record)] } } := by decide +kernel
  exact ⟨_, hrun, ⟨rfl, rfl, rfl, rfl, rfl, rfl, rfl, rfl⟩, rfl, rfl⟩

end Live

end Onair
