import Onair.Lib.Json.Reference
import Onair.Responses.Deltas

/-!
# The items of a Responses stream

Every item is announced once, before anything is said about it, at the place it has in the final
`output`.

* `addedItem`, `itemRef`, `ItemProtocol`: what an event announces or is about, and the protocol;
* `Preceded`, `ItemInv`: events about items that were announced, and the state that knows them;
* `Move.ItemsOk`: the moves that keep the protocol;
* **`responses_items_of_ok`**: a stream of such moves keeps the protocol.
-/

namespace Onair

open Json Text

/-! ### The protocol -/

namespace ResponsesEvent

/-- Index and id of the item that the event announces. -/
def addedItem : ResponsesEvent → Option (ℕ × String)
  | .outputItemAdded i item => some (i, item.id)
  | _ => none

/-- Index and id of the item that a delta or a `done` event is about. -/
def itemRef : ResponsesEvent → Option (ℕ × String)
  | .outputTextDelta id _ | .outputTextDone id _ | .contentPartDone id _ => some (0, id)
  | .functionCallArgumentsDelta id i _ | .functionCallArgumentsDone id i _ => some (i, id)
  | .outputItemDone i item => some (i, item.id)
  | _ => none

end ResponsesEvent

/-- The items announced in a list of events. -/
def addedItems (es : List ResponsesEvent) : List (ℕ × String) :=
  es.filterMap ResponsesEvent.addedItem

@[simp] theorem addedItems_nil : addedItems [] = [] := rfl

@[simp] theorem addedItems_append (es es' : List ResponsesEvent) :
    addedItems (es ++ es') = addedItems es ++ addedItems es' := List.filterMap_append

/-- The item protocol: every delta and every `done` event has before it exactly one announcement
of its item, announced items have different indexes, and an item's index is its place in the
`output` of the completed response. -/
structure ItemProtocol (es : List ResponsesEvent) : Prop where
  preceded : ∀ pre e post ref, es = pre ++ e :: post → e.itemRef = some ref →
    (addedItems pre).count ref = 1
  distinct : ((addedItems es).map Prod.fst).Nodup
  position : ∀ response, .completed response ∈ es →
    (∀ i item, .outputItemDone i item ∈ es → response.output[i]? = some item) ∧
      ∀ ref ∈ addedItems es, (response.output[ref.1]?).map OutputItem.id = some ref.2

/-! ### Events about announced items -/

/-- Every event of a list is about an item in `refs` or one announced before it. -/
def Preceded (refs : List (ℕ × String)) : List ResponsesEvent → Prop
  | [] => True
  | e :: es => (∀ ref, e.itemRef = some ref → ref ∈ refs) ∧
      Preceded (refs ++ e.addedItem.toList) es

theorem preceded_append (refs : List (ℕ × String)) (es es' : List ResponsesEvent) :
    Preceded refs (es ++ es') ↔ Preceded refs es ∧ Preceded (refs ++ addedItems es) es' := by
  induction es generalizing refs with
  | nil => simp [Preceded]
  | cons e es ih =>
    have hadd : refs ++ e.addedItem.toList ++ addedItems es = refs ++ addedItems (e :: es) := by
      cases he : e.addedItem <;> simp [addedItems, he]
    rw [List.cons_append, Preceded, Preceded, ih, hadd, and_assoc]

/-- Events about announced items only. -/
theorem preceded_of_refs {refs : List (ℕ × String)} {es : List ResponsesEvent}
    (h : ∀ e ∈ es, ∀ ref, e.itemRef = some ref → ref ∈ refs) : Preceded refs es := by
  induction es generalizing refs with
  | nil => trivial
  | cons e es ih =>
    rw [List.forall_mem_cons] at h
    exact ⟨h.1, ih fun e he ref hr => List.mem_append_left _ (h.2 e he ref hr)⟩

theorem Preceded.mem {pre post : List ResponsesEvent} {e : ResponsesEvent} {ref : ℕ × String}
    (h : Preceded [] (pre ++ e :: post)) (he : e.itemRef = some ref) : ref ∈ addedItems pre := by
  rw [preceded_append] at h
  simpa using h.2.1 ref he

/-! ### The invariant -/

namespace ResponsesStream

/-- The announced message item. -/
def textRefs (s : ResponsesStream) : List (ℕ × String) :=
  if s.textStarted then [(0, s.getMessageId)] else []

/-- Index and id of a tool call, if it is announced. -/
def callRef (entry : ℕ × StreamToolCall) : Option (ℕ × String) :=
  if entry.2.added then some (entry.1, finalCallId entry.1 entry.2) else none

/-- The announced tool calls. -/
def callRefs (s : ResponsesStream) : List (ℕ × String) := s.toolCalls.filterMap callRef

end ResponsesStream

/-- What holds of the events so far and the state: the items announced are those the state knows,
and the events are about announced items. -/
structure ItemInv (h : List ResponsesEvent) (s : ResponsesStream) : Prop where
  sorted : OrdMap.Sorted s.toolCalls
  named : s.NamedAdded
  id_known : s.textStarted = true → s.responseId.isSome = true
  callId_known : ∀ i, ((OrdMap.get i s.toolCalls).getD {}).added = true →
    ((OrdMap.get i s.toolCalls).getD {}).callId.isSome = true
  added_perm : (addedItems h).Perm (s.textRefs ++ s.callRefs)
  preceded : Preceded [] h

theorem itemInv_nil : ItemInv [] {} where
  sorted := List.Pairwise.nil
  named := fun i hi => absurd hi (by simp)
  id_known := by simp
  callId_known := fun i hi => absurd hi (by simp)
  added_perm := List.Perm.refl _
  preceded := trivial

namespace ItemInv

variable {h : List ResponsesEvent} {s : ResponsesStream}

/-- Events that announce nothing and are about announced items, and a state that knows the same
items. -/
theorem of_keep (hs : ItemInv h s) {out : List ResponsesEvent} {s' : ResponsesStream}
    (hadded : addedItems out = []) (hrefs : ∀ e ∈ out, ∀ ref, e.itemRef = some ref →
      ref ∈ s.textRefs ++ s.callRefs)
    (htools : s'.toolCalls = s.toolCalls) (hstarted : s'.textStarted = s.textStarted)
    (hknown : s.responseId.isSome = true → s'.responseId.isSome = true)
    (hid : s.textStarted = true → s'.getMessageId = s.getMessageId) :
    ItemInv (h ++ out) s' where
  sorted := by rw [htools]; exact hs.sorted
  named := by
    intro i
    rw [htools]
    exact hs.named i
  id_known := by
    rw [hstarted]
    intro ht
    exact hknown (hs.id_known ht)
  callId_known := by
    rw [htools]
    exact hs.callId_known
  added_perm := by
    have htext : s'.textRefs = s.textRefs := by
      unfold ResponsesStream.textRefs
      rw [hstarted]
      split_ifs with ht
      · rw [hid ht]
      · rfl
    rw [addedItems_append, hadded, List.append_nil, htext, ResponsesStream.callRefs, htools]
    exact hs.added_perm
  preceded := by
    rw [preceded_append]
    refine ⟨hs.preceded, preceded_of_refs fun e he ref href => ?_⟩
    rw [List.nil_append, hs.added_perm.mem_iff]
    exact hrefs e he ref href

theorem metadata (hs : ItemInv h s) (chunk : Value) : ItemInv h (s.setChunkMetadata chunk) := by
  obtain ⟨responseId, messageId, createdAt, model, heq, hsome, hkeep⟩ :=
    s.setChunkMetadata_spec chunk
  rw [heq]
  have hinv : ItemInv (h ++ []) { s with responseId, messageId, createdAt, model } := by
    refine hs.of_keep rfl (by simp) rfl rfl (fun _ => hsome) fun ht => ?_
    obtain ⟨h1, h2⟩ := hkeep (hs.id_known ht)
    rw [h1, h2]
    rfl
  rwa [List.append_nil] at hinv

theorem start (hs : ItemInv h s) (usage : UsageTotals) :
    ItemInv (h ++ (s.startResponseEvents usage).2) (s.startResponseEvents usage).1 := by
  unfold ResponsesStream.startResponseEvents
  split_ifs
  · rwa [List.append_nil]
  · refine hs.of_keep rfl ?_ rfl rfl id fun _ => rfl
    simp [ResponsesEvent.itemRef]

theorem text (hs : ItemInv h s) (hknown : s.responseId.isSome = true) (text : String) :
    ItemInv (h ++ (s.processContent (some text)).2) (s.processContent (some text)).1 := by
  by_cases htext : text = ""
  · rw [ResponsesStream.processContent, if_pos htext, List.append_nil]
    exact hs
  rw [ResponsesStream.processContent_some htext]
  by_cases hstarted : s.textStarted = true
  · -- The message item is announced already.
    refine hs.of_keep ?_ ?_ rfl hstarted.symm id fun _ => rfl
    · simp [ResponsesStream.textOpenEvents, hstarted, addedItems, ResponsesEvent.addedItem]
    · simp [ResponsesStream.textOpenEvents, hstarted, ResponsesEvent.itemRef,
        ResponsesStream.textRefs]
  · have hopen : s.textOpenEvents = [.outputItemAdded 0 (.message s.getMessageId .inProgress []),
        .contentPartAdded s.getMessageId] := by
      rw [ResponsesStream.textOpenEvents, if_neg hstarted]
    have hrefs : s.textRefs = [] := by rw [ResponsesStream.textRefs, if_neg hstarted]
    have hnew : addedItems (s.textOpenEvents ++ [.outputTextDelta s.getMessageId text]) =
        [(0, s.getMessageId)] := by
      rw [hopen]
      rfl
    refine ⟨hs.sorted, hs.named, fun _ => hknown, hs.callId_known, ?_, ?_⟩
    · have hperm := hs.added_perm
      rw [hrefs, List.nil_append] at hperm
      rw [addedItems_append, hnew]
      exact List.perm_append_comm.trans ((hperm.cons (0, s.getMessageId)))
    · rw [preceded_append, hopen]
      refine ⟨hs.preceded, ?_⟩
      simp [Preceded, ResponsesEvent.itemRef, ResponsesEvent.addedItem, OutputItem.id]

theorem callRefs_insert (hs : ItemInv h s) {index : ℕ} {new : StreamToolCall}
    {name fragment : String} {out : List ResponsesEvent}
    (hstep : ResponsesStream.ToolStep index ((OrdMap.get index s.toolCalls).getD {}) new name
      fragment out) :
    ((OrdMap.insert index new s.toolCalls).filterMap ResponsesStream.callRef).Perm
      (addedItems out ++ s.callRefs) := by
  have hins := (OrdMap.perm_insert hs.sorted index new).filterMap ResponsesStream.callRef
  have hold := (OrdMap.perm_erase hs.sorted index).filterMap ResponsesStream.callRef
  rw [List.filterMap_append] at hold
  refine hins.trans (List.Perm.trans ?_ (hold.symm.append_left (addedItems out)))
  rw [← List.append_assoc, ← List.singleton_append, List.filterMap_append]
  refine List.Perm.append_right _ (List.Perm.of_eq ?_)
  -- The reference of the new entry is that of the old one, or the announcement.
  have hargs : ∀ f, addedItems (ResponsesStream.argumentsEvent index new f) = [] := by
    intro f
    unfold ResponsesStream.argumentsEvent
    split_ifs <;> rfl
  rw [hstep.out_eq, addedItems_append, hargs, List.append_nil, ResponsesStream.announcement]
  cases hadded : ((OrdMap.get index s.toolCalls).getD {}).added with
  | true =>
    have hnew := hstep.added_mono hadded
    have hid := hs.callId_known index hadded
    obtain ⟨id, hid⟩ := Option.isSome_iff_exists.mp hid
    have hid' := hstep.callId_eq id hid
    cases hget : OrdMap.get index s.toolCalls with
    | none => rw [hget] at hadded; exact absurd hadded (by simp)
    | some call =>
      rw [hget] at hadded hid
      simp only [Option.getD_some] at hadded hid
      simp [ResponsesStream.callRef, ResponsesStream.finalCallId, hnew, hadded, hid, hid',
        addedItems]
  | false =>
    have hnone : ((OrdMap.get index s.toolCalls).map fun v => (index, v)).toList.filterMap
        ResponsesStream.callRef = [] := by
      cases hget : OrdMap.get index s.toolCalls with
      | none => rfl
      | some call =>
        rw [hget] at hadded
        simp only [Option.getD_some] at hadded
        simp [ResponsesStream.callRef, hadded]
    rw [hnone, List.append_nil]
    cases hnew : new.added with
    | true =>
      simp [ResponsesStream.callRef, hnew, addedItems, ResponsesEvent.addedItem, OutputItem.id]
    | false => simp [ResponsesStream.callRef, hnew, addedItems]

theorem tool (hs : ItemInv h s) (toolCall : Value)
    (hok : ResponsesStream.toolArguments toolCall ≠ "" → (s.toolBefore toolCall).added = true ∨
      (ResponsesStream.toolName toolCall).isSome = true) :
    ItemInv (h ++ (s.processToolCallDelta toolCall).2) (s.processToolCallDelta toolCall).1 := by
  obtain ⟨new, name, hstep, heq⟩ := s.processToolCallDelta_spec toolCall
  obtain ⟨hnamed, hadded⟩ := ResponsesStream.processToolCallDelta_named hs.named toolCall
  have hperm := hs.callRefs_insert hstep
  have hknown : new.added = true → new.callId.isSome = true := by
    intro hnew
    by_cases hold : (s.toolBefore toolCall).added = true
    · obtain ⟨id, hid⟩ := Option.isSome_iff_exists.mp (hs.callId_known _ hold)
      rw [hstep.callId_eq id hid]
      rfl
    · refine hstep.callId_of_out ?_
      rw [hstep.out_eq, ResponsesStream.announcement,
        if_pos ⟨Bool.eq_false_iff.mpr hold, hnew⟩]
      simp
  constructor
  · rw [heq]
    exact OrdMap.sorted_insert hs.sorted _ _
  · exact hnamed
  · rw [heq]
    exact hs.id_known
  · intro i
    rw [heq]
    dsimp only
    rw [OrdMap.get_insert]
    split_ifs with hi
    · exact hknown
    · exact hs.callId_known i
  · rw [addedItems_append, heq]
    change (addedItems h ++ _).Perm (s.textRefs ++ (OrdMap.insert _ _ _).filterMap _)
    refine (hs.added_perm.append_right _).trans ?_
    rw [List.append_assoc]
    exact (List.perm_append_comm.trans hperm.symm).append_left _
  · rw [preceded_append]
    refine ⟨hs.preceded, ?_⟩
    rw [List.nil_append, hstep.out_eq, preceded_append]
    constructor
    · refine preceded_of_refs fun e he ref href => ?_
      unfold ResponsesStream.announcement at he
      split_ifs at he
      · obtain rfl := List.mem_singleton.mp he
        exact absurd href (by simp [ResponsesEvent.itemRef])
      · exact absurd he List.not_mem_nil
    · -- Arguments are about the call they belong to, which is announced by now.
      refine preceded_of_refs fun e he ref href => ?_
      unfold ResponsesStream.argumentsEvent at he
      split_ifs at he with hf
      · exact absurd he List.not_mem_nil
      · obtain rfl := List.mem_singleton.mp he
        obtain rfl := Option.some.inj href
        have hnew : new.added = true := by
          rw [hadded new heq]
          simpa using hok hf
        have hargs : addedItems (s.processToolCallDelta toolCall).2 =
            addedItems (ResponsesStream.announcement (s.toolIndex toolCall)
              (s.toolBefore toolCall) new name) := by
          rw [hstep.out_eq, addedItems_append]
          unfold ResponsesStream.argumentsEvent
          split_ifs
          simp [addedItems, ResponsesEvent.addedItem]
        rw [← hargs]
        have hmem : (s.toolIndex toolCall, ResponsesStream.finalCallId (s.toolIndex toolCall) new) ∈
            (OrdMap.insert (s.toolIndex toolCall) new s.toolCalls).filterMap
              ResponsesStream.callRef := by
          refine List.mem_filterMap.mpr ⟨(s.toolIndex toolCall, new), ?_, ?_⟩
          · exact OrdMap.mem_of_get (OrdMap.get_insert_self _ _ _)
          · rw [ResponsesStream.callRef, if_pos hnew]
        rcases List.mem_append.mp (hperm.mem_iff.mp hmem) with hmem | hmem
        · exact List.mem_append_right _ hmem
        · exact List.mem_append_left _
            (hs.added_perm.mem_iff.mpr (List.mem_append_right _ hmem))

theorem mem_itemDoneEvents {e : ResponsesEvent} (he : e ∈ s.itemDoneEvents) :
    e.addedItem = none ∧ (e.itemRef = some (0, s.getMessageId) ∧ s.textStarted = true ∨
      ∃ entry ∈ s.toolCalls,
        e.itemRef = some (entry.1, ResponsesStream.finalCallId entry.1 entry.2)) := by
  rcases List.mem_append.mp he with he | he
  · unfold ResponsesStream.textDoneEvents at he
    split_ifs at he with hstarted
    · simp only [List.mem_cons, List.not_mem_nil, or_false] at he
      rcases he with rfl | rfl | rfl <;> exact ⟨rfl, Or.inl ⟨rfl, hstarted⟩⟩
    · exact absurd he List.not_mem_nil
  · obtain ⟨entry, hentry, he⟩ := List.mem_flatMap.mp he
    rcases List.mem_pair.mp he with rfl | rfl <;> exact ⟨rfl, Or.inr ⟨entry, hentry, rfl⟩⟩

theorem finish (hs : ItemInv h s) (usage : UsageTotals)
    (hok : s.completed = false → ∀ e ∈ s.toolCalls, e.2.added = true) :
    ItemInv (h ++ (s.finishResponse usage).2) (s.finishResponse usage).1 := by
  cases hcompleted : s.completed with
  | true =>
    rw [ResponsesStream.finishResponse_completed usage hcompleted, List.append_nil]
    exact hs
  | false =>
    rw [ResponsesStream.finishResponse_open usage hcompleted]
    refine hs.of_keep ?_ ?_ rfl rfl id fun _ => rfl
    · refine List.filterMap_eq_nil_iff.mpr fun e he => ?_
      rcases List.mem_append.mp he with he | he
      · exact (mem_itemDoneEvents he).1
      · obtain rfl := List.mem_singleton.mp he
        rfl
    · intro e he ref href
      rcases List.mem_append.mp he with he | he
      · rcases (mem_itemDoneEvents he).2 with ⟨hr, hstarted⟩ | ⟨entry, hentry, hr⟩
        · rw [hr] at href
          obtain rfl := Option.some.inj href
          simp [ResponsesStream.textRefs, hstarted]
        · rw [hr] at href
          obtain rfl := Option.some.inj href
          refine List.mem_append_right _ (List.mem_filterMap.mpr ⟨entry, hentry, ?_⟩)
          rw [ResponsesStream.callRef, if_pos (hok hcompleted entry hentry)]
      · obtain rfl := List.mem_singleton.mp he
        exact absurd href (by simp [ResponsesEvent.itemRef])

end ItemInv

/-! ### The moves that keep the protocol -/

/-- The moves that keep the protocol. Arguments come only for a call that is announced, with this
delta at the latest; no item is announced after the completion; and when the response is completed
every tool call is announced and their indexes follow on the message item, or start at `0` if
there is none. -/
def Move.ItemsOk (s : ResponsesStream) : Move → Prop
  | .text t => t = "" ∨ s.completed = false ∨ s.textStarted = true
  | .tool toolCall =>
    (ResponsesStream.toolArguments toolCall = "" ∨ (s.toolBefore toolCall).added = true ∨
      (ResponsesStream.toolName toolCall).isSome = true) ∧
    (s.completed = true → (ResponsesStream.toolName toolCall).isSome = true →
      (s.toolBefore toolCall).added = true)
  | .finish _ => s.completed = false → (∀ e ∈ s.toolCalls, e.2.added = true) ∧
      s.toolCalls.map Prod.fst =
        List.range' (if s.textStarted then 1 else 0) s.toolCalls.length
  | _ => True

instance (s : ResponsesStream) (m : Move) : Decidable (m.ItemsOk s) :=
  match m with
  | .text t => inferInstanceAs (Decidable (t = "" ∨ s.completed = false ∨ s.textStarted = true))
  | .tool toolCall => inferInstanceAs (Decidable
      ((ResponsesStream.toolArguments toolCall = "" ∨ (s.toolBefore toolCall).added = true ∨
        (ResponsesStream.toolName toolCall).isSome = true) ∧
      (s.completed = true → (ResponsesStream.toolName toolCall).isSome = true →
        (s.toolBefore toolCall).added = true)))
  | .finish _ => inferInstanceAs (Decidable
      (s.completed = false → (∀ e ∈ s.toolCalls, e.2.added = true) ∧
        s.toolCalls.map Prod.fst =
          List.range' (if s.textStarted then 1 else 0) s.toolCalls.length))
  | .metadata _ => isTrue trivial
  | .start _ => isTrue trivial

/-- Text comes only after the metadata of a chunk. -/
def Move.IdKnown (s : ResponsesStream) : Move → Prop
  | .text _ => s.responseId.isSome = true
  | _ => True

namespace ResponsesStream

theorem responseId_step {s : ResponsesStream} (h : s.responseId.isSome = true) (m : Move) :
    (s.step m).1.responseId.isSome = true := by
  cases m with
  | metadata chunk =>
    obtain ⟨_, _, _, _, heq, hsome, -⟩ := s.setChunkMetadata_spec chunk
    rw [step, heq]
    exact hsome
  | start usage =>
    rw [step, startResponseEvents]
    split_ifs <;> exact h
  | text text =>
    by_cases htext : text = ""
    · rw [step, processContent, if_pos htext]
      exact h
    · rw [step, processContent_some htext]
      exact h
  | tool toolCall =>
    obtain ⟨new, name, -, heq⟩ := s.processToolCallDelta_spec toolCall
    rw [step, heq]
    exact h
  | finish usage =>
    rw [step, finishResponse]
    split_ifs <;> exact h

theorem along_idKnown_of_known {s : ResponsesStream} (h : s.responseId.isSome = true)
    (ms : List Move) : Mealy.Along step (fun s m => m.IdKnown s) s ms :=
  Mealy.along_of_inv (fun s => s.responseId.isSome = true) (fun _ m hs => responseId_step hs m)
    (fun s m hs => by cases m <;> simp [Move.IdKnown, hs]) h ms

/-- In the moves of a stream, text comes only after the metadata of its chunk. -/
theorem along_idKnown (o : SseObserver) (fs : List SseFrame) (u : UsageTotals)
    (s : ResponsesStream) :
    Mealy.Along step (fun s m => m.IdKnown s) s (streamMoves o fs ++ [.finish u]) := by
  induction fs generalizing o s with
  | nil => exact ⟨trivial, trivial⟩
  | cons f fs ih =>
    cases f with
    | data value leadingSpace line =>
      obtain ⟨_, _, _, _, heq, hsome, -⟩ :=
        s.setChunkMetadata_spec (o.applyDataPrologue value).2.1
      refine ⟨trivial, along_idKnown_of_known ?_ _⟩
      rw [step, heq]
      exact hsome
    | done line => exact ⟨trivial, ih _ _⟩
    | _ => exact ih _ _

end ResponsesStream

theorem ItemInv.step {h : List ResponsesEvent} {s : ResponsesStream} (hs : ItemInv h s) {m : Move}
    (hok : m.ItemsOk s) (hid : m.IdKnown s) : ItemInv (h ++ (s.step m).2) (s.step m).1 := by
  cases m with
  | metadata chunk =>
    rw [ResponsesStream.step, List.append_nil]
    exact hs.metadata chunk
  | start usage => exact hs.start usage
  | text text => exact hs.text hid text
  | tool toolCall => exact hs.tool toolCall fun hargs => hok.1.resolve_left hargs
  | finish usage => exact hs.finish usage fun hopen => (hok hopen).1

/-- After the completion, a move that keeps the protocol announces nothing. -/
theorem addedItems_late {s : ResponsesStream} (hcompleted : s.completed = true)
    (hnamed : s.NamedAdded) {m : Move} (hok : m.ItemsOk s) : addedItems (s.step m).2 = [] := by
  cases m with
  | metadata chunk => rfl
  | start usage =>
    rw [ResponsesStream.step, ResponsesStream.startResponseEvents]
    split_ifs <;> rfl
  | text text =>
    by_cases htext : text = ""
    · rw [ResponsesStream.step, ResponsesStream.processContent, if_pos htext]
      rfl
    · have hstarted : s.textStarted = true := by
        rcases hok with hok | hok | hok
        · exact absurd hok htext
        · rw [hcompleted] at hok
          exact absurd hok (by decide)
        · exact hok
      rw [ResponsesStream.step, ResponsesStream.processContent_some htext,
        ResponsesStream.textOpenEvents, if_pos hstarted]
      rfl
  | tool toolCall =>
    obtain ⟨new, name, hstep, heq⟩ := s.processToolCallDelta_spec toolCall
    have hadded := (ResponsesStream.processToolCallDelta_named hnamed toolCall).2 new heq
    have hname := hok.2 hcompleted
    have hann : ResponsesStream.announcement (s.toolIndex toolCall) (s.toolBefore toolCall) new
        name = [] := by
      rw [ResponsesStream.announcement, if_neg]
      rintro ⟨h1, h2⟩
      rw [hadded, h1, Bool.false_or] at h2
      rw [hname h2] at h1
      exact absurd h1 (by decide)
    rw [ResponsesStream.step, hstep.out_eq, hann, List.nil_append,
      ResponsesStream.argumentsEvent]
    split_ifs <;> rfl
  | finish usage =>
    rw [ResponsesStream.step, ResponsesStream.finishResponse_completed usage hcompleted]
    rfl

/-! ### The completed response -/

section Completion

variable {s : ResponsesStream} (hadded : ∀ e ∈ s.toolCalls, e.2.added = true)
  (hindex : s.toolCalls.map Prod.fst =
    List.range' (if s.textStarted then 1 else 0) s.toolCalls.length)

include hindex in
theorem finalOutput_tool {entry : ℕ × StreamToolCall} (he : entry ∈ s.toolCalls) :
    s.finalOutput[entry.1]? = some (ResponsesStream.toolItem entry) := by
  obtain ⟨j, hj, rfl⟩ := List.mem_iff_getElem.mp he
  have hfst : (s.toolCalls[j]).1 = (if s.textStarted then 1 else 0) + j := by
    have := congrArg (fun l => l[j]?) hindex
    simpa [hj] using this
  rw [hfst, ResponsesStream.finalOutput]
  cases s.textStarted with
  | true => simp [hj, Nat.add_comm]
  | false => simp [hj]

theorem finalOutput_text (hstarted : s.textStarted = true) :
    s.finalOutput[0]? = some s.messageItem := by
  simp [ResponsesStream.finalOutput, hstarted]

include hadded in
theorem callRefs_of_added : s.callRefs =
    s.toolCalls.map fun e => (e.1, ResponsesStream.finalCallId e.1 e.2) := by
  rw [ResponsesStream.callRefs, ← List.filterMap_eq_map]
  refine List.filterMap_congr fun e he => ?_
  rw [ResponsesStream.callRef, if_pos (hadded e he)]
  rfl

include hadded hindex in
theorem nodup_refs : ((s.textRefs ++ s.callRefs).map Prod.fst).Nodup := by
  have hcalls : s.callRefs.map Prod.fst = s.toolCalls.map Prod.fst := by
    rw [callRefs_of_added hadded, List.map_map]
    rfl
  rw [List.map_append, hcalls, hindex, ResponsesStream.textRefs]
  cases s.textStarted with
  | true =>
    simp only [if_true, List.map_cons, List.map_nil, List.singleton_append, List.nodup_cons,
      List.mem_range']
    refine ⟨?_, List.nodup_range'⟩
    rintro ⟨x, -, hx⟩
    omega
  | false => simp [List.nodup_range']

include hadded hindex in
theorem finalOutput_refs {ref : ℕ × String} (href : ref ∈ s.textRefs ++ s.callRefs) :
    (s.finalOutput[ref.1]?).map OutputItem.id = some ref.2 := by
  rcases List.mem_append.mp href with href | href
  · unfold ResponsesStream.textRefs at href
    split_ifs at href with hstarted
    · obtain rfl := List.mem_singleton.mp href
      rw [finalOutput_text hstarted]
      rfl
    · exact absurd href List.not_mem_nil
  · rw [callRefs_of_added hadded] at href
    obtain ⟨entry, he, rfl⟩ := List.mem_map.mp href
    rw [finalOutput_tool hindex he]
    rfl

include hindex in
theorem finalOutput_done {i : ℕ} {item : OutputItem}
    (he : .outputItemDone i item ∈ s.itemDoneEvents) : s.finalOutput[i]? = some item := by
  rcases List.mem_append.mp he with he | he
  · unfold ResponsesStream.textDoneEvents at he
    split_ifs at he with hstarted
    · simp only [List.mem_cons, reduceCtorEq, List.not_mem_nil, or_false, false_or,
        ResponsesEvent.outputItemDone.injEq] at he
      obtain ⟨rfl, rfl⟩ := he
      exact finalOutput_text hstarted
    · exact absurd he List.not_mem_nil
  · obtain ⟨entry, hentry, he⟩ := List.mem_flatMap.mp he
    simp only [ResponsesStream.toolDoneEvents, List.mem_cons, reduceCtorEq, List.not_mem_nil,
      or_false, false_or, ResponsesEvent.outputItemDone.injEq] at he
    obtain ⟨rfl, rfl⟩ := he
    exact finalOutput_tool hindex hentry

end Completion

/-- **The item protocol**: for every upstream stream, in any chunks, all of whose moves keep the
protocol in the state they are made in, the events of the whole stream follow it. -/
theorem responses_items_of_ok (c : Codec) (backendModel publicModel : Option String) (emit : Bool)
    (chunks : List Bytes)
    (hok : Mealy.Along ResponsesStream.step (fun s m => m.ItemsOk s) {}
      (responsesMoves c backendModel publicModel chunks.flatten)) :
    ItemProtocol (responsesEvents c backendModel publicModel emit chunks) := by
  have hid : Mealy.Along ResponsesStream.step (fun s m => m.IdKnown s) {}
      (responsesMoves c backendModel publicModel chunks.flatten) :=
    ResponsesStream.along_idKnown _ _ _ _
  have hinv : ∀ h s ms, Mealy.Along ResponsesStream.step
      (fun s m => m.ItemsOk s ∧ m.IdKnown s) s ms → ItemInv h s →
      ItemInv (h ++ (Mealy.run ResponsesStream.step s ms).2)
        (Mealy.run ResponsesStream.step s ms).1 := fun h s ms hms hs =>
    Mealy.run_hist_along ItemInv (fun _ _ _ hm hs => hs.step hm.1 hm.2) hms hs
  have hfinish : ∃ m ∈ responsesMoves c backendModel publicModel chunks.flatten,
      m.isFinish = true := ⟨_, List.mem_append_right _ List.mem_cons_self, rfl⟩
  obtain ⟨before, usage, after, hms, hbefore⟩ := exists_first_finish hfinish
  have hboth := (Mealy.along_and _ _ _ _).mpr ⟨hok, hid⟩
  have hall := hinv [] {} _ hboth itemInv_nil
  rw [List.nil_append, ← responsesEvents_eq c backendModel publicModel emit] at hall
  -- The state when the response is completed.
  rw [hms, Mealy.along_append] at hok hboth
  obtain ⟨hokBefore, hokFinish, hokAfter⟩ := hok
  have hopen := hinv [] {} before hboth.1 itemInv_nil
  have hcompleted := (openInv_nil.run hbefore).not_completed
  have hnotDone := (openInv_nil.run hbefore).not_done
  rw [List.nil_append] at hopen hnotDone
  generalize hs : Mealy.run ResponsesStream.step {} before = t at *
  obtain ⟨hadded, hindex⟩ := hokFinish hcompleted
  have hfinish := ResponsesStream.finishResponse_open usage hcompleted
  -- No item is announced after the completion.
  have hlate : addedItems (Mealy.run ResponsesStream.step (t.1.step (.finish usage)).1 after).2 =
      [] := by
    have := Mealy.run_hist_along
      (fun es (s : ResponsesStream) =>
        s.completed = true ∧ s.NamedAdded ∧ addedItems es = [])
      (fun es s m hm hs => ⟨(ResponsesStream.step_completed hs.1 m).1,
        ResponsesStream.namedAdded_step hs.2.1 m, by
          rw [addedItems_append, hs.2.2, addedItems_late hs.1 hs.2.1 hm]
          rfl⟩) (h := []) hokAfter
      ⟨by rw [ResponsesStream.step, hfinish], by
        rw [ResponsesStream.step, hfinish]
        exact hopen.named, rfl⟩
    simpa using this.2.2
  have hlateDone := (ResponsesStream.run_completed (s := (t.1.step (.finish usage)).1)
    (by rw [ResponsesStream.step, hfinish]) after).2
  have hevents : responsesEvents c backendModel publicModel emit chunks =
      t.2 ++ (t.1.itemDoneEvents ++
        .completed (t.1.responseObject usage .completed t.1.finalOutput) ::
          (Mealy.run ResponsesStream.step (t.1.step (.finish usage)).1 after).2) := by
    rw [responsesEvents_eq, hms, Mealy.run_append, Mealy.run_cons, hs]
    simp only [ResponsesStream.step, hfinish, List.append_assoc, List.cons_append,
      List.nil_append]
  have hitems : addedItems (responsesEvents c backendModel publicModel emit chunks) =
      addedItems t.2 := by
    have hdone : addedItems t.1.itemDoneEvents = [] :=
      List.filterMap_eq_nil_iff.mpr fun e he => (ItemInv.mem_itemDoneEvents he).1
    rw [hevents, addedItems_append, addedItems_append, hdone, List.nil_append,
      ← List.singleton_append, addedItems_append, hlate]
    simp [addedItems, ResponsesEvent.addedItem]
  have hnodup : ((addedItems (responsesEvents c backendModel publicModel emit chunks)).map
      Prod.fst).Nodup := by
    rw [hitems, (hopen.added_perm.map Prod.fst).nodup_iff]
    exact nodup_refs hadded hindex
  refine ⟨?_, hnodup, ?_⟩
  · intro pre e post ref heq href
    rw [heq] at hall hnodup
    have hmem := hall.preceded.mem href
    rw [addedItems_append, List.map_append] at hnodup
    exact List.count_eq_one_of_mem (List.Nodup.of_map _ hnodup.of_append_left) hmem
  · intro response hresponse
    -- Only the closing events of the completion are `done` events.
    have hdone : ∀ e : ResponsesEvent, e.isDone = true →
        e ∈ responsesEvents c backendModel publicModel emit chunks →
        e ∈ t.1.itemDoneEvents ∨
          e = .completed (t.1.responseObject usage .completed t.1.finalOutput) := by
      intro e he hmem
      rw [hevents] at hmem
      rcases List.mem_append.mp hmem with hmem | hmem
      · rw [hnotDone e hmem] at he
        exact absurd he (by decide)
      · rcases List.mem_append.mp hmem with hmem | hmem
        · exact Or.inl hmem
        · rcases List.mem_cons.mp hmem with rfl | hmem
          · exact Or.inr rfl
          · rw [hlateDone e hmem] at he
            exact absurd he (by decide)
    obtain rfl : response = t.1.responseObject usage .completed t.1.finalOutput := by
      rcases hdone _ rfl hresponse with hmem | heq
      · exact absurd rfl ((t.1.deltas_itemDoneEvents _ hmem).2.2.2 response)
      · exact ResponsesEvent.completed.inj heq
    refine ⟨fun i item hitem => ?_, fun ref href => ?_⟩
    · rcases hdone _ rfl hitem with hmem | heq
      · exact finalOutput_done hindex hmem
      · cases heq
    · rw [hitems, hopen.added_perm.mem_iff] at href
      exact finalOutput_refs hadded hindex href

/-- Two tool calls, each named before its arguments come. -/
theorem responses_items_of_two_tools :
    let call (index : UInt64) (function : List (String × Value)) : Value :=
      .obj [("index", .u64 index), ("function", .obj function)]
    let chunks := [sseData reference (.obj [("id", .string "c1"), ("choices", .array [.obj
        [("delta", .obj [("tool_calls", .array
          [call 0 [("name", .string "f"), ("arguments", .string "1")],
            call 1 [("name", .string "g")]])])]])]),
      sseData reference (.obj [("choices", .array [.obj [("finish_reason", .string "stop")]])]),
      asBytes "data: [DONE]\n\n"]
    Mealy.Along ResponsesStream.step (fun s m => m.ItemsOk s) {}
        (responsesMoves reference none none chunks.flatten) ∧
      ItemProtocol (responsesEvents reference none none false chunks) := by
  refine ⟨?ok, responses_items_of_ok reference none none false _ ?ok⟩
  rw [reference_eq_direct]
  decide +kernel

/-- Text and the first tool call are announced at the same index. -/
theorem responses_items_text_and_tool :
    ¬ItemProtocol (responsesEvents reference none none false
      [sseData reference (.obj [("id", .string "c1"), ("choices", .array [.obj
        [("delta", .obj [("content", .string "Hi"), ("tool_calls", .array [.obj
          [("index", .u64 0), ("function", .obj [("name", .string "f")])]])])]])]),
      asBytes "data: [DONE]\n\n"]) := by
  rw [reference_eq_direct]
  intro h
  exact absurd h.distinct (by decide +kernel)

end Onair
