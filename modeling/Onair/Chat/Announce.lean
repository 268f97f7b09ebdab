import Onair.Chat.GrammarMessages

/-!
# Tool calls are announced before their arguments

* `AnnouncedBefore`, `RoleFirst`: what a client relies on;
* `announcedBefore_iff`: frames that one may send have both if and only if they are orderly;
* `orderly_run`: a run is orderly if and only if each of its steps is;
* `tool_calls_announced_iff`: **both conversions announce every call before its arguments if and
  only if the arguments come for a call that is named by then**.
-/

namespace Onair

open Json Text

/-! ### What a client relies on -/

/-- Every fragment of arguments is preceded by exactly one announcement of its call. -/
def AnnouncedBefore (fs : List ChatFrame) : Prop :=
  ∀ before f after i, fs = before ++ f :: after → f.argumentsIndex = some i →
    (before.filter (ChatFrame.announces i)).length = 1

/-- The role comes with the first chunk that carries content or tool calls and with no other. -/
def RoleFirst (fs : List ChatFrame) : Prop :=
  ∀ before f after, fs = before ++ f :: after →
    (f.role = true ↔ f.carries = true ∧ ∀ g ∈ before, g.carries = false)

theorem ChatFrame.carries_of_announces {i : ℕ} {f : ChatFrame} (h : f.announces i = true) :
    f.carries = true ∧ f.argumentsIndex = none := by
  cases f with
  | chunk head delta reason u =>
    cases delta <;> simp_all [announces, announcedIndex, carries, argumentsIndex]
  | _ => simp [announces, announcedIndex] at h

/-- A sender that has sent nothing. -/
def Sender.fresh : Sender := ⟨false, fun _ => false⟩

/-- In orderly frames what carries anything is content or an announcement at first. -/
theorem Orderly.any_carries {fs : List ChatFrame} (h : Orderly Sender.fresh.announced fs)
    {f : ChatFrame} (hf : f ∈ fs) (hcarries : f.carries = true) :
    (fs.any fun g => g.carries && g.argumentsIndex.isNone) = true := by
  cases hindex : f.argumentsIndex with
  | none => exact List.any_eq_true.mpr ⟨f, hf, by simp [hcarries, hindex]⟩
  | some i =>
    obtain ⟨before, after, rfl⟩ := List.append_of_mem hf
    have hany := h before f after i rfl hindex
    simp only [Sender.fresh, Bool.false_or, List.any_eq_true] at hany
    obtain ⟨g, hg, hannounces⟩ := hany
    obtain ⟨hgcarries, hgindex⟩ := ChatFrame.carries_of_announces hannounces
    exact List.any_eq_true.mpr ⟨g, List.mem_append_left _ hg, by simp [hgcarries, hgindex]⟩

/-- **Frames that one may send have what a client relies on if and only if they are orderly.** -/
theorem announcedBefore_iff {fs : List ChatFrame} {k : Sender} (hsends : Sends .fresh fs k) :
    AnnouncedBefore fs ∧ RoleFirst fs ↔ Orderly Sender.fresh.announced fs := by
  constructor
  · rintro ⟨hannounced, -⟩ before f after i hfs hi
    have hone := hannounced before f after i hfs hi
    obtain ⟨g, hg⟩ := List.exists_mem_of_length_pos (hone ▸ Nat.one_pos)
    rw [List.mem_filter] at hg
    simpa [Sender.fresh] using ⟨g, hg.1, hg.2⟩
  · intro horderly
    refine ⟨fun before f after i hfs hi => ?_, fun before f after hfs => ?_⟩
    · -- One announcement comes before, and no two come at all.
      have hany := horderly before f after i hfs hi
      simp only [Sender.fresh, Bool.false_or, List.any_eq_true] at hany
      obtain ⟨g, hg, hannounces⟩ := hany
      have hpos := List.length_pos_of_mem (List.mem_filter.mpr ⟨hg, hannounces⟩)
      have honce := hsends.announces_once i
      rw [hfs, List.filter_append, List.length_append] at honce
      have hle := Bool.toNat_le (k.announced i)
      omega
    · have hbefore : Orderly Sender.fresh.announced before := by
        rw [hfs] at horderly
        exact ((orderly_append _ _ _).mp horderly).1
      have hany : (before.any fun g => g.carries && g.argumentsIndex.isNone) = true ↔
          ¬∀ g ∈ before, g.carries = false := by
        constructor
        · intro h hnone
          obtain ⟨g, hg, hgcarries⟩ := List.any_eq_true.mp h
          rw [hnone g hg] at hgcarries
          exact absurd hgcarries (by simp)
        · intro h
          push Not at h
          obtain ⟨g, hg, hgcarries⟩ := h
          exact hbefore.any_carries hg (by simpa using hgcarries)
      have hindex : f.argumentsIndex.isNone = false → ¬∀ g ∈ before, g.carries = false := by
        intro hsome hnone
        obtain ⟨i, hi⟩ := Option.isSome_iff_exists.mp (by simpa using hsome)
        have := horderly before f after i hfs hi
        simp only [Sender.fresh, Bool.false_or, List.any_eq_true] at this
        obtain ⟨g, hg, hannounces⟩ := this
        have hannounces' := ChatFrame.carries_of_announces hannounces
        rw [hnone g hg] at hannounces'
        exact absurd hannounces'.1 (by decide)
      rw [hsends.role_first hfs]
      simp only [Bool.and_eq_true, Bool.not_eq_true', Bool.or_eq_false_iff, Sender.fresh, true_and]
      rw [← Bool.not_eq_true, hany, not_not, and_assoc]
      refine and_congr_right fun _ => and_iff_right_of_imp fun hnone => ?_
      by_contra h
      exact hindex (Bool.not_eq_true _ ▸ h) hnone

/-! ### Runs -/

/-- **A run is orderly if and only if each of its steps is**, in the state it is taken in. -/
theorem orderly_run {σ α : Type} (step : σ → α → σ × List ChatFrame) (core : σ → ChatCore)
    {P : σ → α → Prop} (I : σ → Prop) (hI : ∀ s a, I s → I (step s a).1)
    (hsends : ∀ s a, Sends (core s).sender (step s a).2 (core (step s a).1).sender)
    (hstep : ∀ s a, I s → (Orderly (core s).sender.announced (step s a).2 ↔ P s a))
    {s : σ} (hs : I s) (as : List α) :
    Orderly (core s).sender.announced (Mealy.run step s as).2 ↔ Mealy.Along step P s as := by
  induction as generalizing s with
  | nil => exact iff_of_true (orderly_nil _) trivial
  | cons a as ih =>
    have hannounced : (fun i => (core s).sender.announced i ||
        (step s a).2.any (ChatFrame.announces i)) = (core (step s a).1).sender.announced := by
      funext i
      rw [(hsends s a).announced_eq]
    rw [Mealy.run_cons, orderly_append, hannounced, ih (hI s a hs), hstep s a hs, Mealy.Along]

theorem sends_run {σ α : Type} {step : σ → α → σ × List ChatFrame} (core : σ → ChatCore)
    (hsends : ∀ s a, Sends (core s).sender (step s a).2 (core (step s a).1).sender) (s : σ)
    (as : List α) :
    Sends (core s).sender (Mealy.run step s as).2 (core (Mealy.run step s as).1).sender := by
  induction as generalizing s with
  | nil => exact .nil _
  | cons a as ih => exact (hsends s a).append (ih _)

/-- Storing a call with a fragment is orderly if the call is announced or named by then. -/
theorem orderly_storeCall {h : ChunkHead} {u : Bool} (roleSent : Bool)
    (calls : List (ℕ × ChatCompletionStreamToolCall)) (index : ℕ)
    (call : ChatCompletionStreamToolCall)
    (hcall : call.announced = (callAt calls index).announced) (fragment : String) :
    Orderly (fun i => (callAt calls i).announced)
        (storeCall (fun d => .chunk h d none u) roleSent calls index call fragment).2 ↔
      (fragment ≠ "" → call.announced = true ∨ call.name.isSome = true) := by
  obtain ⟨callId, name, arguments, announced⟩ := call
  have hput : ∀ announcedBefore, Orderly announcedBefore
      (putCall (fun d => .chunk h d none u) roleSent calls index
        ⟨callId, name, arguments, announced⟩).2 := by
    intro announcedBefore
    refine orderly_of_none _ fun f hf => ?_
    rw [putCall_out] at hf
    split at hf
    · rw [List.mem_singleton.mp hf]
      rfl
    · simp at hf
  rw [storeCall, orderly_append, and_iff_right (hput _)]
  split_ifs with hfragment
  · simp [hfragment, orderly_nil]
  · rw [orderly_arguments, putCall_out, ← hcall]
    cases announced <;> cases name <;>
      simp [hfragment, ChatFrame.announces, ChatFrame.announcedIndex]

/-! ### The conversion from Responses events -/

namespace ChatStream

theorem doneEvent_sends (s : ChatStream) :
    (∀ f ∈ s.doneEvent.2, f.carries = false) ∧ s.doneEvent.1.core.sender = s.core.sender := by
  obtain ⟨hcore, hout⟩ := s.doneEvent_spec
  rw [hcore, hout]
  refine ⟨?_, rfl⟩
  split_ifs <;> simp [ChatFrame.carries]

theorem finishResponse_sends (s : ChatStream) (response : Option Value) :
    (∀ f ∈ (s.finishResponse response).2, f.carries = false) ∧
      (s.finishResponse response).1.core.sender = s.core.sender := by
  cases h : s.completed with
  | true =>
    rw [finishResponse_completed h]
    exact ⟨by simp, rfl⟩
  | false =>
    obtain ⟨head, usage, hout, husage, hcore⟩ := finishResponse_open h response
    rw [hcore, hout]
    refine ⟨?_, rfl⟩
    obtain rfl | ⟨counts, rfl⟩ := husage <;> simp [ChatFrame.carries]

theorem failResponse_sends (s : ChatStream) (response : Option Value) :
    (∀ f ∈ (s.failResponse response).2, f.carries = false) ∧
      (s.failResponse response).1.core.sender = s.core.sender := by
  rw [failResponse]
  split_ifs with h
  · exact ⟨by simp, rfl⟩
  · cases response with
    | none =>
      obtain ⟨hout, hcore⟩ := { s with completed := true }.doneEvent_sends
      exact ⟨List.forall_mem_cons.mpr ⟨rfl, hout⟩, hcore⟩
    | some response =>
      obtain ⟨hout, hcore⟩ :=
        ({ s with completed := true }.setResponseMetadata response).doneEvent_sends
      exact ⟨List.forall_mem_cons.mpr ⟨rfl, hout⟩, hcore⟩

theorem closeStep_sends (s : ChatStream) (event : Value) :
    (∀ f ∈ (s.closeStep event).2, f.carries = false) ∧
      (s.closeStep event).1.core.sender = s.core.sender := by
  unfold closeStep
  cases responsesKind event with
  | completed => exact s.finishResponse_sends _
  | failed => exact s.failResponse_sends _
  | _ => exact ⟨by simp, rfl⟩

theorem finishStream_sends (s : ChatStream) :
    (∀ f ∈ s.finishStream.2, f.carries = false) ∧
      s.finishStream.1.core.sender = s.core.sender := by
  obtain ⟨hout, hcore⟩ := s.finishResponse_sends none
  obtain ⟨hout', hcore'⟩ := (s.finishResponse none).1.doneEvent_sends
  exact ⟨List.forall_mem_append.mpr ⟨hout, hout'⟩, hcore'.trans hcore⟩

theorem signal_sends (s : ChatStream) (sig : ChatSignal) :
    Sends s.core.sender (s.signal sig).2 (s.signal sig).1.core.sender := by
  cases sig with
  | stop =>
    obtain ⟨hout, hcore⟩ := s.finishStream_sends
    rw [signal, hcore]
    exact .others _ hout
  | event event =>
    obtain ⟨hout, hcore⟩ := (s.deltaStep event).1.closeStep_sends event
    rw [signal, processResponseEvent_eq, hcore]
    exact (s.deltaStep_spec event).sends.append (.others _ hout)

/-- The arguments of an item are for a call that is announced, or that the item names. -/
def NamesItem (s : ChatStream) (event : Value) (done : Bool) : Prop :=
  ∀ item, (event.get "item").bind Value.asObject = some item →
    (OrdMap.get "type" item).bind Value.asStr = some "function_call" →
    s.itemArguments event item done ≠ "" →
      (callAt s.toolCalls (s.eventIndex event "output_index")).announced = true ∨
        (itemName item).isSome = true

/-- The arguments of an event are for a call that is announced, or that the event names. -/
def NamesEvent (s : ChatStream) (event : Value) : Prop :=
  match responsesKind event with
  | .arguments => argumentsDelta event ≠ "" →
    (callAt s.toolCalls (s.eventIndex event "output_index")).announced = true
  | .item done => s.NamesItem event done
  | _ => True

/-- The arguments of a signal are for a call that is announced, or that the signal names. -/
def NamesArguments (s : ChatStream) : ChatSignal → Prop
  | .event event => s.NamesEvent event
  | .stop => True

theorem orderly_others {announced : ℕ → Bool} {fs : List ChatFrame}
    (h : ∀ f ∈ fs, f.carries = false) : Orderly announced fs :=
  orderly_of_none _ fun f hf => (ChatFrame.of_not_carries (h f hf)).2.2

theorem orderly_sendText (s : ChatStream) (announced : ℕ → Bool) (text : String) :
    Orderly announced (s.sendText text).2 :=
  orderly_of_none _ (by simp [sendText, chatChunk, ChatFrame.argumentsIndex])

theorem orderly_run_emitToolCall (s : ChatStream) (entries : List (ChatToolCall × ℕ)) :
    Orderly s.core.sender.announced (Mealy.run emitToolCall s entries).2 := by
  have hspec : ∀ s entry,
      Sends (core s).sender (emitToolCall s entry).2 (core (emitToolCall s entry).1).sender := by
    intro s entry
    rw [emitToolCall_eq]
    have hcall : (s.entryCall entry).announced = (callAt s.toolCalls entry.2).announced := rfl
    exact (s.store_spec entry.2 hcall _).sends
  have := orderly_run emitToolCall core (P := fun _ _ => True) (fun _ => True)
    (fun _ _ _ => trivial) hspec (fun s entry _ => by
      rw [emitToolCall_eq, store]
      exact iff_of_true ((orderly_storeCall _ _ _ (s.entryCall entry) rfl _).mpr
        fun _ => Or.inr rfl) trivial) (s := s) trivial entries
  exact this.mpr (Mealy.along_of_inv (fun _ => True) (fun _ _ _ => trivial)
    (fun _ _ _ => trivial) trivial entries)

theorem orderly_processTextDelta (s : ChatStream) (event : Value) :
    Orderly s.core.sender.announced (s.processTextDelta event).2 := by
  unfold processTextDelta
  split
  · split_ifs
    · exact orderly_nil _
    · exact orderly_sendText _ _ _
  · exact orderly_nil _

theorem orderly_processFunctionArgumentsDelta (s : ChatStream)
    (hnamed : NamedAnnounced s.toolCalls) (event : Value) :
    Orderly s.core.sender.announced (s.processFunctionArgumentsDelta event).2 ↔
      (argumentsDelta event ≠ "" →
        (callAt s.toolCalls (s.eventIndex event "output_index")).announced = true) := by
  rw [processFunctionArgumentsDelta_eq, store]
  refine (orderly_storeCall _ _ _ (s.argumentsCall event) rfl _).trans ?_
  have hcall := hnamed (s.eventIndex event "output_index")
  exact imp_congr_right fun _ => ⟨fun h => h.elim id hcall, Or.inl⟩

theorem orderly_processOutputItem (s : ChatStream) (hnamed : NamedAnnounced s.toolCalls)
    (event : Value) (done : Bool) :
    Orderly s.core.sender.announced (s.processOutputItem event done).2 ↔
      s.NamesItem event done := by
  unfold processOutputItem NamesItem
  cases (event.get "item").bind Value.asObject with
  | none => simp [orderly_nil]
  | some item =>
    simp only [Option.some.injEq, forall_eq']
    split
    case h_1 htype =>
      rw [processFunctionItem_eq, store]
      refine (orderly_storeCall _ _ _ (s.itemCall event item done) rfl _).trans ?_
      have hcall := hnamed (s.eventIndex event "output_index")
      simp only [htype, forall_const, itemCall, Option.isSome_or, Bool.or_eq_true]
      tauto
    case h_2 htype =>
      refine iff_of_true ?_ (by simp [htype])
      split_ifs
      · split
        · split_ifs
          · exact orderly_nil _
          · exact s.orderly_sendText _ _
        · exact orderly_nil _
      · exact orderly_nil _
    case h_3 hcall hmessage => exact iff_of_true (orderly_nil _) fun h => absurd h hcall

theorem orderly_emitCompletedOutputIfNeeded (s : ChatStream) (response : Option Value) :
    Orderly s.core.sender.announced (s.emitCompletedOutputIfNeeded response).2 := by
  unfold emitCompletedOutputIfNeeded
  split_ifs
  · exact orderly_nil _
  · cases response with
    | none => exact orderly_nil _
    | some response =>
      rw [orderly_append]
      split_ifs
      · exact ⟨orderly_nil _, by simpa using orderly_run_emitToolCall s _⟩
      · refine ⟨s.orderly_sendText _ _, ?_⟩
        have hannounced : (fun i => s.core.sender.announced i ||
            (s.sendText (responseOutputToChatMessage (response.get "output")).1).2.any
              (ChatFrame.announces i)) =
            (s.sendText
              (responseOutputToChatMessage (response.get "output")).1).1.core.sender.announced := by
          funext i
          rw [(s.sendText_spec _).sends.announced_eq]
        rw [hannounced]
        exact orderly_run_emitToolCall _ _

/-- **A signal is orderly if and only if its arguments are for a named call.** -/
theorem orderly_signal (s : ChatStream) (hnamed : NamedAnnounced s.toolCalls) (sig : ChatSignal) :
    Orderly s.core.sender.announced (s.signal sig).2 ↔ s.NamesArguments sig := by
  cases sig with
  | stop => exact iff_of_true (orderly_others s.finishStream_sends.1) trivial
  | event event =>
    obtain ⟨hclose, -⟩ := (s.deltaStep event).1.closeStep_sends event
    rw [signal, processResponseEvent_eq, orderly_append, and_iff_left (orderly_others hclose),
      NamesArguments]
    obtain ⟨responseId, createdAt, model, hmeta⟩ := s.setEventMetadata_spec event
    let t : ChatStream := { s with responseId, createdAt, model }
    unfold deltaStep NamesEvent
    rw [hmeta]
    cases responsesKind event with
    | text => exact iff_of_true (t.orderly_processTextDelta event) trivial
    | arguments => exact t.orderly_processFunctionArgumentsDelta hnamed event
    | item done => exact t.orderly_processOutputItem hnamed event done
    | completed => exact iff_of_true (t.orderly_emitCompletedOutputIfNeeded _) trivial
    | failed => exact iff_of_true (orderly_nil _) trivial
    | other => exact iff_of_true (orderly_nil _) trivial

end ChatStream

/-! ### The conversion from Anthropic events -/

namespace MessagesStream

theorem doneEvent_sends (s : MessagesStream) :
    (∀ f ∈ s.doneEvent.2, f.carries = false) ∧ s.doneEvent.1.core.sender = s.core.sender := by
  unfold doneEvent
  split_ifs
  · exact ⟨by simp, rfl⟩
  · exact ⟨by simp [ChatFrame.carries], rfl⟩

theorem finishResponse_sends (s : MessagesStream) (usage : UsageTotals) (count : ℕ) :
    (∀ f ∈ (s.finishResponse usage count).2, f.carries = false) ∧
      (s.finishResponse usage count).1.core.sender = s.core.sender := by
  unfold finishResponse
  split_ifs with h
  · exact ⟨by simp, rfl⟩
  · obtain ⟨hout, hcore⟩ := { s with completed := true }.doneEvent_sends
    refine ⟨List.forall_mem_cons.mpr ⟨rfl, List.forall_mem_append.mpr ⟨?_, hout⟩⟩, hcore⟩
    split_ifs <;> simp [ChatFrame.carries]

theorem closeStep_sends (s : MessagesStream) (usage : UsageTotals) (count : ℕ) (event : Value) :
    (∀ f ∈ (s.closeStep usage count event).2, f.carries = false) ∧
      (s.closeStep usage count event).1.core.sender = s.core.sender := by
  unfold closeStep
  cases messagesKind event with
  | stop => exact s.finishResponse_sends usage count
  | failed =>
    obtain ⟨hout, hcore⟩ := { s with completed := true }.doneEvent_sends
    exact ⟨List.forall_mem_cons.mpr ⟨rfl, hout⟩, hcore⟩
  | _ => exact ⟨by simp, rfl⟩

theorem finishStream_sends (s : MessagesStream) (usage : UsageTotals) (count : ℕ) :
    (∀ f ∈ (s.finishStream usage count).2, f.carries = false) ∧
      (s.finishStream usage count).1.core.sender = s.core.sender := by
  unfold finishStream
  split_ifs
  · obtain ⟨hout, hcore⟩ := s.finishResponse_sends usage count
    obtain ⟨hout', hcore'⟩ := (s.finishResponse usage count).1.doneEvent_sends
    exact ⟨List.forall_mem_append.mpr ⟨hout, hout'⟩, hcore'.trans hcore⟩
  · exact s.doneEvent_sends

theorem signal_sends (backendModel publicModel : Option String) (s : MessagesStream)
    (sig : MessagesSignal) :
    Sends s.core.sender (s.signal backendModel publicModel sig).2
      (s.signal backendModel publicModel sig).1.core.sender := by
  cases sig with
  | stop usage count =>
    obtain ⟨hout, hcore⟩ := s.finishStream_sends usage count
    rw [signal, hcore]
    exact .others _ hout
  | event usage count event =>
    obtain ⟨hout, hcore⟩ :=
      (s.deltaStep backendModel publicModel event).1.closeStep_sends usage count event
    rw [signal, processEvent_eq, hcore]
    exact (s.deltaStep_spec backendModel publicModel event).sends.append (.others _ hout)

/-- The input of a delta is for a call that is announced. -/
def NamesInput (s : MessagesStream) (event : Value) : Prop :=
  ∀ delta, (event.get "delta").bind Value.asObject = some delta →
    (OrdMap.get "type" delta).bind Value.asStr = some "input_json_delta" →
    inputFragment delta ≠ "" → (callAt s.toolCalls (s.eventIndex event)).announced = true

/-- The arguments of a signal are for a call that is announced. -/
def NamesArguments (s : MessagesStream) : MessagesSignal → Prop
  | .event _ _ event => messagesKind event = .blockDelta → s.NamesInput event
  | .stop _ _ => True

theorem orderly_processContentBlockDelta (s : MessagesStream)
    (hnamed : NamedAnnounced s.toolCalls) (event : Value) :
    Orderly s.core.sender.announced (s.processContentBlockDelta event).2 ↔
      s.NamesInput event := by
  unfold NamesInput
  cases hdelta : (event.get "delta").bind Value.asObject with
  | none =>
    rw [processContentBlockDelta, hdelta]
    simp [orderly_nil]
  | some delta =>
    simp only [Option.some.injEq, forall_eq']
    by_cases htype : (OrdMap.get "type" delta).bind Value.asStr = some "input_json_delta"
    · rw [s.processContentBlockDelta_input hdelta htype]
      simp only [htype, forall_const]
      split_ifs with h
      · simp [h, orderly_nil]
      · rw [store]
        refine (orderly_storeCall _ _ _ (s.fragmentCall event (inputFragment delta)) rfl
          _).trans (imp_congr_right fun _ => ?_)
        exact ⟨fun h => h.elim id (hnamed (s.eventIndex event)), Or.inl⟩
    · rw [processContentBlockDelta, hdelta]
      refine iff_of_true ?_ fun h => absurd h htype
      dsimp only
      split
      · split_ifs
        · exact orderly_nil _
        · exact orderly_of_none _ (by simp [chatChunk, ChatFrame.argumentsIndex])
      · contradiction
      · exact orderly_nil _

theorem orderly_processContentBlockStart (s : MessagesStream) (announced : ℕ → Bool)
    (event : Value) : Orderly announced (s.processContentBlockStart event).2 := by
  unfold processContentBlockStart
  dsimp only
  split
  · split
    · rw [announceToolCallIfReady_eq, store, storeCall, if_pos rfl, List.append_nil, putCall_out]
      refine orderly_of_none _ ?_
      split <;> simp [chatChunk, ChatFrame.argumentsIndex]
    · exact orderly_nil _
  · exact orderly_nil _

/-- **A signal is orderly if and only if its arguments are for a named call.** -/
theorem orderly_signal (backendModel publicModel : Option String) (s : MessagesStream)
    (hnamed : NamedAnnounced s.toolCalls) (sig : MessagesSignal) :
    Orderly s.core.sender.announced (s.signal backendModel publicModel sig).2 ↔
      s.NamesArguments sig := by
  cases sig with
  | stop usage count =>
    exact iff_of_true (ChatStream.orderly_others (s.finishStream_sends usage count).1) trivial
  | event usage count event =>
    obtain ⟨hclose, -⟩ :=
      (s.deltaStep backendModel publicModel event).1.closeStep_sends usage count event
    rw [signal, processEvent_eq, orderly_append,
      and_iff_left (ChatStream.orderly_others hclose), NamesArguments]
    obtain ⟨messageId, model, hmeta⟩ := s.setMetadata_spec backendModel publicModel event
    let t : MessagesStream := { s with messageId, model }
    unfold deltaStep
    rw [hmeta]
    cases messagesKind event with
    | blockStart =>
      refine iff_of_true (t.orderly_processContentBlockStart _ event) fun h => ?_
      cases h
    | blockDelta =>
      exact (t.orderly_processContentBlockDelta hnamed event).trans (by simp; rfl)
    | _ =>
      refine iff_of_true (orderly_nil _) fun h => ?_
      cases h

theorem closeStep_toolCalls (s : MessagesStream) (usage : UsageTotals) (count : ℕ)
    (event : Value) : (s.closeStep usage count event).1.toolCalls = s.toolCalls := by
  unfold closeStep
  cases messagesKind event with
  | stop =>
    unfold finishResponse doneEvent
    dsimp only
    split_ifs <;> rfl
  | failed =>
    unfold errorFrame doneEvent
    dsimp only
    split_ifs <;> rfl
  | _ => rfl

theorem finishStream_toolCalls (usage : UsageTotals) (count : ℕ) (s : MessagesStream) :
    (s.finishStream usage count).1.toolCalls = s.toolCalls := by
  unfold finishStream finishResponse doneEvent
  dsimp only
  split_ifs <;> rfl

theorem signal_named (backendModel publicModel : Option String) {s : MessagesStream}
    (h : NamedAnnounced s.toolCalls) (sig : MessagesSignal) :
    NamedAnnounced (s.signal backendModel publicModel sig).1.toolCalls := by
  cases sig with
  | stop usage count =>
    rw [signal, finishStream_toolCalls]
    exact h
  | event usage count event =>
    rw [signal, processEvent_eq, closeStep_toolCalls]
    exact (s.deltaStep_spec backendModel publicModel event).named h

end MessagesStream

/-! ### Whole streams -/

/-- What a client relies on, of the frames it is sent. -/
def ToolCallsAnnounced (fs : List ChatFrame) : Prop := AnnouncedBefore fs ∧ RoleFirst fs

theorem chatFrames_announced_iff (o : SseObserver) (emit : Bool) (fs : List SseFrame) :
    ToolCallsAnnounced (chatFrames o emit fs) ↔
      Mealy.Along ChatStream.signal ChatStream.NamesArguments { emitUsageToClient := emit }
        (chatSignals o fs) := by
  rw [ToolCallsAnnounced, chatFrames, announcedBefore_iff
    (sends_run ChatStream.core ChatStream.signal_sends { emitUsageToClient := emit } _)]
  exact orderly_run _ ChatStream.core (fun s => NamedAnnounced s.toolCalls)
    (fun s sig h => ChatStream.signal_named h sig) ChatStream.signal_sends
    (fun s sig h => s.orderly_signal h sig) (s := { emitUsageToClient := emit })
    namedAnnounced_nil _

theorem messagesFrames_announced_iff (o : SseObserver) (emit : Bool) (fs : List SseFrame) :
    ToolCallsAnnounced (messagesFrames o emit fs) ↔
      Mealy.Along (MessagesStream.signal o.backendModel o.publicModel)
        MessagesStream.NamesArguments { emitUsageToClient := emit } (messagesSignals o fs) := by
  rw [ToolCallsAnnounced, messagesFrames, announcedBefore_iff (sends_run MessagesStream.core
    (MessagesStream.signal_sends o.backendModel o.publicModel) { emitUsageToClient := emit } _)]
  exact orderly_run _ MessagesStream.core (fun s => NamedAnnounced s.toolCalls)
    (fun s sig h => MessagesStream.signal_named _ _ h sig)
    (MessagesStream.signal_sends o.backendModel o.publicModel)
    (fun s sig h => s.orderly_signal _ _ h sig) (s := { emitUsageToClient := emit })
    namedAnnounced_nil _

/-- **When tool calls are announced before their arguments**: in both conversions, for every
upstream stream in any chunks, if and only if arguments come only for a call that was named before
or is named by the same event. -/
theorem tool_calls_announced_iff (c : Codec) (backendModel publicModel : Option String)
    (emit : Bool) (chunks : List Bytes) :
    (SentFrames ToolCallsAnnounced
        ((SseStrategy.new .chatCompletionsViaResponses backendModel publicModel emit).runAll c
          chunks).2 ↔
      Mealy.Along ChatStream.signal ChatStream.NamesArguments { emitUsageToClient := emit }
        (chatSignals { backendModel, publicModel } (frames c chunks.flatten))) ∧
    (SentFrames ToolCallsAnnounced
        ((SseStrategy.new .chatCompletionsViaMessages backendModel publicModel emit).runAll c
          chunks).2 ↔
      Mealy.Along (MessagesStream.signal backendModel publicModel) MessagesStream.NamesArguments
        { emitUsageToClient := emit }
        (messagesSignals { backendModel, publicModel } (frames c chunks.flatten))) := by
  rw [runAll_chat, runAll_messages, sentFrames_map, sentFrames_map]
  exact ⟨chatFrames_announced_iff _ emit _, messagesFrames_announced_iff _ emit _⟩

/-- Arguments that come before any item with a name are sent without an announcement. -/
theorem tool_calls_not_announced :
    ¬SentFrames ToolCallsAnnounced
      ((SseStrategy.new .chatCompletionsViaResponses none none false).runAll reference
        [sseData reference (.obj [("type", .string "response.function_call_arguments.delta"),
          ("output_index", indexValue 0), ("delta", .string "x")])]).2 := by
  rw [runAll_chat, sentFrames_map]
  rintro ⟨-, hrole⟩
  have hfirst : ((chatFrames { backendModel := none, publicModel := none } false (frames reference
      [sseData reference (.obj [("type", .string "response.function_call_arguments.delta"),
        ("output_index", indexValue 0), ("delta", .string "x")])].flatten)).head?).map
          (fun f => (f.carries, f.role)) = some (true, false) := by
    decide +kernel
  obtain ⟨f, hf, hflags⟩ := Option.map_eq_some_iff.mp hfirst
  obtain ⟨hcarries, hnot⟩ := Prod.mk.inj hflags
  obtain ⟨fs, hfs⟩ := List.head?_eq_some_iff.mp hf
  have := (hrole [] f fs hfs).mpr ⟨hcarries, by simp⟩
  rw [hnot] at this
  exact absurd this (by decide)

end Onair
