import Onair.Chat.Failure
import Onair.Lib.Json.RoundTrip

/-!
# Error texts of the backend

Two upstream streams that differ only in the texts of their error objects, run side by side.

* `blankStrings`, `blankError`, `SameButErrorText`: the same but for error texts;
* `ChatStream.signal_congr`, `chatFrames_congr`: **the conversion from Responses events does not see
  the difference**;
* `maskError_run`, `errorText_run`: the conversion from Anthropic events sends the same frames but
  for their error texts, which are those of the upstream stream;
* `outBytes_eq_iff_of_maskError`: an error text shows in the bytes sent;
* `error_text_iff`: **the bytes sent are the same if and only if the error texts shown are**.
-/

namespace Onair

open Json Text

/-! ### The same but for error texts -/

mutual
/-- Every text in a value made empty. -/
def blankStrings : Value → Value
  | .string _ => .string ""
  | .array vs => .array (blankStringsList vs)
  | .object m => .object (blankStringsEntries m)
  | v => v
/-- `blankStrings` over the elements of an array. -/
def blankStringsList : List Value → List Value
  | [] => []
  | v :: vs => blankStrings v :: blankStringsList vs
/-- `blankStrings` over the fields of an object. -/
def blankStringsEntries : List (String × Value) → List (String × Value)
  | [] => []
  | (k, v) :: m => (k, blankStrings v) :: blankStringsEntries m
end

/-- A text made empty. -/
def blankText : Value → Value
  | .string _ => .string ""
  | v => v

/-- The fields of an object, changed by their keys. -/
def mapFields (f : String → Value → Value) : Value → Value
  | .object m => .object (m.map fun e => (e.1, f e.1 e.2))
  | v => v

/-- A response with the texts of its error object made empty. -/
def blankResponse : Value → Value :=
  mapFields fun k v => if k = "error" then blankStrings v else v

/-- An error event with the texts of its error objects made empty: those in `error`, those in the
`error` of its response, and its own `message`, `code` and `param`. -/
def blankError : Value → Value :=
  mapFields fun k v =>
    if k = "error" then blankStrings v
    else if k = "response" then blankResponse v
    else if k = "message" ∨ k = "code" ∨ k = "param" then blankText v
    else v

/-- Frames that are the same, or two error events that are the same but for their error texts. -/
inductive SameButErrorText (mode : RequestMode) : SseFrame → SseFrame → Prop
  | same (f : SseFrame) : SameButErrorText mode f f
  | error {v v' : Value} {leadingSpace leadingSpace' : Bool} {line line' : Bytes}
    (hv : mode.errorValue v = true) (hv' : mode.errorValue v' = true)
    (hblank : blankError v = blankError v') :
    SameButErrorText mode (.data v leadingSpace line) (.data v' leadingSpace' line')

theorem get_mapFields (f : String → Value → Value) (k : String) (v : Value) :
    (mapFields f v).get k = (v.get k).map (f k) := by
  cases v with
  | object m => exact OrdMap.get_map k f m
  | _ => rfl

theorem get_of_blankError {v v' : Value} (h : blankError v = blankError v') {k : String}
    (hk : k ∉ ["error", "response", "message", "code", "param"]) : v.get k = v'.get k := by
  have hget := congrArg (Value.get · k) h
  simp only [blankError, get_mapFields] at hget
  simp only [List.mem_cons, List.not_mem_nil, or_false, not_or] at hk
  simpa [hk] using hget

theorem response_of_blankError {v v' : Value} (h : blankError v = blankError v') :
    (v.get "response").map blankResponse = (v'.get "response").map blankResponse := by
  have hget := congrArg (Value.get · "response") h
  simpa [blankError, get_mapFields] using hget

theorem get_of_blankResponse {r r' : Value} (h : blankResponse r = blankResponse r') {k : String}
    (hk : k ≠ "error") : r.get k = r'.get k := by
  have hget := congrArg (Value.get · k) h
  simpa [blankResponse, get_mapFields, hk] using hget

/-- A top-level `message` that is not the same in two error events is a text in both. -/
theorem message_of_blankError {v v' : Value} (h : blankError v = blankError v') (k : String) :
    ((v.get "message").bind fun message => message.get k) =
      (v'.get "message").bind fun message => message.get k := by
  have hget := congrArg (Value.get · "message") h
  simp only [blankError, get_mapFields] at hget
  have hblank : ∀ w : Value, (blankText w).get k = w.get k := by
    intro w
    cases w <;> rfl
  have hbind : ∀ w : Option Value, (w.bind fun message => message.get k) =
      (w.map blankText).bind fun message => message.get k := by
    intro w
    cases w with
    | none => rfl
    | some w => simp [hblank]
  rw [hbind, hbind (v'.get "message")]
  exact congrArg (fun w : Option Value => w.bind fun message => message.get k) (by simpa using hget)

/-! ### The conversion from Responses events -/

namespace ChatStream

theorem setResponseMetadata_congr (s : ChatStream) {r r' : Value}
    (h : ∀ k ∈ ["id", "created_at", "created", "model"], r.get k = r'.get k) :
    s.setResponseMetadata r = s.setResponseMetadata r' := by
  simp only [List.forall_mem_cons, List.not_mem_nil, false_imp_iff, implies_true, and_true] at h
  simp only [setResponseMetadata, h]

theorem response_cases (o : SseObserver) {v v' : Value} (h : blankError v = blankError v') :
    (o.rewritten v).get "response" = none ∧ (o.rewritten v').get "response" = none ∨
      ∃ r r', (o.rewritten v).get "response" = some r ∧ (o.rewritten v').get "response" = some r' ∧
        ∀ k ∈ ["id", "created_at", "created", "model"], r.get k = r'.get k := by
  rw [o.get_rewritten (by decide) (by decide), o.get_rewritten (by decide) (by decide)]
  have hresponse := response_of_blankError h
  cases hv : v.get "response" with
  | none =>
    cases hv' : v'.get "response" with
    | none => exact Or.inl ⟨rfl, rfl⟩
    | some r' => simp [hv, hv'] at hresponse
  | some r =>
    cases hv' : v'.get "response" with
    | none => simp [hv, hv'] at hresponse
    | some r' =>
      rw [hv, hv', Option.map_some, Option.map_some] at hresponse
      refine Or.inr ⟨_, _, rfl, rfl, fun k hk => ?_⟩
      have hne : k ≠ "error" := by
        rintro rfl
        simp at hk
      rw [o.get_rewritten_eq, o.get_rewritten_eq,
        get_of_blankResponse (Option.some.inj hresponse) hne]

/-- **An error event is handled the same whatever its texts.** -/
theorem signal_congr (o : SseObserver) (s : ChatStream) {v v' : Value}
    (hv : responsesKind v = .failed) (hv' : responsesKind v' = .failed)
    (h : blankError v = blankError v') :
    s.signal (.event (o.rewritten v)) = s.signal (.event (o.rewritten v')) := by
  have hget : ∀ k ∉ ["error", "response", "message", "code", "param"],
      (o.rewritten v).get k = (o.rewritten v').get k := by
    intro k hk
    rw [o.get_rewritten_eq, o.get_rewritten_eq, get_of_blankError h hk]
  have hmeta : s.setEventMetadata (o.rewritten v) = s.setEventMetadata (o.rewritten v') := by
    unfold setEventMetadata
    rw [hget "response_id" (by decide), hget "id" (by decide), hget "created_at" (by decide),
      hget "created" (by decide), hget "model" (by decide)]
    obtain ⟨hr, hr'⟩ | ⟨r, r', hr, hr', hfields⟩ := response_cases o h
    · rw [hr, hr']
    · simp only [hr, hr', s.setResponseMetadata_congr hfields]
  have hfail : ∀ t : ChatStream, t.failResponse ((o.rewritten v).get "response") =
      t.failResponse ((o.rewritten v').get "response") := by
    intro t
    obtain ⟨hr, hr'⟩ | ⟨r, r', hr, hr', hfields⟩ := response_cases o h
    · rw [hr, hr']
    · rw [hr, hr', failResponse, failResponse]
      simp only [setResponseMetadata_congr _ hfields]
  rw [signal, signal, processResponseEvent_eq, processResponseEvent_eq, deltaStep, deltaStep,
    closeStep, closeStep, responsesKind_rewritten, responsesKind_rewritten, hv, hv', hmeta]
  simp only [hfail]

end ChatStream

/-- **Two Responses streams that differ in error texts only are answered by the same frames.** -/
theorem chatFrames_congr (o : SseObserver) (emit : Bool) {fs fs' : List SseFrame}
    (h : List.Forall₂ (SameButErrorText .chatCompletionsViaResponses) fs fs') :
    chatFrames o emit fs = chatFrames o emit fs' := by
  have hrun : ∀ s : ChatStream, Mealy.run ChatStream.signal s (fs.flatMap (frameSignals o)) =
      Mealy.run ChatStream.signal s (fs'.flatMap (frameSignals o)) := by
    induction h with
    | nil => exact fun s => rfl
    | cons hf _ ih =>
      intro s
      rw [List.flatMap_cons, List.flatMap_cons, Mealy.run_append, Mealy.run_append]
      cases hf with
      | same f => simp only [ih]
      | error hv hv' hblank =>
        simp only [RequestMode.errorValue, decide_eq_true_eq] at hv hv'
        simp only [frameSignals, Mealy.run_singleton, ChatStream.signal_congr o s hv hv' hblank,
          ih]
  rw [chatFrames, chatSignals, chatFrames, chatSignals, Mealy.run_append, Mealy.run_append, hrun]

/-! ### The conversion from Anthropic events -/

/-- The error text a client is shown for an error event of an Anthropic stream. -/
def shownMessage (event : Value) : String :=
  (((event.get "error").bind Value.asObject).bind fun error =>
    (OrdMap.get "message" error).bind Value.asStr).getD couldNotComplete

/-- The error texts of an Anthropic stream. -/
def shownMessages (fs : List SseFrame) : List String :=
  fs.filterMap fun
    | .data value _ _ => if messagesKind value = .failed then some (shownMessage value) else none
    | _ => none

/-- A frame without its error text. -/
def ChatFrame.maskError : ChatFrame → ChatFrame
  | .error _ => .error ""
  | f => f

/-- The error text of a frame. -/
def ChatFrame.errorText : ChatFrame → Option String
  | .error message => some message
  | _ => none

theorem ChatFrame.errorText_of_delta {f : ChatFrame} (h : f.isDelta = true) :
    f.errorText = none := by
  cases f <;> simp_all [isDelta, errorText]

namespace AnthropicMessagesToChatSseNormalizer

theorem exists_get_rewriteEvent_model (o : SseObserver) :
    ∃ g : Value → Value, ∀ event,
      (rewriteEvent o event).get "model" = (event.get "model").map g := by
  cases hb : o.backendModel with
  | none => exact ⟨fun v => v, fun event => by simp [rewriteEvent, hb]⟩
  | some backend =>
    cases hp : o.publicModel with
    | none => exact ⟨fun v => v, fun event => by simp [rewriteEvent, hb, hp]⟩
    | some pub =>
      refine ⟨fun v => if v.asStr = some backend then .string pub else v, fun event => ?_⟩
      cases event with
      | object m =>
        simp only [rewriteEvent, hb, hp, rewriteTopModel, Value.get_object]
        cases hm : OrdMap.get "model" m with
        | none => simp [hm]
        | some v =>
          by_cases hv : v.asStr = some backend
          · simp [hv, OrdMap.get_insert_self]
          · simp [hv, hm]
      | _ => simp [rewriteEvent, hb, hp, Value.get]

/-- The parts of two error events that are read for more than their error text agree. -/
theorem rewriteEvent_congr (o : SseObserver) {v v' : Value} (h : blankError v = blankError v') :
    (∀ k ∉ ["error", "response", "message", "code", "param"],
      (rewriteEvent o v).get k = (rewriteEvent o v').get k) ∧
    ∀ k, (((rewriteEvent o v).get "message").bind fun message => message.get k) =
      ((rewriteEvent o v').get "message").bind fun message => message.get k := by
  constructor
  · intro k hk
    by_cases hmodel : k = "model"
    · obtain ⟨g, hg⟩ := exists_get_rewriteEvent_model o
      subst hmodel
      rw [hg, hg, get_of_blankError h hk]
    · rw [get_rewriteEvent o v hmodel, get_rewriteEvent o v' hmodel, get_of_blankError h hk]
  · intro k
    rw [get_rewriteEvent o v (by decide), get_rewriteEvent o v' (by decide),
      message_of_blankError h k]

end AnthropicMessagesToChatSseNormalizer

namespace MessagesStream

variable (backendModel publicModel : Option String)

theorem setMetadata_congr (s : MessagesStream) {event event' : Value}
    (hmodel : event.get "model" = event'.get "model")
    (hmessage : ∀ k, ((event.get "message").bind fun message => message.get k) =
      (event'.get "message").bind fun message => message.get k) :
    s.setMetadata backendModel publicModel event =
      s.setMetadata backendModel publicModel event' := by
  have hid := hmessage "id"
  have hname := hmessage "model"
  unfold setMetadata
  rw [hmodel]
  cases hm : event.get "message" with
  | none =>
    cases hm' : event'.get "message" with
    | none => rfl
    | some m' =>
      rw [hm, hm'] at hid hname
      simp only [Option.bind_none, Option.bind_some] at hid hname
      simp only [← hid, ← hname, Option.bind_none, Option.map_none, Option.or_none]
  | some m =>
    cases hm' : event'.get "message" with
    | none =>
      rw [hm, hm'] at hid hname
      simp only [Option.bind_none, Option.bind_some] at hid hname
      simp only [hid, hname, Option.bind_none, Option.map_none, Option.or_none]
    | some m' =>
      rw [hm, hm'] at hid hname
      simp only [Option.bind_some] at hid hname
      simp only [hid, hname]

/-- An error event sends its text, and whatever comes with it. -/
theorem signal_failed_eq (s : MessagesStream) (usage : UsageTotals) (count : ℕ) {event : Value}
    (h : messagesKind event = .failed) :
    s.signal backendModel publicModel (.event usage count event) =
      let r := { s.setMetadata backendModel publicModel event with completed := true }.doneEvent
      (r.1, .error (shownMessage event) :: r.2) := by
  rw [signal, processEvent_eq]
  simp only [deltaStep, closeStep, h]
  rfl

theorem errorText_doneEvent (s : MessagesStream) :
    s.doneEvent.2.filterMap ChatFrame.errorText = [] := by
  unfold doneEvent
  split_ifs <;> rfl

theorem errorText_finishResponse (usage : UsageTotals) (count : ℕ) (s : MessagesStream) :
    (s.finishResponse usage count).2.filterMap ChatFrame.errorText = [] := by
  unfold finishResponse
  split_ifs
  · rfl
  · dsimp only
    rw [List.filterMap_append, errorText_doneEvent, List.append_nil]
    split_ifs <;> rfl

theorem errorText_signal (s : MessagesStream) (sig : MessagesSignal)
    (h : ∀ usage count event, sig = .event usage count event → messagesKind event ≠ .failed) :
    (s.signal backendModel publicModel sig).2.filterMap ChatFrame.errorText = [] := by
  cases sig with
  | stop usage count =>
    rw [signal, finishStream]
    simp only [List.filterMap_append, errorText_doneEvent, List.append_nil]
    split_ifs
    · exact errorText_finishResponse _ _ _
    · rfl
  | event usage count event =>
    have hspec := s.deltaStep_spec backendModel publicModel event
    have hdeltas : (s.deltaStep backendModel publicModel event).2.filterMap ChatFrame.errorText =
        [] := by
      rw [List.filterMap_eq_nil_iff]
      exact fun f hf => ChatFrame.errorText_of_delta (hspec.deltas f hf)
    rw [signal, processEvent_eq]
    simp only [List.filterMap_append, hdeltas, List.nil_append, closeStep]
    cases hkind : messagesKind event with
    | stop => exact errorText_finishResponse _ _ _
    | failed => exact absurd hkind (h _ _ _ rfl)
    | _ => rfl

end MessagesStream

/-- **The error texts sent are those of the upstream stream.** -/
theorem errorText_run (backendModel publicModel : Option String) (o : SseObserver)
    (fs : List SseFrame) (s : MessagesStream) :
    (Mealy.run (MessagesStream.signal backendModel publicModel) s
      (messagesSignals o fs)).2.filterMap ChatFrame.errorText = shownMessages fs := by
  induction fs generalizing o s with
  | nil =>
    rw [messagesSignals, Mealy.run_singleton]
    exact s.errorText_signal _ _ _ (by simp)
  | cons f fs ih =>
    rw [messagesSignals, Mealy.run_append, List.filterMap_append, ih]
    cases f with
    | data value leadingSpace line =>
      have hkind := messagesKind_rewriteEvent o value
      have hcons : shownMessages (.data value leadingSpace line :: fs) =
          (if messagesKind value = .failed then [shownMessage value] else []) ++
            shownMessages fs := by
        by_cases hfailed : messagesKind value = .failed <;> simp [shownMessages, hfailed]
      rw [messagesFrameSignals, Mealy.run_singleton, hcons]
      by_cases hfailed : messagesKind value = .failed
      · have hshown : shownMessage (AnthropicMessagesToChatSseNormalizer.rewriteEvent o value) =
            shownMessage value := by
          rw [shownMessage, get_rewriteEvent o value (by decide), shownMessage]
        rw [MessagesStream.signal_failed_eq _ _ _ _ _ (hkind.trans hfailed), if_pos hfailed]
        simp [ChatFrame.errorText, MessagesStream.errorText_doneEvent, hshown]
      · rw [MessagesStream.errorText_signal, if_neg hfailed]
        rintro usage count event ⟨⟩
        rwa [hkind]
    | done line =>
      rw [messagesFrameSignals, Mealy.run_singleton,
        MessagesStream.errorText_signal _ _ _ _ (by simp)]
      rfl
    | _ => rfl

/-- **Two Anthropic streams that differ in error texts only** are answered by frames that differ in
error texts only. -/
theorem maskError_run (backendModel publicModel : Option String) (o : SseObserver)
    {fs fs' : List SseFrame}
    (h : List.Forall₂ (SameButErrorText .chatCompletionsViaMessages) fs fs') (s : MessagesStream) :
    (Mealy.run (MessagesStream.signal backendModel publicModel) s
        (messagesSignals o fs)).2.map ChatFrame.maskError =
      (Mealy.run (MessagesStream.signal backendModel publicModel) s
        (messagesSignals o fs')).2.map ChatFrame.maskError := by
  induction h generalizing o s with
  | nil => rfl
  | cons hf _ ih =>
    rw [messagesSignals, messagesSignals, Mealy.run_append, Mealy.run_append, List.map_append,
      List.map_append]
    cases hf with
    | same f => rw [ih]
    | error hv hv' hblank =>
      rename_i v v' leadingSpace leadingSpace' line line'
      simp only [RequestMode.errorValue, decide_eq_true_eq] at hv hv'
      obtain ⟨hget, hmessage⟩ :=
        AnthropicMessagesToChatSseNormalizer.rewriteEvent_congr o hblank
      have husage : anthropicEventUsage (AnthropicMessagesToChatSseNormalizer.rewriteEvent o v) =
          anthropicEventUsage (AnthropicMessagesToChatSseNormalizer.rewriteEvent o v') := by
        rw [anthropicEventUsage, hget "usage" (by decide), hmessage, hget "delta" (by decide),
          anthropicEventUsage]
      have hobserver : o.observeMessages (.data v leadingSpace line) =
          o.observeMessages (.data v' leadingSpace' line') := by
        simp only [SseObserver.observeMessages, SseObserver.observeUsage, husage]
      simp only [messagesFrameSignals, Mealy.run_singleton, hobserver]
      rw [MessagesStream.signal_failed_eq _ _ _ _ _ ((messagesKind_rewriteEvent o v).trans hv),
        MessagesStream.signal_failed_eq _ _ _ _ _ ((messagesKind_rewriteEvent o v').trans hv'),
        s.setMetadata_congr _ _ (hget "model" (by decide)) hmessage]
      simp only [ih]
      rfl

/-! ### Bytes -/

theorem ChatFrame.eq_or_of_maskError {f f' : ChatFrame} (h : f.maskError = f'.maskError) :
    f = f' ∨ ∃ m m', f = .error m ∧ f' = .error m' := by
  cases f <;> cases f' <;> simp_all [maskError]

/-- Frames that differ in error texts only are the same if and only if these are. -/
theorem eq_iff_of_maskError {fs fs' : List ChatFrame}
    (h : fs.map ChatFrame.maskError = fs'.map ChatFrame.maskError) :
    fs = fs' ↔ fs.filterMap ChatFrame.errorText = fs'.filterMap ChatFrame.errorText := by
  refine ⟨fun heq => by rw [heq], fun htexts => ?_⟩
  induction fs generalizing fs' with
  | nil => exact (List.map_eq_nil_iff.mp h.symm).symm
  | cons f fs ih =>
    cases fs' with
    | nil => simp at h
    | cons f' fs' =>
      simp only [List.map_cons, List.cons.injEq] at h
      obtain ⟨hhead, htail⟩ := h
      obtain rfl | ⟨m, m', rfl, rfl⟩ := ChatFrame.eq_or_of_maskError hhead
      · rw [List.filterMap_cons, List.filterMap_cons] at htexts
        cases hf : f.errorText with
        | none => rw [ih htail (by simpa [hf] using htexts)]
        | some message => rw [ih htail (by simpa [hf] using htexts)]
      · simp only [ChatFrame.errorText, List.filterMap_cons, List.cons.injEq] at htexts
        rw [htexts.1, ih htail htexts.2]

theorem error_bytes_inj {c : Codec} (hc : c.Lawful) {m m' : String} {b b' : Bytes}
    (h : (SseOut.chat (.error m)).bytes c ++ b = (SseOut.chat (.error m')).bytes c ++ b') :
    m = m' ∧ b = b' := by
  have hbreak : asBytes "\n\n" = 10 :: asBytes "\n" := by decide
  simp only [SseOut.bytes, ChatFrame.data, sseData, hbreak, List.append_assoc, List.cons_append,
    List.append_cancel_left_eq] at h
  have hline := congrArg (fun b => (Lines.drainLines b).1.head?) h
  simp only [Lines.drainLines_line (hc.print_no_break _).1, List.head?_cons, Option.some.injEq,
    List.append_cancel_right_eq] at hline
  refine ⟨?_, ?_⟩
  · have hfits := fun m : String => ChatFrame.fits_data (f := .error m) rfl
    have hblur := hc.print_inj (hfits m).1 (hfits m').1 ((hfits m).2.trans (by decide)) hline
    have hmessage := congrArg (fun v : Value => (v.get "error").bind fun e => e.get "message") hblur
    simpa [Value.get_blur, Value.get_obj] using hmessage
  · rw [hline, List.append_cancel_left_eq] at h
    simpa using h

/-- **Frames that differ in error texts only are sent in the same bytes if and only if they are the
same.** -/
theorem outBytes_eq_iff_of_maskError {c : Codec} (hc : c.Lawful) {fs fs' : List ChatFrame}
    (h : fs.map ChatFrame.maskError = fs'.map ChatFrame.maskError) :
    outBytes c (fs.map .chat) = outBytes c (fs'.map .chat) ↔ fs = fs' := by
  refine ⟨fun heq => ?_, fun heq => by rw [heq]⟩
  induction fs generalizing fs' with
  | nil => exact (List.map_eq_nil_iff.mp h.symm).symm
  | cons f fs ih =>
    cases fs' with
    | nil => simp at h
    | cons f' fs' =>
      simp only [List.map_cons, List.cons.injEq, outBytes_cons] at h heq
      obtain ⟨hhead, htail⟩ := h
      obtain rfl | ⟨m, m', rfl, rfl⟩ := ChatFrame.eq_or_of_maskError hhead
      · rw [List.append_cancel_left_eq] at heq
        rw [ih htail heq]
      · obtain ⟨hm, hrest⟩ := error_bytes_inj hc heq
        rw [hm, ih htail hrest]

/-! ### Both conversions -/

/-- **When the error texts of the backend stay hidden**: for both conversions into chat chunks, two
upstream streams that are the same but for the texts of their error objects, in any chunks, are
answered with the same bytes if and only if the conversion is that of Responses events, or the
`message` of each Anthropic error event is the same in both. -/
theorem error_text_iff {c : Codec} (hc : c.Lawful) (mode : RequestMode)
    (hmode : mode = .chatCompletionsViaResponses ∨ mode = .chatCompletionsViaMessages)
    (backendModel publicModel : Option String) (emit : Bool) (chunks chunks' : List Bytes)
    (h : List.Forall₂ (SameButErrorText mode) (frames c chunks.flatten)
      (frames c chunks'.flatten)) :
    outBytes c ((SseStrategy.new mode backendModel publicModel emit).runAll c chunks).2 =
        outBytes c ((SseStrategy.new mode backendModel publicModel emit).runAll c chunks').2 ↔
      (mode = .chatCompletionsViaMessages → shownMessages (frames c chunks.flatten) =
        shownMessages (frames c chunks'.flatten)) := by
  rcases hmode with rfl | rfl
  · refine iff_of_true ?_ (by simp)
    rw [runAll_chat, runAll_chat, chatFrames_congr _ _ h]
  · have hmask := maskError_run backendModel publicModel { backendModel, publicModel } h
      { emitUsageToClient := emit }
    rw [runAll_messages, runAll_messages, messagesFrames, messagesFrames,
      outBytes_eq_iff_of_maskError hc hmask, eq_iff_of_maskError hmask, errorText_run,
      errorText_run]
    simp

/-- The text of an error event of a Responses stream does not show. -/
theorem error_text_hidden :
    let event := fun message => Value.obj [("type", .string "error"), ("message", .string message)]
    let b := fun message => sseData reference (event message)
    List.Forall₂ (SameButErrorText .chatCompletionsViaResponses)
        (frames reference [b "secret"].flatten) (frames reference [b "other"].flatten) ∧
      (outBytes reference ((SseStrategy.new .chatCompletionsViaResponses none none false).runAll
          reference [b "secret"]).2 =
        outBytes reference ((SseStrategy.new .chatCompletionsViaResponses none none false).runAll
          reference [b "other"]).2 ↔
      (RequestMode.chatCompletionsViaResponses = .chatCompletionsViaMessages →
        shownMessages (frames reference [b "secret"].flatten) =
          shownMessages (frames reference [b "other"].flatten))) := by
  intro event b
  have hframes : ∀ message ∈ ["secret", "other"], frames reference [b message].flatten =
      [.data (event message) true (asBytes "data: " ++ reference.toVec (event message) ++ [10]),
        .passThrough [10]] := by
    simp only [b, reference_eq_direct]
    decide +kernel
  have hsame : List.Forall₂ (SameButErrorText .chatCompletionsViaResponses)
      (frames reference [b "secret"].flatten) (frames reference [b "other"].flatten) := by
    rw [hframes _ (by simp), hframes _ (by simp)]
    exact .cons (.error (by decide +kernel) (by decide +kernel) (by decide +kernel))
      (.cons (.same _) .nil)
  exact ⟨hsame, error_text_iff reference_lawful _ (Or.inl rfl) none none false _ _ hsame⟩

/-- The text of an error event of an Anthropic stream shows. -/
theorem error_text_shown :
    let event := fun message => Value.obj [("type", .string "error"),
      ("error", .obj [("message", .string message)])]
    let b := fun message => sseData reference (event message)
    List.Forall₂ (SameButErrorText .chatCompletionsViaMessages)
        (frames reference [b "secret"].flatten) (frames reference [b "other"].flatten) ∧
      outBytes reference ((SseStrategy.new .chatCompletionsViaMessages none none false).runAll
          reference [b "secret"]).2 ≠
        outBytes reference ((SseStrategy.new .chatCompletionsViaMessages none none false).runAll
          reference [b "other"]).2 := by
  rw [reference_eq_direct]
  intro event b
  have hframes : ∀ message ∈ ["secret", "other"], frames direct [b message].flatten =
      [.data (event message) true (asBytes "data: " ++ direct.toVec (event message) ++ [10]),
        .passThrough [10]] := by decide +kernel
  refine ⟨?_, by decide +kernel⟩
  rw [hframes _ (by simp), hframes _ (by simp)]
  exact .cons (.error (by decide +kernel) (by decide +kernel) (by decide +kernel))
    (.cons (.same _) .nil)

end Onair
