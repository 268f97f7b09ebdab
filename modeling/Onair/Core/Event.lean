import Onair.Core.Usage

/-!
# What the normalizers emit

The source writes its output as bytes; here an output is a list of `SseOut`, and `SseOut.bytes` is
what the source writes for each.

* `ResponsesEvent`: the events of the Responses API, with `eventType` and `data` their two lines;
* `ChatFrame`: the chunks, errors and the end marker of a chat completion stream;
* `ResponsesEvent.fits_data`, `ChatFrame.fits_data`: their JSON is well-formed and shallow;
* `SseOut`: an upstream line sent on, a rewritten `data:` line, or one of the above.
-/

namespace Onair

open Json Text

/-! ### Responses events -/

/-- The status of a response or of an output item. -/
inductive ItemStatus where
  | inProgress
  | completed
  deriving DecidableEq, Repr

/-- The status as it is sent. -/
def ItemStatus.text : ItemStatus → String
  | .inProgress => "in_progress"
  | .completed => "completed"

/-- An output item of a response. -/
inductive OutputItem where
  | message (id : String) (status : ItemStatus) (content : List String)
  | functionCall (status : ItemStatus) (callId name arguments : String)
  deriving DecidableEq, Repr

/-- The part of a message item with the given text. -/
def outputTextPart (text : String) : Value :=
  .obj [("type", .string "output_text"), ("text", .string text), ("annotations", .array []),
    ("logprobs", .array [])]

namespace OutputItem

/-- The item's id; a function call's is its call id. -/
def id : OutputItem → String
  | .message id _ _ => id
  | .functionCall _ callId _ _ => callId

/-- The item as it is sent. -/
def toValue : OutputItem → Value
  | .message id status content =>
    .obj [("id", .string id), ("type", .string "message"), ("status", .string status.text),
      ("role", .string "assistant"), ("content", .array (content.map outputTextPart))]
  | .functionCall status callId name arguments =>
    .obj [("id", .string callId), ("type", .string "function_call"),
      ("status", .string status.text), ("call_id", .string callId), ("name", .string name),
      ("arguments", .string arguments)]

end OutputItem

/-- A response object. -/
structure ResponseObject where
  id : String
  createdAt : UInt64
  status : ItemStatus
  model : String
  output : List OutputItem
  outputText : String
  usage : UsageTotals
  deriving DecidableEq, Repr

/-- The total a response object reports. -/
def UsageTotals.reportedTotal (usage : UsageTotals) : UInt64 :=
  if usage.total > 0 then usage.total else usage.input + usage.output

/-- The response object as it is sent. -/
def ResponseObject.toValue (r : ResponseObject) : Value :=
  .obj [("id", .string r.id), ("object", .string "response"), ("created_at", .u64 r.createdAt),
    ("status", .string r.status.text), ("model", .string r.model),
    ("output", .array (r.output.map OutputItem.toValue)), ("output_text", .string r.outputText),
    ("usage", .obj [("input_tokens", .u64 r.usage.input),
      ("input_tokens_details", .obj [("cached_tokens", .u64 r.usage.cachedInput)]),
      ("output_tokens", .u64 r.usage.output),
      ("output_tokens_details", .obj [("reasoning_tokens", .u64 r.usage.reasoningOutput)]),
      ("total_tokens", .u64 r.usage.reportedTotal)])]

/-- An index as a JSON number. -/
def indexValue (index : ℕ) : Value := .u64 (UInt64.ofNat index)

/-- An event of the Responses API. The events about text are all at output index `0`. -/
inductive ResponsesEvent where
  | created (response : ResponseObject)
  | inProgress (response : ResponseObject)
  | outputItemAdded (outputIndex : ℕ) (item : OutputItem)
  | contentPartAdded (itemId : String)
  | outputTextDelta (itemId delta : String)
  | outputTextDone (itemId text : String)
  | contentPartDone (itemId text : String)
  | outputItemDone (outputIndex : ℕ) (item : OutputItem)
  | functionCallArgumentsDelta (callId : String) (outputIndex : ℕ) (delta : String)
  | functionCallArgumentsDone (callId : String) (outputIndex : ℕ) (arguments : String)
  | completed (response : ResponseObject)
  deriving DecidableEq, Repr

namespace ResponsesEvent

/-- The name of the event. -/
def eventType : ResponsesEvent → String
  | .created _ => "response.created"
  | .inProgress _ => "response.in_progress"
  | .outputItemAdded _ _ => "response.output_item.added"
  | .contentPartAdded _ => "response.content_part.added"
  | .outputTextDelta _ _ => "response.output_text.delta"
  | .outputTextDone _ _ => "response.output_text.done"
  | .contentPartDone _ _ => "response.content_part.done"
  | .outputItemDone _ _ => "response.output_item.done"
  | .functionCallArgumentsDelta _ _ _ => "response.function_call_arguments.delta"
  | .functionCallArgumentsDone _ _ _ => "response.function_call_arguments.done"
  | .completed _ => "response.completed"

/-- The fields of the event beside `type`. -/
def fields : ResponsesEvent → List (String × Value)
  | .created r | .inProgress r | .completed r => [("response", r.toValue)]
  | .outputItemAdded i item | .outputItemDone i item =>
    [("output_index", indexValue i), ("item", item.toValue)]
  | .contentPartAdded id =>
    [("item_id", .string id), ("output_index", indexValue 0), ("content_index", indexValue 0),
      ("part", .obj [("type", .string "output_text"), ("text", .string ""),
        ("annotations", .array [])])]
  | .outputTextDelta id delta =>
    [("item_id", .string id), ("output_index", indexValue 0), ("content_index", indexValue 0),
      ("delta", .string delta)]
  | .outputTextDone id text =>
    [("item_id", .string id), ("output_index", indexValue 0), ("content_index", indexValue 0),
      ("text", .string text)]
  | .contentPartDone id text =>
    [("item_id", .string id), ("output_index", indexValue 0), ("content_index", indexValue 0),
      ("part", outputTextPart text)]
  | .functionCallArgumentsDelta id i delta =>
    [("item_id", .string id), ("call_id", .string id), ("output_index", indexValue i),
      ("delta", .string delta)]
  | .functionCallArgumentsDone id i arguments =>
    [("item_id", .string id), ("call_id", .string id), ("output_index", indexValue i),
      ("arguments", .string arguments)]

/-- The JSON of the event. -/
def data (e : ResponsesEvent) : Value := .obj (("type", .string e.eventType) :: e.fields)

end ResponsesEvent

/-! ### Chat completion frames -/

/-- Why a chat completion ended. -/
inductive FinishReason where
  | stop
  | length
  | toolCalls
  deriving DecidableEq, Repr

/-- The reason as it is sent. -/
def FinishReason.text : FinishReason → String
  | .stop => "stop"
  | .length => "length"
  | .toolCalls => "tool_calls"

/-- The delta of a chat chunk. `role` says whether the chunk also carries `role: assistant`. -/
inductive ChatDelta where
  | empty
  | content (role : Bool) (text : String)
  | announce (role : Bool) (index : ℕ) (callId name : String)
  | arguments (index : ℕ) (fragment : String)
  deriving DecidableEq, Repr

/-- The entry `role`, if it is sent. -/
def roleEntry (role : Bool) : List (String × Value) :=
  if role then [("role", .string "assistant")] else []

/-- The delta as it is sent. -/
def ChatDelta.toValue : ChatDelta → Value
  | .empty => .obj []
  | .content role text => .obj (roleEntry role ++ [("content", .string text)])
  | .announce role index callId name =>
    .obj (roleEntry role ++ [("tool_calls", .array [.obj [("index", indexValue index),
      ("id", .string callId), ("type", .string "function"),
      ("function", .obj [("name", .string name), ("arguments", .string "")])]])])
  | .arguments index fragment =>
    .obj [("tool_calls", .array [.obj [("index", indexValue index),
      ("function", .obj [("arguments", .string fragment)])]])]

/-- The usage of a usage chunk, with or without the cached and reasoning counts. -/
inductive ChatUsage where
  | detailed (fields : UsageFields)
  | plain (prompt completion total : UInt64)
  deriving DecidableEq

/-- The usage as it is sent. -/
def ChatUsage.toValue : ChatUsage → Value
  | .detailed fields =>
    .obj [("prompt_tokens", .u64 fields.input),
      ("prompt_tokens_details", .obj [("cached_tokens", .u64 fields.cached)]),
      ("completion_tokens", .u64 fields.output),
      ("completion_tokens_details", .obj [("reasoning_tokens", .u64 fields.reasoning)]),
      ("total_tokens", .u64 fields.total)]
  | .plain prompt completion total =>
    .obj [("prompt_tokens", .u64 prompt), ("completion_tokens", .u64 completion),
      ("total_tokens", .u64 total)]

/-- What every chunk of one stream begins with. -/
structure ChunkHead where
  id : String
  created : UInt64
  model : String
  deriving DecidableEq, Repr

/-- A frame of a chat completion stream. `usageNull` says whether a chunk carries `usage: null`. -/
inductive ChatFrame where
  | chunk (head : ChunkHead) (delta : ChatDelta) (finishReason : Option FinishReason)
    (usageNull : Bool)
  | usage (head : ChunkHead) (counts : ChatUsage)
  | error (message : String)
  | done
  deriving DecidableEq

/-- The entries every chunk begins with. -/
def ChunkHead.entries (h : ChunkHead) : List (String × Value) :=
  [("id", .string h.id), ("object", .string "chat.completion.chunk"), ("created", .u64 h.created),
    ("model", .string h.model)]

/-- The JSON of a frame; the end marker has none. -/
def ChatFrame.data : ChatFrame → Option Value
  | .chunk head delta finishReason usageNull =>
    some (.obj (head.entries ++ [("choices", .array [.obj [("index", indexValue 0),
      ("delta", delta.toValue),
      ("finish_reason", match finishReason with
        | some reason => .string reason.text
        | none => .null)]])] ++ (if usageNull then [("usage", .null)] else [])))
  | .usage head counts =>
    some (.obj (head.entries ++ [("choices", .array []), ("usage", counts.toValue)]))
  | .error message =>
    some (.obj [("error", .obj [("message", .string message), ("type", .string "server_error"),
      ("param", .null), ("code", .string "upstream_error")])])
  | .done => none

/-! ### The depth of what is sent -/

theorem OutputItem.fits_toValue (item : OutputItem) : item.toValue.Fits 4 := by
  have hpart : ∀ text, (outputTextPart text).Fits 2 := by
    intro text
    refine Value.fits_obj ?_
    simp
  cases item with
  | message id status content =>
    refine Value.fits_obj ?_
    simp [hpart]
  | functionCall status callId name arguments =>
    refine Value.fits_obj ?_
    simp

theorem ResponseObject.fits_toValue (r : ResponseObject) : r.toValue.Fits 6 := by
  have hdetails : ∀ k n, (Value.obj [(k, .u64 n)]).Fits 4 := by
    intro k n
    refine Value.fits_obj ?_
    simp
  refine Value.fits_obj ?_
  simp only [List.forall_mem_cons, List.not_mem_nil, false_imp_iff, implies_true, and_true,
    Value.fits_string, Value.fits_u64, true_and, Value.fits_array, List.forall_mem_map]
  refine ⟨fun item _ => item.fits_toValue, Value.fits_obj ?_⟩
  simp [hdetails]

/-- **The JSON of an event is well-formed and shallow.** -/
theorem ResponsesEvent.fits_data (e : ResponsesEvent) : e.data.Fits 7 := by
  have hitem : ∀ item : OutputItem, item.toValue.Fits 6 :=
    fun item => item.fits_toValue.mono (by decide)
  have hempty : (Value.obj [("type", .string "output_text"), ("text", .string ""),
      ("annotations", .array [])] : Value).Fits 6 := by
    refine Value.fits_obj ?_
    simp
  have hpart : ∀ text, (outputTextPart text).Fits 6 := by
    intro text
    refine Value.fits_obj ?_
    simp
  refine Value.fits_obj ?_
  cases e <;> simp [fields, indexValue, ResponseObject.fits_toValue, hitem, hempty, hpart]

/-- **The JSON of a chat frame is well-formed and shallow.** -/
theorem ChatFrame.fits_data {f : ChatFrame} {v : Value} (h : f.data = some v) : v.Fits 7 := by
  have hdelta : ∀ delta : ChatDelta, delta.toValue.Fits 4 := by
    intro delta
    have hrole : ∀ role, ∀ e ∈ roleEntry role, e.2.Fits 3 := by
      intro role e he
      unfold roleEntry at he
      split_ifs at he <;> simp_all
    have hfunction : ∀ l : List (String × Value), (∀ e ∈ l, e.2.Fits 0) → (Value.obj l).Fits 1 :=
      fun l hl => Value.fits_obj hl
    cases delta with
    | empty => exact Value.fits_obj (by simp)
    | content role text =>
      refine Value.fits_obj (List.forall_mem_append.mpr ⟨hrole role, by simp⟩)
    | announce role index callId name =>
      refine Value.fits_obj (List.forall_mem_append.mpr ⟨hrole role, ?_⟩)
      simp only [List.mem_singleton, forall_eq, Value.fits_array]
      refine Value.fits_obj ?_
      simp [indexValue, hfunction]
    | arguments index fragment =>
      refine Value.fits_obj ?_
      simp only [List.mem_singleton, forall_eq, Value.fits_array]
      refine Value.fits_obj ?_
      simp [indexValue, hfunction]
  cases f with
  | chunk head delta finishReason usageNull =>
    obtain rfl := Option.some.inj h
    have hchoice : ∀ reason : Value, reason.Fits 4 → (Value.obj [("index", indexValue 0),
        ("delta", delta.toValue), ("finish_reason", reason)]).Fits 5 := by
      intro reason hreason
      refine Value.fits_obj ?_
      simp [indexValue, hdelta, hreason]
    refine Value.fits_obj ?_
    cases finishReason <;> cases usageNull <;> simp [ChunkHead.entries, hchoice]
  | usage head counts =>
    obtain rfl := Option.some.inj h
    have hcounts : counts.toValue.Fits 6 := by
      cases counts with
      | detailed fields =>
        have hdetails : ∀ k n, (Value.obj [(k, .u64 n)]).Fits 5 := by
          intro k n
          refine Value.fits_obj ?_
          simp
        refine Value.fits_obj ?_
        simp [hdetails]
      | plain prompt completion total =>
        refine Value.fits_obj ?_
        simp
    refine Value.fits_obj ?_
    simp [ChunkHead.entries, hcounts]
  | error message =>
    obtain rfl := Option.some.inj h
    have herror : (Value.obj [("message", .string message), ("type", .string "server_error"),
        ("param", .null), ("code", .string "upstream_error")]).Fits 6 := by
      refine Value.fits_obj ?_
      simp
    refine Value.fits_obj ?_
    simp [herror]
  | done => simp [data] at h

/-! ### Outputs -/

/-- One piece of output. -/
inductive SseOut where
  /-- An upstream line, sent on as it came. -/
  | line (bytes : Bytes)
  /-- A `data:` line with its value rewritten; `suffix` is the line ending it came with. -/
  | dataLine (leadingSpace : Bool) (value : Value) (suffix : Bytes)
  /-- A Responses event. -/
  | event (e : ResponsesEvent)
  /-- A chat completion frame. -/
  | chat (f : ChatFrame)
  deriving DecidableEq

/-- An event line, a `data:` line and a blank line. -/
def sseEvent (c : Codec) (event : String) (data : Value) : Bytes :=
  asBytes "event: " ++ asBytes event ++ asBytes "\n" ++ asBytes "data: " ++ c.toVec data ++
    asBytes "\n\n"

/-- A `data:` line and a blank line. -/
def sseData (c : Codec) (data : Value) : Bytes :=
  asBytes "data: " ++ c.toVec data ++ asBytes "\n\n"

/-- The bytes of one piece of output. -/
def SseOut.bytes (c : Codec) : SseOut → Bytes
  | .line bytes => bytes
  | .dataLine leadingSpace value suffix =>
    asBytes "data:" ++ (if leadingSpace then asBytes " " else []) ++ c.toVec value ++ suffix
  | .event e => sseEvent c e.eventType e.data
  | .chat f =>
    match f.data with
    | some value => sseData c value
    | none => asBytes "data: [DONE]\n\n"

/-- The bytes of an output. -/
def outBytes (c : Codec) (out : List SseOut) : Bytes := out.flatMap (SseOut.bytes c)

@[simp] theorem outBytes_nil (c : Codec) : outBytes c [] = [] := rfl

@[simp] theorem outBytes_cons (c : Codec) (o : SseOut) (out : List SseOut) :
    outBytes c (o :: out) = o.bytes c ++ outBytes c out := rfl

@[simp] theorem outBytes_append (c : Codec) (out out' : List SseOut) :
    outBytes c (out ++ out') = outBytes c out ++ outBytes c out' := List.flatMap_append

/-- The Responses events of an output. -/
def events (out : List SseOut) : List ResponsesEvent :=
  out.filterMap fun
    | .event e => some e
    | _ => none

@[simp] theorem events_nil : events [] = [] := rfl

@[simp] theorem events_append (out out' : List SseOut) :
    events (out ++ out') = events out ++ events out' := List.filterMap_append

@[simp] theorem events_line (b : Bytes) (out : List SseOut) :
    events (.line b :: out) = events out := rfl

@[simp] theorem events_event (e : ResponsesEvent) (out : List SseOut) :
    events (.event e :: out) = e :: events out := rfl

@[simp] theorem events_map (es : List ResponsesEvent) : events (es.map .event) = es := by
  induction es with
  | nil => rfl
  | cons e es ih => rw [List.map_cons, events_event, ih]

end Onair
