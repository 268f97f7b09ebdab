import Onair.Core.Paths
import Onair.Request.Inspect

/-!
# Rewriting a request that is forwarded as it came

`rewriteNativeRequestBody` is the rewriting of a body in mode `native`, `rewriteQueryModel` that of
the query string: the client's model is replaced by the backend's.

* `tomlValueToJsonValue`, `applyExtraBody`: what a route adds to the body;
* `validateResponsesToolHistory`: what is asked of the tool calls of a Responses request;
* `rewriteJsonRequestBody`, `rewriteUrlencodedRequestBody`: JSON bodies and forms.
-/

namespace Onair

open Json Text

/-! ### Policies of a route -/

/-- Whether a Responses request is stored. -/
inductive ResponsesStorePolicy where
  | preserve
  | forceFalse
  deriving DecidableEq, Repr

/-- What becomes of `max_output_tokens`. -/
inductive ResponsesMaxOutputTokensPolicy where
  | preserve
  | drop
  | renameToMaxTokens
  | renameToMaxCompletionTokens
  deriving DecidableEq, Repr

/-- Whether a streaming chat request asks for usage. -/
inductive ChatStreamUsagePolicy where
  | preserve
  | insert
  | forceTrue
  deriving DecidableEq, Repr

/-- The policies read in mode `native`. -/
structure RequestRewritePolicies where
  responsesStore : ResponsesStorePolicy := .preserve
  responsesMaxOutputTokens : ResponsesMaxOutputTokensPolicy := .preserve
  chatStreamUsage : ChatStreamUsagePolicy := .preserve
  deriving DecidableEq, Repr

/-- Why a request is not forwarded. -/
structure RequestRewriteError where
  message : String
  param : Option String
  deriving DecidableEq, Repr

/-! ### Extra fields -/

/-- A value of the configuration. A `f64` is named by its shortest decimal form if it is finite, a
date by its text. -/
inductive Toml where
  | string (s : String)
  | integer (i : Int64)
  | float (shortest : Option (Bool × ℕ × ℤ))
  | boolean (b : Bool)
  | datetime (text : String)
  | array (vs : List Toml)
  | table (m : List (String × Toml))

/-- An `i64` as a JSON number. -/
def numberOfInt (i : Int64) : Number :=
  if 0 ≤ i.toInt then .posInt (UInt64.ofNat i.toInt.toNat)
  else .negInt (Fin.ofNat (2 ^ 63) (-(i.toInt + 1)).toNat)

mutual
/-- A configured value in JSON. -/
def tomlValueToJsonValue : Toml → Value
  | .string s => .string s
  | .integer i => .number (numberOfInt i)
  | .float (some (neg, digits, exponent)) => .number (.float neg digits exponent)
  | .float none => .null
  | .boolean b => .bool b
  | .datetime text => .string text
  | .array vs => .array (tomlListToJson vs)
  | .table m => Value.obj (tomlTableToJson m)
/-- The elements of an array in JSON. -/
def tomlListToJson : List Toml → List Value
  | [] => []
  | v :: vs => tomlValueToJsonValue v :: tomlListToJson vs
/-- The entries of a table in JSON. -/
def tomlTableToJson : List (String × Toml) → List (String × Value)
  | [] => []
  | (k, v) :: m => (k, tomlValueToJsonValue v) :: tomlTableToJson m
end

/-- The keys that no route sets. -/
def protectedUpstreamKeys : List String :=
  ["model", "stream", "messages", "input", "tools", "tool_choice", "store", "max_output_tokens",
    "max_tokens", "max_completion_tokens", "stream_options"]

/-- Set the extra fields of a route. -/
def applyExtraBody (object : List (String × Value)) (extraBody : List (String × Toml)) :
    List (String × Value) :=
  extraBody.foldl (fun object e =>
    if protectedUpstreamKeys.elem e.1 then object
    else OrdMap.insert e.1 (tomlValueToJsonValue e.2) object) object

/-! ### Tool calls -/

/-- The `call_id` of an item, unless it is blank. -/
def callId (item : Value) : Option String :=
  (((item.get "call_id").bind Value.asStr).map trim).filter (· ≠ "")

/-- Note the tool calls and the tool outputs of an input item. -/
def toolHistoryItem (seen : List String × List String) (item : Value) :
    Except RequestRewriteError (List String × List String) :=
  match (item.get "type").bind Value.asStr with
  | some "function_call" =>
    match callId item with
    | none => .error ⟨"function_call input items require call_id.", some "input"⟩
    | some call => .ok (seen.1 ++ [call], seen.2)
  | some "function_call_output" => .ok (seen.1, seen.2 ++ (callId item).toList)
  | _ => .ok seen

/-- Every tool call of the input has its output. -/
def validateResponsesToolHistory (c : Codec) (body : Bytes) : Except RequestRewriteError Unit :=
  match (c.fromSlice body).bind fun value => (value.get "input").bind Value.asArray with
  | none => .ok ()
  | some input => do
    let (functionCalls, functionOutputs) ← input.foldlM toolHistoryItem ([], [])
    match functionCalls.find? fun call => !functionOutputs.elem call with
    | some call => .error ⟨s!"No tool output found for function call {call}.", some "input"⟩
    | none => .ok ()

/-! ### JSON bodies -/

/-- Set a field that is not there. -/
def insertAbsent (k : String) (v : Value) (object : List (String × Value)) :
    List (String × Value) :=
  match OrdMap.get k object with
  | some _ => object
  | none => OrdMap.insert k v object

/-- Move the value of `max_output_tokens` to another field, unless that is there. -/
def renameMaxOutputTokens (k : String) (object : List (String × Value)) : List (String × Value) :=
  match OrdMap.get "max_output_tokens" object with
  | some v => insertAbsent k v (OrdMap.erase "max_output_tokens" object)
  | none => object

/-- The field `max_output_tokens` as the policy has it. -/
def rewriteNativeResponsesMaxOutputTokens (object : List (String × Value)) :
    ResponsesMaxOutputTokensPolicy → List (String × Value)
  | .preserve => object
  | .drop => OrdMap.erase "max_output_tokens" object
  | .renameToMaxTokens => renameMaxOutputTokens "max_tokens" object
  | .renameToMaxCompletionTokens => renameMaxOutputTokens "max_completion_tokens" object

/-- The field `stream_options` of a streaming request as the policy has it. -/
def applyChatStreamUsagePolicy (object : List (String × Value)) (policy : ChatStreamUsagePolicy) :
    List (String × Value) :=
  if policy = .preserve then object
  else if (OrdMap.get "stream" object).bind Value.asBool ≠ some true then object
  else
    let setOptions (options : List (String × Value)) :=
      OrdMap.insert "stream_options" (.object options) object
    match OrdMap.get "stream_options" object with
    | some (.object options) =>
      if policy = .insert then setOptions (insertAbsent "include_usage" (.bool true) options)
      else setOptions (OrdMap.insert "include_usage" (.bool true) options)
    | some _ => if policy = .forceTrue then setOptions [("include_usage", .bool true)] else object
    | none => setOptions [("include_usage", .bool true)]

/-- The fields of a JSON request that has a model, with the backend's model and as the policies
have it. -/
def rewriteJsonObject (object : List (String × Value)) (backendModel : String)
    (nativeResponses chatCompletions : Bool) (policies : RequestRewritePolicies)
    (extraBody : List (String × Toml)) : List (String × Value) :=
  let object := OrdMap.insert "model" (.string backendModel) object
  let object :=
    if nativeResponses && decide (policies.responsesStore = .forceFalse) then
      insertAbsent "store" (.bool false) object
    else object
  let object :=
    if nativeResponses then
      rewriteNativeResponsesMaxOutputTokens object policies.responsesMaxOutputTokens
    else if chatCompletions then applyChatStreamUsagePolicy object policies.chatStreamUsage
    else object
  applyExtraBody object extraBody

/-- A JSON body, if it is an object with a model. -/
def rewriteJsonRequestBody (c : Codec) (body : Bytes) (backendModel : String)
    (nativeResponses chatCompletions : Bool) (policies : RequestRewritePolicies)
    (extraBody : List (String × Toml)) : Option Bytes :=
  match (c.fromSlice body).bind Value.asObject with
  | none => none
  | some object =>
    if (OrdMap.get "model" object).isNone then none
    else some (c.toVec (.object (rewriteJsonObject object backendModel nativeResponses
      chatCompletions policies extraBody)))

/-! ### Forms and queries -/

/-- The fields of a form with the backend's model for every `model`. -/
def rewriteFormFields (backendModel : String) (fields : List (String × String)) :
    List (String × String) :=
  fields.map fun e => if e.1 = "model" then (e.1, backendModel) else e

/-- There is a field `model`. -/
def sawModel (fields : List (String × String)) : Bool := fields.any fun e => e.1 == "model"

/-- A form, if it has a model. -/
def rewriteUrlencodedRequestBody (f : Form) (body : Bytes) (backendModel : String) :
    Option Bytes :=
  let fields := f.parse body
  if sawModel fields then some (asBytes (f.serialize (rewriteFormFields backendModel fields)))
  else none

/-- The query string with the backend's model. -/
def rewriteQueryModel (f : Form) (query backendModel : Option String) : Option String :=
  query.map fun query =>
    match backendModel with
    | none => query
    | some backendModel =>
      let fields := f.parse (asBytes query)
      if sawModel fields then f.serialize (rewriteFormFields backendModel fields) else query

/-! ### The body -/

/-- `rewrite_request_body_for_mode_with_policies` in mode `native`. -/
def rewriteNativeRequestBody (c : Codec) (f : Form) (body : Bytes) (contentType : Option String)
    (backendModel : Option String) (path : String) (policies : RequestRewritePolicies)
    (extraBody : List (String × Toml)) : Except RequestRewriteError Bytes := do
  let nativeResponses := decide (endpointKind path = .responses)
  let chatCompletions := decide (endpointKind path = .chatCompletions)
  if nativeResponses && shouldParseJson contentType body then
    validateResponsesToolHistory c body
  match backendModel with
  | none => return body
  | some backendModel =>
    if body.isEmpty then return []
    let json :=
      if shouldParseJson contentType body then
        rewriteJsonRequestBody c body backendModel nativeResponses chatCompletions policies
          extraBody
      else none
    let form :=
      if isUrlencodedContentType contentType || looksLikeUrlencoded body then
        rewriteUrlencodedRequestBody f body backendModel
      else none
    let multipart := (contentType.bind multipartBoundary).bind fun boundary =>
      rewriteMultipartBody body boundary backendModel
    return ((json.or form).or multipart).getD body

/-! ### Bodies that are not JSON objects -/

theorem not_object {c : Codec} (hc : c.Lawful) {b : UInt8} (hb : b ∉ [32, 9, 10, 13, 123])
    (t : Bytes) : (c.fromSlice (b :: t)).bind Value.asObject = none := by
  simp only [List.mem_cons, List.not_mem_nil, or_false, not_or] at hb
  obtain ⟨h1, h2, h3, h4, h5⟩ := hb
  rw [Option.bind_eq_none_iff]
  intro v hv
  cases v with
  | object m =>
    have := hc.object_head _ m hv
    rw [List.find?_cons_of_pos (by simp [h1, h2, h3, h4])] at this
    exact absurd (Option.some.inj this) h5
  | _ => rfl

theorem validate_of_not_object {c : Codec} {body : Bytes}
    (h : (c.fromSlice body).bind Value.asObject = none) :
    validateResponsesToolHistory c body = .ok () := by
  have hn :
      ((c.fromSlice body).bind fun value => (value.get "input").bind Value.asArray) = none := by
    rw [Option.bind_eq_none_iff] at h ⊢
    intro v hv
    have := h v hv
    cases v <;> simp_all [Value.get, Value.asObject]
  rw [validateResponsesToolHistory, hn]

/-- A body that is not a JSON object is rewritten as a form, or as multipart, or not at all. -/
theorem rewriteNative_of_not_object {c : Codec} {f : Form} {body : Bytes} (hb : body ≠ [])
    (h : (c.fromSlice body).bind Value.asObject = none) (contentType : Option String)
    (backend path : String) (policies : RequestRewritePolicies) (extraBody : List (String × Toml)) :
    rewriteNativeRequestBody c f body contentType (some backend) path policies extraBody =
      .ok (((if isUrlencodedContentType contentType || looksLikeUrlencoded body then
          rewriteUrlencodedRequestBody f body backend else none).or
        ((contentType.bind multipartBoundary).bind (rewriteMultipartBody body · backend))).getD
          body) := by
  have hj : ∀ n k, rewriteJsonRequestBody c body backend n k policies extraBody = none := by
    intro n k
    rw [rewriteJsonRequestBody, h]
  have he : body.isEmpty = false := by simpa using hb
  simp only [rewriteNativeRequestBody, validate_of_not_object h, hj, he, ite_self, Option.none_or,
    Bool.false_eq_true, if_false]
  split_ifs <;> rfl

end Onair
