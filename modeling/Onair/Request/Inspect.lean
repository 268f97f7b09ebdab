import Onair.Lib.Form
import Onair.Lib.Json.Value
import Onair.Request.Multipart

/-!
# Looking into a request

`inspectRequest` finds the model, the cache key and the streaming flags of a request. The body is
read as JSON, as a URL-encoded form or as multipart, as its content type and its first bytes
suggest; what the body does not say is taken from the query string.
-/

namespace Onair

open Json Text

/-- What routing needs to know of a request. -/
structure RequestShape where
  model : Option String := none
  promptCacheKey : Option String := none
  stream : Bool := false
  streamUsageRequested : Bool := false
  hasTools : Bool := false
  deriving DecidableEq, Repr

/-- The text is more than white space. -/
def nonBlank (s : String) : Bool := decide (trim s ≠ "")

/-- `true`, `1` or `yes`. -/
def truthy (value : String) : Bool :=
  ["true", "1", "yes"].elem (toAsciiLowercase (trim value))

/-! ### What kind of body it is -/

/-- A JSON content type. -/
def isJsonContentType : Option String → Bool
  | none => false
  | some value =>
    let lowered := toAsciiLowercase value
    contains lowered "application/json" || contains lowered "+json"

/-- White space of ASCII. -/
def isAsciiWhitespace (b : UInt8) : Bool := [32, 9, 10, 12, 13].elem b

/-- The first byte after white space opens an object or an array. -/
def looksLikeJson (body : Bytes) : Bool :=
  ((body.find? fun b => !isAsciiWhitespace b).map fun b => b == 123 || b == 91).getD false

/-- A body looks like JSON if a brace or a bracket comes first after the white space of JSON. -/
theorem looksLikeJson_of_find {body : Bytes} {b : UInt8} (hb : b = 123 ∨ b = 91)
    (h : (body.find? fun x => x ≠ 32 ∧ x ≠ 9 ∧ x ≠ 10 ∧ x ≠ 13) = some b) :
    looksLikeJson body = true := by
  obtain ⟨-, as, bs, rfl, has⟩ := List.find?_eq_some_iff_append.mp h
  have hfind : (as ++ b :: bs).find? (fun b => !isAsciiWhitespace b) = some b := by
    refine List.find?_eq_some_iff_append.mpr ⟨?_, as, bs, rfl, fun a ha => ?_⟩
    · obtain rfl | rfl := hb <;> decide
    · have hspace := has a ha
      simp only [ne_eq, Bool.not_eq_true', decide_eq_false_iff_not, not_and_or, not_not] at hspace
      obtain rfl | rfl | rfl | rfl := hspace <;> decide
  rw [looksLikeJson, hfind]
  obtain rfl | rfl := hb <;> rfl

/-- Whether a body is read as JSON. -/
def shouldParseJson (contentType : Option String) (body : Bytes) : Bool :=
  isJsonContentType contentType || looksLikeJson body

/-- The content type of URL-encoded forms. -/
def isUrlencodedContentType : Option String → Bool
  | none => false
  | some value => contains (toAsciiLowercase value) "application/x-www-form-urlencoded"

/-- A text with an equals sign and no brace. -/
def looksLikeUrlencoded (body : Bytes) : Bool :=
  ((fromUtf8 body).map fun value => value.toList.elem '=' && !value.toList.elem '\x7b').getD false

/-- The boundary of a multipart content type. -/
def multipartBoundary (contentType : String) : Option String :=
  if !contains (toAsciiLowercase contentType) "multipart/form-data" then none
  else (split ';' contentType).findSome? fun parameter =>
    (stripPrefix "boundary=".toList (trim parameter).toList).map fun value =>
      trimMatches (· == '"') (String.ofList value)

/-! ### The kinds of bodies -/

/-- The field `tools` is there, and is neither `null` nor an empty list. -/
def jsonHasTools (value : Value) : Bool :=
  match value.get "tools" with
  | some (.array tools) => !tools.isEmpty
  | some .null | none => false
  | some _ => true

/-- What a JSON value says of the request. -/
def inspectJsonValue (value : Value) : RequestShape where
  model := ((value.get "model").bind Value.asStr).filter nonBlank
  promptCacheKey := ((value.get "prompt_cache_key").bind Value.asStr).filter nonBlank
  stream := ((value.get "stream").bind Value.asBool).getD false
  streamUsageRequested :=
    (((value.get "stream_options").bind (Value.get · "include_usage")).bind Value.asBool).getD false
  hasTools := jsonHasTools value

/-- A field of a form. -/
def inspectFormField (shape : RequestShape) : String × String → RequestShape
  | (key, value) =>
    if key = "model" ∧ nonBlank value = true then { shape with model := some value }
    else if key = "prompt_cache_key" ∧ nonBlank value = true then
      { shape with promptCacheKey := some value }
    else if key = "stream" then { shape with stream := truthy value }
    else shape

/-- A part of a multipart body. -/
def inspectMultipartPart (shape : RequestShape) (part : Bytes) : RequestShape :=
  match splitMultipartPart part with
  | none => shape
  | some (headers, content) =>
    match fromUtf8 content with
    | none => shape
    | some text =>
      let shape :=
        if multipartFieldIs headers "model" && nonBlank text then
          { shape with model := some (trim text) }
        else shape
      let shape :=
        if multipartFieldIs headers "stream" then { shape with stream := truthy text } else shape
      if multipartFieldIs headers "prompt_cache_key" && nonBlank text then
        { shape with promptCacheKey := some (trim text) }
      else shape

/-- The fields of the parts of a multipart body; the last one of a name counts. -/
def inspectMultipartBody (body : Bytes) (boundary : String) : RequestShape :=
  (multipartParts body boundary).foldl inspectMultipartPart {}

section

variable (c : Codec) (f : Form)

/-- A JSON body. -/
def inspectJsonBody (body : Bytes) : RequestShape :=
  match c.fromSlice body with
  | none => {}
  | some value => inspectJsonValue value

/-- The fields of a form; the last one of a name counts. -/
def inspectUrlencodedBody (body : Bytes) : RequestShape :=
  (f.parse body).foldl inspectFormField {}

/-- A body, as its content type or its looks suggest. -/
def inspectBody (body : Bytes) (contentType : Option String) : RequestShape :=
  if body.isEmpty then {}
  else if shouldParseJson contentType body then inspectJsonBody c body
  else
    let form := inspectUrlencodedBody f body
    if (isUrlencodedContentType contentType || looksLikeUrlencoded body) &&
        (form.model.isSome || form.stream) then form
    else match contentType.bind multipartBoundary with
      | some boundary => inspectMultipartBody body boundary
      | none => inspectJsonBody c body

/-- The first field of the query that is not blank. -/
def queryField (query : Option String) (field : String) : Option String :=
  query.bind fun query =>
    ((f.parse (asBytes query)).find? fun e => e.1 == field && nonBlank e.2).map Prod.snd

/-- The first field of the query is set. -/
def queryBool (query : Option String) (field : String) : Bool :=
  (query.bind fun query =>
    ((f.parse (asBytes query)).find? fun e => e.1 == field).map fun e => truthy e.2).getD false

/-- What routing needs to know of a request. -/
def inspectRequest (body : Bytes) (contentType query : Option String) : RequestShape :=
  let shape := inspectBody c f body contentType
  { shape with
    model := shape.model.or (queryField f query "model")
    promptCacheKey := shape.promptCacheKey.or (queryField f query "prompt_cache_key")
    stream := shape.stream || queryBool f query "stream" }

end

end Onair
