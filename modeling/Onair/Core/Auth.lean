import Onair.Lib.Text
import Mathlib.Data.Finset.Insert

/-!
# Errors and authentication

The errors the proxy answers with, the headers of a request, and the client they authenticate.
-/

namespace Onair

open Text

/-- An error as it is rendered to the client. -/
structure ApiError where
  status : ℕ
  message : String
  kind : String
  code : Option String
  param : Option String
  deriving DecidableEq, Repr

namespace ApiError

/-- The credentials are missing or wrong. -/
def authentication (message : String) : ApiError where
  status := 401
  message := message
  kind := "authentication_error"
  code := some "invalid_api_key"
  param := none

/-- The request is malformed. -/
def badRequest (message : String) (param : Option String) : ApiError where
  status := 400
  message := message
  kind := "invalid_request_error"
  code := none
  param := param

/-- The model is unknown, or the client may not use it. -/
def modelNotFound (model : String) : ApiError where
  status := 404
  message := "The model '" ++ model ++ "' does not exist or is not available."
  kind := "invalid_request_error"
  code := some "model_not_found"
  param := some "model"

/-- The model, or any backend, does not serve the endpoint. -/
def endpointUnavailable (path : String) (model : Option String) : ApiError where
  status := 404
  message := match model with
    | some model =>
      "The model '" ++ model ++ "' is configured but does not serve endpoint '" ++ path ++ "'."
    | none => "The requested endpoint '" ++ path ++ "' is unavailable."
  kind := "invalid_request_error"
  code := some "endpoint_unavailable"
  param := some "endpoint"

/-- The endpoint is unknown. -/
def notFound (message : String) : ApiError where
  status := 404
  message := message
  kind := "invalid_request_error"
  code := some "not_found"
  param := none

/-- The status a client sees for the status of an upstream. -/
def mapUpstreamStatus (status : ℕ) : ℕ := if status ∈ [400, 422, 429, 408] then status else 502

/-- The upstream failed with a status. -/
def upstream (status : ℕ) : ApiError :=
  if status = 400 ∨ status = 422 then
    { status := status
      message := "The request could not be completed by the selected model."
      kind := "invalid_request_error"
      code := none
      param := none }
  else if status = 429 then
    { status := 429
      message := "The selected model is temporarily rate limited."
      kind := "rate_limit_error"
      code := some "rate_limit_exceeded"
      param := none }
  else if status = 408 then
    { status := 408
      message := "The selected model did not respond in time."
      kind := "server_error"
      code := some "request_timeout"
      param := none }
  else
    { status := mapUpstreamStatus status
      message := "The selected model could not complete the request."
      kind := "server_error"
      code := some "upstream_error"
      param := none }

/-- The upstream did not answer in time. -/
def timeout : ApiError where
  status := 504
  message := "The selected model did not respond in time."
  kind := "server_error"
  code := some "request_timeout"
  param := none

/-- The request could not be completed. -/
def internal : ApiError where
  status := 500
  message := "The request could not be completed."
  kind := "server_error"
  code := some "internal_error"
  param := none

end ApiError

/-- The headers of a request, in order; names are in lower case. -/
abbrev HeaderMap : Type := List (String × Bytes)

/-- The bytes of a header that read as text: tab and the printable bytes of ASCII. -/
def isVisibleAscii (b : UInt8) : Bool := (32 ≤ b && b < 127) || b == 9

/-- The text of a header value. -/
def headerValueToStr (value : Bytes) : Option String :=
  if value.all isVisibleAscii then fromUtf8 value else none

/-- The text can be sent in a header. -/
def Presentable (key : String) : Prop := (asBytes key).all isVisibleAscii = true

theorem headerValueToStr_eq_some {value : Bytes} {text : String} :
    headerValueToStr value = some text ↔ value = asBytes text ∧ Presentable text := by
  unfold headerValueToStr Presentable
  split_ifs with h
  · rw [fromUtf8_eq_some]
    exact ⟨fun heq => ⟨heq, heq ▸ h⟩, And.left⟩
  · refine iff_of_false nofun ?_
    rintro ⟨rfl, hall⟩
    exact h hall

/-- The text of the first header of a name. -/
def headerStr (headers : HeaderMap) (name : String) : Option String :=
  (headers.lookup name).bind headerValueToStr

/-- A client of the configuration. -/
structure ResolvedClient where
  id : String
  apiKey : String
  models : Finset String
  deriving DecidableEq

/-- Who sent a request, and the models it may use. -/
structure Identity where
  id : String
  models : Finset String
  deriving DecidableEq

/-- The two tokens have the same bytes. -/
def tokenMatches (input configured : String) : Bool :=
  (asBytes input).length == (asBytes configured).length && asBytes input == asBytes configured

/-- The first of the clients whose key is the token. -/
def matchClient (token : String) (clients : List ResolvedClient) : Option ResolvedClient :=
  clients.foldl (fun found client =>
    if tokenMatches token client.apiKey && found.isNone then some client else found) none

/-- The client a request comes from. A bearer token goes before an `x-api-key` header. -/
def authenticate (headers : HeaderMap) (clients : List ResolvedClient) :
    Except ApiError Identity :=
  let bearerToken := (headerStr headers "authorization").bind fun value =>
    (stripPrefix "Bearer ".toList value.toList).map String.ofList
  let xApiKey := (headerStr headers "x-api-key").filter fun value => !value.isEmpty
  match bearerToken.or xApiKey with
  | none => .error (.authentication "Missing bearer token.")
  | some token =>
    let invalidMsg :=
      if bearerToken.isSome then "Invalid bearer token." else "Invalid x-api-key."
    match matchClient token clients with
    | some client => .ok { id := client.id, models := client.models }
    | none => .error (.authentication invalidMsg)

end Onair
