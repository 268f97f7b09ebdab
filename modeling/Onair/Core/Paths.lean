import Mathlib.Data.List.Basic

/-!
# Request modes and endpoint paths

The ways a request is forwarded, and the endpoints the rewriters know by path.
-/

namespace Onair

/-- How a request is forwarded: as it came, or converted to another API. -/
inductive RequestMode where
  | native
  | responsesViaChatCompletions
  | chatCompletionsViaResponses
  | chatCompletionsViaMessages
  | anthropicMessagesNative
  deriving DecidableEq, Repr

/-- A path without its trailing slashes. -/
def trimEndSlashes (path : String) : String :=
  String.ofList (path.toList.reverse.dropWhile (· == '/')).reverse

/-- The endpoints the rewriters know. -/
inductive EndpointKind where
  | responses
  | chatCompletions
  | messages
  | other
  deriving DecidableEq, Repr

/-- The endpoint of a path. -/
def endpointKind (path : String) : EndpointKind :=
  match trimEndSlashes path with
  | "/v1/responses" => .responses
  | "/v1/chat/completions" => .chatCompletions
  | "/v1/messages" => .messages
  | _ => .other

end Onair
