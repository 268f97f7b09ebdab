import Onair.Core.Frame

/-!
# The pass-through normalizers

`SseNormalizer` sends the stream on line by line, with model names rewritten and usage hidden where
it was not asked for; `AnthropicSseNormalizer` only rewrites the two places where an Anthropic
stream names its model.
-/

namespace Onair

open Json Text

/-! ### `SseNormalizer` -/

/-- The state of `SseNormalizer`, beside its parser. -/
structure SseNormalizer where
  observer : SseObserver
  emitUsageToClient : Bool
  deriving DecidableEq

/-- A chunk with usage and no choices. -/
def chatUsageOnlyChunk (value : Value) : Bool :=
  (value.get "usage").isSome && ((value.get "choices").bind Value.asArray == some [])

/-- Drop the field `usage` of an object. -/
def removeUsageField : Value → Value
  | .object m => .object (OrdMap.erase "usage" m)
  | v => v

namespace SseNormalizer

/-- A `data:` frame: the line again with its value rewritten, or nothing for a hidden usage
chunk. -/
def handleData (n : SseNormalizer) (value : Value) (leadingSpace : Bool) (line : Bytes) :
    SseNormalizer × List SseOut :=
  let (observer, json, count) := n.observer.applyDataPrologue value
  let n := { n with observer }
  if !n.emitUsageToClient && decide (count > 0) then
    if chatUsageOnlyChunk json then (n, [])
    else (n, [.dataLine leadingSpace (removeUsageField json) (lineSuffix line)])
  else (n, [.dataLine leadingSpace json (lineSuffix line)])

/-- Handle one frame. -/
def handleFrame (n : SseNormalizer) : SseFrame → SseNormalizer × List SseOut
  | .event name line => ({ n with observer := n.observer.observeEvent name }, [.line line])
  | .data value leadingSpace line => n.handleData value leadingSpace line
  | .dataUnparseable line => ({ n with observer := n.observer.clearEvent }, [.line line])
  | .done line => ({ n with observer := n.observer.clearEvent }, [.line line])
  | .passThrough line => (n, [.line line])

/-- Nothing is left to send at the end. -/
def finishTail (n : SseNormalizer) : SseNormalizer × List SseOut := (n, [])

end SseNormalizer

/-! ### `AnthropicSseNormalizer` -/

/-- The state of `AnthropicSseNormalizer`, beside its parser. -/
structure AnthropicSseNormalizer where
  backendModel : Option String
  publicModel : Option String
  pendingEventName : Option String := none
  deriving DecidableEq

/-- Replace the field `model` of an object if it is `backend`. -/
def rewriteTopModel (backend pub : String) (m : List (String × Value)) : List (String × Value) :=
  if (OrdMap.get "model" m).bind Value.asStr = some backend then
    OrdMap.insert "model" (.string pub) m
  else m

namespace AnthropicSseNormalizer

/-- Rewrite `model` and `message.model`. -/
def rewriteModel (n : AnthropicSseNormalizer) (value : Value) : Value :=
  match n.backendModel, n.publicModel, value with
  | some backend, some pub, .object m =>
    let m := rewriteTopModel backend pub m
    match (OrdMap.get "message" m).bind Value.asObject with
    | some message =>
      .object (OrdMap.insert "message" (.object (rewriteTopModel backend pub message)) m)
    | none => .object m
  | _, _, value => value

/-- Handle one frame. -/
def handleFrame (n : AnthropicSseNormalizer) : SseFrame → AnthropicSseNormalizer × List SseOut
  | .event name line => ({ n with pendingEventName := some name }, [.line line])
  | .data value leadingSpace line =>
    ({ n with pendingEventName := none },
      [.dataLine leadingSpace (n.rewriteModel value) (lineSuffix line)])
  | .dataUnparseable line => ({ n with pendingEventName := none }, [.line line])
  | .done line => ({ n with pendingEventName := none }, [.line line])
  | .passThrough line => (n, [.line line])

/-- Nothing is left to send at the end. -/
def finishTail (n : AnthropicSseNormalizer) : AnthropicSseNormalizer × List SseOut := (n, [])

end AnthropicSseNormalizer

end Onair
