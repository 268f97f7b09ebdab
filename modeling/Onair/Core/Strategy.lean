import Onair.Core.Paths
import Onair.Core.MessagesToChat

/-!
# The normalizer of a request mode

`SseStrategy` wraps the five normalizers behind one interface.

* `SseStrategy`, `SseStrategy.new`: one variant for each request mode;
* `push`, `finish`: feeding a chunk, and the end of the stream;
* `usage`, `diagnostics`, `clearUsage`, `clearDiagnostics`: the counters the caller collects;
* `pushAll`, `runAll`: a whole stream.
-/

namespace Onair

open Json

/-- The five normalizers. -/
inductive SseStrategy where
  | native (n : Normalizer SseNormalizer)
  | responses (n : Normalizer ResponsesSseNormalizer)
  | chatCompletions (n : Normalizer ChatCompletionsSseNormalizer)
  | anthropicMessages (n : Normalizer AnthropicSseNormalizer)
  | anthropicMessagesToChat (n : Normalizer AnthropicMessagesToChatSseNormalizer)
  deriving DecidableEq

namespace SseStrategy

/-- The normalizer of a request mode. -/
def new (mode : RequestMode) (backendModel publicModel : Option String)
    (emitUsageToClient : Bool) : SseStrategy :=
  match mode with
  | .responsesViaChatCompletions =>
    .responses { state := { observer := { backendModel, publicModel } } }
  | .chatCompletionsViaResponses =>
    .chatCompletions { state := {
      observer := { backendModel, publicModel }
      stream := { emitUsageToClient } } }
  | .chatCompletionsViaMessages =>
    .anthropicMessagesToChat { state := {
      observer := { backendModel, publicModel }
      stream := { emitUsageToClient } } }
  | .native =>
    .native { state := { observer := { backendModel, publicModel }, emitUsageToClient } }
  | .anthropicMessagesNative =>
    .anthropicMessages { state := { backendModel, publicModel } }

/-- Feed an upstream chunk. -/
def push (c : Codec) (s : SseStrategy) (chunk : Bytes) : SseStrategy × List SseOut :=
  match s with
  | .native n =>
    let r := pushFrames c SseNormalizer.handleFrame n chunk
    (.native r.1, r.2)
  | .responses n =>
    let r := pushFrames c ResponsesSseNormalizer.handleFrame n chunk
    (.responses r.1, r.2)
  | .chatCompletions n =>
    let r := pushFrames c ChatCompletionsSseNormalizer.handleFrame n chunk
    (.chatCompletions r.1, r.2)
  | .anthropicMessages n =>
    let r := pushFrames c AnthropicSseNormalizer.handleFrame n chunk
    (.anthropicMessages r.1, r.2)
  | .anthropicMessagesToChat n =>
    let r := pushFrames c AnthropicMessagesToChatSseNormalizer.handleFrame n chunk
    (.anthropicMessagesToChat r.1, r.2)

/-- The end of the upstream stream. -/
def finish (c : Codec) (s : SseStrategy) : SseStrategy × List SseOut :=
  match s with
  | .native n =>
    let r := finishFrames c SseNormalizer.handleFrame SseNormalizer.finishTail n
    (.native r.1, r.2)
  | .responses n =>
    let r := finishFrames c ResponsesSseNormalizer.handleFrame ResponsesSseNormalizer.finishTail n
    (.responses r.1, r.2)
  | .chatCompletions n =>
    let r := finishFrames c ChatCompletionsSseNormalizer.handleFrame
      ChatCompletionsSseNormalizer.finishTail n
    (.chatCompletions r.1, r.2)
  | .anthropicMessages n =>
    let r := finishFrames c AnthropicSseNormalizer.handleFrame AnthropicSseNormalizer.finishTail n
    (.anthropicMessages r.1, r.2)
  | .anthropicMessagesToChat n =>
    let r := finishFrames c AnthropicMessagesToChatSseNormalizer.handleFrame
      AnthropicMessagesToChatSseNormalizer.finishTail n
    (.anthropicMessagesToChat r.1, r.2)

/-- The observer of a strategy; the Anthropic pass-through has none. -/
def observer? : SseStrategy → Option SseObserver
  | .native n => some n.state.observer
  | .responses n => some n.state.observer
  | .chatCompletions n => some n.state.observer
  | .anthropicMessages _ => none
  | .anthropicMessagesToChat n => some n.state.observer

/-- The usage counted so far. -/
def usage (s : SseStrategy) : UsageTotals := (s.observer?.map SseObserver.usage).getD {}

/-- The diagnostics noted so far. -/
def diagnostics (s : SseStrategy) : UsageDiagnostics :=
  (s.observer?.map SseObserver.diagnostics).getD {}

/-- Change the observer of a strategy. -/
def modifyObserver (f : SseObserver → SseObserver) : SseStrategy → SseStrategy
  | .native n => .native { n with state := { n.state with observer := f n.state.observer } }
  | .responses n => .responses { n with state := { n.state with observer := f n.state.observer } }
  | .chatCompletions n =>
    .chatCompletions { n with state := { n.state with observer := f n.state.observer } }
  | .anthropicMessages n => .anthropicMessages n
  | .anthropicMessagesToChat n =>
    .anthropicMessagesToChat { n with state := { n.state with observer := f n.state.observer } }

/-- Reset the usage counters. -/
def clearUsage (s : SseStrategy) : SseStrategy := s.modifyObserver SseObserver.clearUsage

/-- Reset the diagnostics. -/
def clearDiagnostics (s : SseStrategy) : SseStrategy :=
  s.modifyObserver SseObserver.clearDiagnostics

/-- Push the chunks of a stream one after another, without collecting the counters. -/
def pushAll (c : Codec) (s : SseStrategy) (chunks : List Bytes) : SseStrategy × List SseOut :=
  Mealy.run (push c) s chunks

/-- Push the chunks of a stream and finish. -/
def runAll (c : Codec) (s : SseStrategy) (chunks : List Bytes) : SseStrategy × List SseOut :=
  let r := s.pushAll c chunks
  let r' := r.1.finish c
  (r'.1, r.2 ++ r'.2)

end SseStrategy

end Onair
