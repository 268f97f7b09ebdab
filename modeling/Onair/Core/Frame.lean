import Onair.Core.Event
import Onair.Lib.Mealy

/-!
# Server-sent event frames

The line parser of `openai/response.rs` and what the normalizers share.

* `SseFrame`, `parseSseLine`, `SseLineParser`: one line of the upstream stream, and the parser;
* `SseObserver`, `applyDataPrologue`: what every `data:` frame is first put through;
* `Normalizer`, `pushFrames`, `finishFrames`: a parser in front of a state, and the loops over the
  frames it yields.
-/

namespace Onair

open Json Text

/-! ### Frames -/

/-- One line of the upstream stream, with the bytes it came as. -/
inductive SseFrame where
  | event (name : String) (line : Bytes)
  | data (value : Value) (leadingSpace : Bool) (line : Bytes)
  | dataUnparseable (line : Bytes)
  | done (line : Bytes)
  | passThrough (line : Bytes)
  deriving DecidableEq

/-- The bytes a frame came as. -/
def SseFrame.line : SseFrame → Bytes
  | .event _ line | .data _ _ line | .dataUnparseable line | .done line | .passThrough line => line

/-- The value of a field line, without one space after the colon. -/
def sseFieldValue (line field : Bytes) : Option Bytes :=
  (stripPrefix field line).map fun value => (stripPrefix (asBytes " ") value).getD value

/-- The value of a field line as a label. -/
def utf8FieldValue (line field : Bytes) : Option String :=
  (sseFieldValue line field).bind fun value =>
    ((fromUtf8 value).map trim).bind safeDiagnosticLabel

/-- The `type` of an event, or else its `object`. -/
def jsonEventType (value : Value) : Option String :=
  ((value.get "type").bind Value.asStr).or ((value.get "object").bind Value.asStr)

/-- A line without its line ending. -/
def lineContent (line : Bytes) : Bytes :=
  let line := (stripSuffix (asBytes "\n") line).getD line
  (stripSuffix (asBytes "\r") line).getD line

/-- The line ending of a line. -/
def lineSuffix (line : Bytes) : Bytes :=
  let newline := if (stripSuffix (asBytes "\n") line).isSome then asBytes "\n" else []
  let line := (stripSuffix (asBytes "\n") line).getD line
  let cr := if (stripSuffix (asBytes "\r") line).isSome then asBytes "\r" else []
  cr ++ newline

/-- Read one line. -/
def parseSseLine (c : Codec) (line : Bytes) : SseFrame :=
  let content := lineContent line
  match utf8FieldValue content (asBytes "event:") with
  | some name => .event name line
  | none =>
    match sseFieldValue content (asBytes "data:") with
    | some data =>
      let leadingSpace := (stripPrefix (asBytes "data: ") content).isSome
      if data = asBytes "[DONE]" then .done line
      else
        match c.fromSlice data with
        | some value => .data value leadingSpace line
        | none => .dataUnparseable line
    | none => .passThrough line

/-- **A frame keeps the bytes of its line.** -/
@[simp] theorem parseSseLine_line (c : Codec) (line : Bytes) :
    (parseSseLine c line).line = line := by
  unfold parseSseLine
  dsimp only
  split
  · rfl
  · split
    · split_ifs
      · rfl
      · split <;> rfl
    · rfl

/-- The line parser: the bytes after the last newline seen. -/
structure SseLineParser where
  pending : Bytes := []
  deriving DecidableEq

namespace SseLineParser

/-- Append a chunk and take out the complete lines. -/
def push (c : Codec) (p : SseLineParser) (chunk : Bytes) : SseLineParser × List SseFrame :=
  let r := Lines.drainLines (p.pending ++ chunk)
  (⟨r.2⟩, r.1.map (parseSseLine c))

/-- At the end of the stream, what is left is a line. -/
def finish (c : Codec) (p : SseLineParser) : SseLineParser × List SseFrame :=
  if p.pending = [] then (p, []) else ({}, [parseSseLine c p.pending])

end SseLineParser

/-! ### The prologue of a `data:` frame -/

/-- The fields that the normalizers with usage accounting share. -/
structure SseObserver where
  usage : UsageTotals := {}
  diagnostics : UsageDiagnostics := {}
  pendingEventName : Option String := none
  backendModel : Option String
  publicModel : Option String
  deriving DecidableEq

namespace SseObserver

/-- Note an `event:` line. -/
def observeEvent (o : SseObserver) (name : String) : SseObserver :=
  { o with
    diagnostics := o.diagnostics.observeEventName name
    pendingEventName := some name }

/-- Forget the last `event:` line. -/
def clearEvent (o : SseObserver) : SseObserver := { o with pendingEventName := none }

/-- Reset the usage counters. -/
def clearUsage (o : SseObserver) : SseObserver := { o with usage := 0 }

/-- Reset the diagnostics. -/
def clearDiagnostics (o : SseObserver) : SseObserver := { o with diagnostics := {} }

/-- Replace the backend's model name, where both names are known. -/
def rewriteModels (o : SseObserver) (value : Value) : Value :=
  match o.backendModel, o.publicModel with
  | some backendModel, some publicModel => rewriteResponseModels backendModel publicModel value
  | _, _ => value

/-- The names noted for a `data:` frame with `count` usage objects. -/
def observeDataNames (o : SseObserver) (value : Value) (count : ℕ) : UsageDiagnostics :=
  let name := (jsonEventType value).bind safeDiagnosticLabel
  let d := match name with
    | some name => o.diagnostics.observeEventName name
    | none => o.diagnostics
  if count > 0 then
    let d := match o.pendingEventName with
      | some name => d.observeUsageEventName name
      | none => d
    match name with
    | some name => d.observeUsageEventName name
    | none => d
  else d

/-- The opening moves on a `data:` frame: count its usage, note its names, rewrite its models and
fill in its totals. Returns the rewritten value and the number of usage objects. -/
def applyDataPrologue (o : SseObserver) (value : Value) : SseObserver × Value × ℕ :=
  let observation := extractUsageObservation value
  let count := observation.diagnostics.usageObjectCount
  ({ o with
      usage := o.usage + observation.totals
      diagnostics := (o.observeDataNames value count).merge observation.diagnostics
      pendingEventName := none },
    ensureUsageTotalTokens (o.rewriteModels value), count)

end SseObserver

/-! ### Normalizers -/

/-- A normalizer: the line parser, and the rest of its state. -/
structure Normalizer (σ : Type) where
  parser : SseLineParser := {}
  state : σ
  deriving DecidableEq

variable {σ : Type}

/-- `push` of a normalizer: handle the frames of the lines that `chunk` completes. -/
def pushFrames (c : Codec) (handleFrame : σ → SseFrame → σ × List SseOut) (n : Normalizer σ)
    (chunk : Bytes) : Normalizer σ × List SseOut :=
  let (parser, frames) := n.parser.push c chunk
  let (state, out) := Mealy.run handleFrame n.state frames
  (⟨parser, state⟩, out)

/-- `finish` of a normalizer: handle the line left over, then close with `tail`. -/
def finishFrames (c : Codec) (handleFrame : σ → SseFrame → σ × List SseOut)
    (tail : σ → σ × List SseOut) (n : Normalizer σ) : Normalizer σ × List SseOut :=
  let (parser, frames) := n.parser.finish c
  let (state, out) := Mealy.run handleFrame n.state frames
  let (state, out') := tail state
  (⟨parser, state⟩, out ++ out')

end Onair
