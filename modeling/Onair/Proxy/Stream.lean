import Onair.Lib.Batch
import Onair.Stream.Chunks

/-!
# The loop of `streaming_response`

Upstream chunks are pushed into an `SseStrategy`; whenever that gives output, the usage counted so
far is moved into the stream's metrics and the output is sent to the client.

* `StreamMetrics`, `addUsage`: the totals of a stream;
* `streamChunk`, `streamEnd`, `streamingResponse`: one chunk, the end, and the whole loop, for an
  upstream that reaches its end without error or shutdown;
* `SseStrategy.handleFrame`, `SseStrategy.finishTail`: a strategy without its parser;
* `chunkGroups`, `exists_chunks`: the lines that each chunk completes; any grouping of the lines of
  a stream comes from chunks;
* `streamAll_eq`: **the loop sees the stream only through the groups of its lines**.
-/

namespace Onair

open Json Lines

/-- The counters of a stream. -/
structure StreamMetrics where
  usage : UsageTotals := {}
  usageDiagnostics : UsageDiagnostics := {}
  deriving DecidableEq

namespace StreamMetrics

/-- Add the usage of the chunks since the last output. -/
def addUsage (m : StreamMetrics) (usage : UsageTotals) : StreamMetrics :=
  { m with usage :=
    { m.usage with
      input := m.usage.input + usage.input
      cachedInput := m.usage.cachedInput + usage.cachedInput
      output := m.usage.output + usage.output
      total := m.usage.total + usage.total } }

/-- Add the diagnostics of the chunks since the last output. -/
def addUsageDiagnostics (m : StreamMetrics) (diagnostics : UsageDiagnostics) : StreamMetrics :=
  { m with usageDiagnostics := m.usageDiagnostics.merge diagnostics }

/-- Collect the counters of a strategy. -/
def collect (m : StreamMetrics) (s : SseStrategy) : StreamMetrics :=
  (m.addUsage s.usage).addUsageDiagnostics s.diagnostics

end StreamMetrics

/-- Clear the counters of a strategy. -/
def SseStrategy.clear (s : SseStrategy) : SseStrategy := s.clearUsage.clearDiagnostics

/-- One upstream chunk. -/
def streamChunk (c : Codec) (st : SseStrategy × StreamMetrics) (chunk : Bytes) :
    (SseStrategy × StreamMetrics) × Bytes :=
  let (strategy, out) := st.1.push c chunk
  let normalized := outBytes c out
  if normalized.isEmpty then ((strategy, st.2), [])
  else ((strategy.clear, st.2.collect strategy), normalized)

/-- The end of the upstream stream. -/
def streamEnd (c : Codec) (st : SseStrategy × StreamMetrics) : StreamMetrics × Bytes :=
  let (strategy, out) := st.1.finish c
  let tail := outBytes c out
  if tail.isEmpty then (st.2, []) else (st.2.collect strategy, tail)

/-- The loop from a given strategy. -/
def streamAll (c : Codec) (s : SseStrategy) (chunks : List Bytes) : StreamMetrics × Bytes :=
  let r := Mealy.run (streamChunk c) (s, {}) chunks
  let r' := streamEnd c r.1
  (r'.1, r.2 ++ r'.2)

/-- **The loop of `streaming_response`**: the metrics at its end and the bytes sent. -/
def streamingResponse (c : Codec) (mode : RequestMode) (backendModel publicModel : Option String)
    (emitUsageToClient : Bool) (chunks : List Bytes) : StreamMetrics × Bytes :=
  streamAll c (SseStrategy.new mode backendModel publicModel emitUsageToClient) chunks

/-! ### Strategies without their parsers -/

namespace SseStrategy

/-- Handle one frame. -/
def handleFrame (s : SseStrategy) (f : SseFrame) : SseStrategy × List SseOut :=
  match s with
  | .native n =>
    let r := n.state.handleFrame f
    (.native { n with state := r.1 }, r.2)
  | .responses n =>
    let r := n.state.handleFrame f
    (.responses { n with state := r.1 }, r.2)
  | .chatCompletions n =>
    let r := n.state.handleFrame f
    (.chatCompletions { n with state := r.1 }, r.2)
  | .anthropicMessages n =>
    let r := n.state.handleFrame f
    (.anthropicMessages { n with state := r.1 }, r.2)
  | .anthropicMessagesToChat n =>
    let r := n.state.handleFrame f
    (.anthropicMessagesToChat { n with state := r.1 }, r.2)

/-- Close the stream. -/
def finishTail (s : SseStrategy) : SseStrategy × List SseOut :=
  match s with
  | .native n =>
    let r := n.state.finishTail
    (.native { n with state := r.1 }, r.2)
  | .responses n =>
    let r := n.state.finishTail
    (.responses { n with state := r.1 }, r.2)
  | .chatCompletions n =>
    let r := n.state.finishTail
    (.chatCompletions { n with state := r.1 }, r.2)
  | .anthropicMessages n =>
    let r := n.state.finishTail
    (.anthropicMessages { n with state := r.1 }, r.2)
  | .anthropicMessagesToChat n =>
    let r := n.state.finishTail
    (.anthropicMessagesToChat { n with state := r.1 }, r.2)

/-- The parser of a strategy. -/
def parser : SseStrategy → SseLineParser
  | .native n => n.parser
  | .responses n => n.parser
  | .chatCompletions n => n.parser
  | .anthropicMessages n => n.parser
  | .anthropicMessagesToChat n => n.parser

/-- The strategy with another parser. -/
def withParser (p : SseLineParser) : SseStrategy → SseStrategy
  | .native n => .native { n with parser := p }
  | .responses n => .responses { n with parser := p }
  | .chatCompletions n => .chatCompletions { n with parser := p }
  | .anthropicMessages n => .anthropicMessages { n with parser := p }
  | .anthropicMessagesToChat n => .anthropicMessagesToChat { n with parser := p }

@[simp] theorem parser_withParser (s : SseStrategy) (p : SseLineParser) :
    (s.withParser p).parser = p := by
  cases s <;> rfl

@[simp] theorem withParser_self (s : SseStrategy) : s.withParser s.parser = s := by
  cases s <;> rfl

@[simp] theorem withParser_withParser (s : SseStrategy) (p p' : SseLineParser) :
    (s.withParser p).withParser p' = s.withParser p' := by
  cases s <;> rfl

@[simp] theorem usage_withParser (s : SseStrategy) (p : SseLineParser) :
    (s.withParser p).usage = s.usage := by
  cases s <;> rfl

@[simp] theorem diagnostics_withParser (s : SseStrategy) (p : SseLineParser) :
    (s.withParser p).diagnostics = s.diagnostics := by
  cases s <;> rfl

@[simp] theorem clear_withParser (s : SseStrategy) (p : SseLineParser) :
    (s.withParser p).clear = s.clear.withParser p := by
  cases s <;> rfl

theorem run_wrap {σ : Type} (h : σ → SseFrame → σ × List SseOut)
    (wrap : Normalizer σ → SseStrategy)
    (hw : ∀ p st f, handleFrame (wrap ⟨p, st⟩) f = (wrap ⟨p, (h st f).1⟩, (h st f).2))
    (n : Normalizer σ) (fs : List SseFrame) :
    Mealy.run handleFrame (wrap n) fs =
      (wrap ⟨n.parser, (Mealy.run h n.state fs).1⟩, (Mealy.run h n.state fs).2) :=
  Mealy.run_map h (fun st => wrap ⟨n.parser, st⟩) (hw n.parser) n.state fs

theorem push_withParser (c : Codec) (s : SseStrategy) (p : SseLineParser) (chunk : Bytes) :
    (s.withParser p).push c chunk =
      ((Mealy.run handleFrame s (p.push c chunk).2).1.withParser (p.push c chunk).1,
        (Mealy.run handleFrame s (p.push c chunk).2).2) := by
  cases s with
  | native n =>
    rw [run_wrap SseNormalizer.handleFrame .native fun _ _ _ => rfl]
    rfl
  | responses n =>
    rw [run_wrap ResponsesSseNormalizer.handleFrame .responses fun _ _ _ => rfl]
    rfl
  | chatCompletions n =>
    rw [run_wrap ChatCompletionsSseNormalizer.handleFrame .chatCompletions fun _ _ _ => rfl]
    rfl
  | anthropicMessages n =>
    rw [run_wrap AnthropicSseNormalizer.handleFrame .anthropicMessages fun _ _ _ => rfl]
    rfl
  | anthropicMessagesToChat n =>
    rw [run_wrap AnthropicMessagesToChatSseNormalizer.handleFrame .anthropicMessagesToChat
      fun _ _ _ => rfl]
    rfl

theorem finish_withParser (c : Codec) (s : SseStrategy) (p : SseLineParser) :
    (s.withParser p).finish c =
      let r := Mealy.run handleFrame s (p.finish c).2
      (r.1.finishTail.1.withParser (p.finish c).1, r.2 ++ r.1.finishTail.2) := by
  cases s with
  | native n =>
    rw [run_wrap SseNormalizer.handleFrame .native fun _ _ _ => rfl]
    rfl
  | responses n =>
    rw [run_wrap ResponsesSseNormalizer.handleFrame .responses fun _ _ _ => rfl]
    rfl
  | chatCompletions n =>
    rw [run_wrap ChatCompletionsSseNormalizer.handleFrame .chatCompletions fun _ _ _ => rfl]
    rfl
  | anthropicMessages n =>
    rw [run_wrap AnthropicSseNormalizer.handleFrame .anthropicMessages fun _ _ _ => rfl]
    rfl
  | anthropicMessagesToChat n =>
    rw [run_wrap AnthropicMessagesToChatSseNormalizer.handleFrame .anthropicMessagesToChat
      fun _ _ _ => rfl]
    rfl

end SseStrategy

/-! ### Groups of lines -/

/-- The frames of the lines that each chunk completes, after some pending bytes. -/
def chunkGroups (c : Codec) : Bytes → List Bytes → List (List SseFrame)
  | _, [] => []
  | pending, a :: chunks => (drainLines (pending ++ a)).1.map (parseSseLine c) ::
      chunkGroups c (drainLines (pending ++ a)).2 chunks

theorem flatten_chunkGroups (c : Codec) {pending : Bytes} (h : nl ∉ pending)
    (chunks : List Bytes) :
    (chunkGroups c pending chunks).flatten = lineFrames c (pending ++ chunks.flatten) := by
  induction chunks generalizing pending with
  | nil => simp [chunkGroups, lineFrames, drainLines_of_not_mem h]
  | cons a chunks ih =>
    rw [chunkGroups, List.flatten_cons, ih (drainLines_rest _), List.flatten_cons,
      ← List.append_assoc, lineFrames, lineFrames, drainLines_append (pending ++ a),
      List.map_append]

theorem exists_map_eq_of_flatten {α β : Type} {f : α → β} {gs : List (List β)} {l : List α}
    (h : gs.flatten = l.map f) :
    ∃ ls : List (List α), ls.flatten = l ∧ ls.map (List.map f) = gs := by
  induction gs generalizing l with
  | nil => exact ⟨[], by simpa using h.symm, rfl⟩
  | cons g gs ih =>
    rw [List.flatten_cons] at h
    obtain ⟨l₁, l₂, rfl, hg, hrest⟩ := List.map_eq_append_iff.mp h.symm
    obtain ⟨ls, rfl, rfl⟩ := ih hrest.symm
    exact ⟨l₁ :: ls, rfl, by rw [List.map_cons, hg]⟩

/-- **Any grouping of the lines of a stream comes from chunks**, with an incomplete last line in a
chunk of its own. -/
theorem exists_chunks (c : Codec) (b : Bytes) {gs : List (List SseFrame)}
    (h : gs.flatten = lineFrames c b) :
    ∃ chunks : List Bytes, chunks.flatten = b ∧ chunkGroups c [] chunks = gs ++ [[]] := by
  obtain ⟨ls, hls, rfl⟩ := exists_map_eq_of_flatten h
  refine ⟨ls.map List.flatten ++ [(drainLines b).2], ?_, ?_⟩
  · rw [List.flatten_append, ← List.flatten_flatten, hls]
    simpa using drainLines_flatten b
  · have hlines : ∀ l ∈ ls.flatten, IsLine l := by rw [hls]; exact drainLines_ends b
    clear hls h
    induction ls with
    | nil => simp [chunkGroups, drainLines_of_not_mem (drainLines_rest b)]
    | cons l ls ih =>
      rw [List.flatten_cons, List.forall_mem_append] at hlines
      have hdrain := drainLines_flatten_append hlines.1 []
      rw [List.append_nil, drainLines_nil, List.append_nil] at hdrain
      rw [List.map_cons, List.cons_append, chunkGroups, List.nil_append, hdrain, ih hlines.2]
      rfl

/-! ### The loop over groups -/

/-- The frames of one chunk. -/
def groupStep (c : Codec) (st : SseStrategy × StreamMetrics) (fs : List SseFrame) :
    (SseStrategy × StreamMetrics) × Bytes :=
  let (strategy, out) := Mealy.run SseStrategy.handleFrame st.1 fs
  let normalized := outBytes c out
  if normalized.isEmpty then ((strategy, st.2), [])
  else ((strategy.clear, st.2.collect strategy), normalized)

/-- The frames left over at the end. -/
def groupEnd (c : Codec) (st : SseStrategy × StreamMetrics) (tail : List SseFrame) :
    StreamMetrics × Bytes :=
  let r := Mealy.run SseStrategy.handleFrame st.1 tail
  let (strategy, out) := r.1.finishTail
  let bytes := outBytes c (r.2 ++ out)
  if bytes.isEmpty then (st.2, []) else (st.2.collect strategy, bytes)

/-- The loop over the groups of frames. -/
def streamGroups (c : Codec) (s : SseStrategy) (gs : List (List SseFrame))
    (tail : List SseFrame) : StreamMetrics × Bytes :=
  let r := Mealy.run (groupStep c) (s, {}) gs
  let r' := groupEnd c r.1 tail
  (r'.1, r.2 ++ r'.2)

theorem streamChunk_withParser (c : Codec) (s : SseStrategy) (m : StreamMetrics)
    (pending chunk : Bytes) :
    streamChunk c (s.withParser ⟨pending⟩, m) chunk =
      let r := groupStep c (s, m) ((drainLines (pending ++ chunk)).1.map (parseSseLine c))
      ((r.1.1.withParser ⟨(drainLines (pending ++ chunk)).2⟩, r.1.2), r.2) := by
  simp only [streamChunk, groupStep, SseStrategy.push_withParser, SseLineParser.push]
  split_ifs
  · rfl
  · simp [StreamMetrics.collect]

theorem run_streamChunk (c : Codec) (s : SseStrategy) (m : StreamMetrics) (pending : Bytes)
    (h : nl ∉ pending) (chunks : List Bytes) :
    Mealy.run (streamChunk c) (s.withParser ⟨pending⟩, m) chunks =
      let r := Mealy.run (groupStep c) (s, m) (chunkGroups c pending chunks)
      ((r.1.1.withParser ⟨(drainLines (pending ++ chunks.flatten)).2⟩, r.1.2), r.2) := by
  induction chunks generalizing s m pending with
  | nil => simp [chunkGroups, drainLines_of_not_mem h]
  | cons a chunks ih =>
    rw [Mealy.run_cons, streamChunk_withParser, chunkGroups, Mealy.run_cons]
    dsimp only
    rw [ih _ _ _ (drainLines_rest _), List.flatten_cons, ← List.append_assoc,
      drainLines_append (pending ++ a)]

theorem streamEnd_withParser (c : Codec) (s : SseStrategy) (m : StreamMetrics) (pending : Bytes) :
    streamEnd c (s.withParser ⟨pending⟩, m) =
      groupEnd c (s, m) (SseLineParser.finish c ⟨pending⟩).2 := by
  simp only [streamEnd, groupEnd, SseStrategy.finish_withParser]
  split_ifs
  · rfl
  · simp [StreamMetrics.collect]

theorem finish_pending (c : Codec) (b : Bytes) :
    (SseLineParser.finish c ⟨(drainLines b).2⟩).2 = tailFrames c b := by
  simp only [SseLineParser.finish, tailFrames]
  split_ifs <;> rfl

/-- **The loop sees the stream only through the groups of its lines.** -/
theorem streamAll_eq (c : Codec) {s : SseStrategy} (h : s.withParser {} = s)
    (chunks : List Bytes) :
    streamAll c s chunks =
      streamGroups c s (chunkGroups c [] chunks) (tailFrames c chunks.flatten) := by
  have hrun := run_streamChunk c s {} [] List.not_mem_nil chunks
  change Mealy.run (streamChunk c) (s.withParser {}, {}) chunks = _ at hrun
  rw [h] at hrun
  rw [streamAll, hrun, streamGroups]
  dsimp only
  rw [streamEnd_withParser, List.nil_append, finish_pending]

theorem new_withParser (mode : RequestMode) (backendModel publicModel : Option String)
    (emit : Bool) :
    (SseStrategy.new mode backendModel publicModel emit).withParser {} =
      SseStrategy.new mode backendModel publicModel emit := by
  cases mode <;> rfl

end Onair
