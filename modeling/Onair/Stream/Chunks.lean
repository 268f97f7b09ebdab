import Onair.Core.Strategy

/-!
# Chunks do not matter to the normalizers

* `lineFrames`, `tailFrames`, `frames`: the frames of a whole byte string;
* `run_pushFrames`, `finish_run_pushFrames`: pushing chunks is handling the frames of their
  concatenation;
* `SseStrategy.runAll_eq`: **a stream may be cut anywhere**;
* `parserFrames_eq`, `frames_lossless`: the parser yields the same frames for every cut, and loses
  no byte.
-/

namespace Onair

open Json Lines

variable (c : Codec)

/-- The frames of the complete lines of a byte string. -/
def lineFrames (b : Bytes) : List SseFrame := (drainLines b).1.map (parseSseLine c)

/-- The frame of what follows the last newline, if anything does. -/
def tailFrames (b : Bytes) : List SseFrame :=
  if (drainLines b).2 = [] then [] else [parseSseLine c (drainLines b).2]

/-- The frames of a byte string. -/
def frames (b : Bytes) : List SseFrame := lineFrames c b ++ tailFrames c b

/-! ### One normalizer -/

section Normalizer

variable {σ : Type} (handle : σ → SseFrame → σ × List SseOut) (tail : σ → σ × List SseOut)

theorem pushFrames_append (n : Normalizer σ) (a b : Bytes) :
    pushFrames c handle n (a ++ b) =
      ((pushFrames c handle (pushFrames c handle n a).1 b).1,
        (pushFrames c handle n a).2 ++ (pushFrames c handle (pushFrames c handle n a).1 b).2) := by
  simp only [pushFrames, SseLineParser.push]
  rw [← List.append_assoc, drainLines_append, List.map_append, Mealy.run_append]

theorem pushFrames_nil {n : Normalizer σ} (h : nl ∉ n.parser.pending) :
    pushFrames c handle n [] = (n, []) := by
  simp only [pushFrames, SseLineParser.push, List.append_nil, drainLines_of_not_mem h,
    List.map_nil, Mealy.run_nil]

/-- **Pushing chunks is pushing their concatenation.** -/
theorem run_pushFrames {n : Normalizer σ} (h : nl ∉ n.parser.pending) (chunks : List Bytes) :
    Mealy.run (pushFrames c handle) n chunks = pushFrames c handle n chunks.flatten := by
  induction chunks generalizing n with
  | nil => rw [List.flatten_nil, pushFrames_nil c handle h, Mealy.run_nil]
  | cons a chunks ih =>
    have h' : nl ∉ (pushFrames c handle n a).1.parser.pending := drainLines_rest _
    rw [List.flatten_cons, Mealy.run_cons, ih h', pushFrames_append]

theorem pushFrames_fresh (s : σ) (b : Bytes) :
    pushFrames c handle { state := s } b =
      (⟨⟨(drainLines b).2⟩, (Mealy.run handle s (lineFrames c b)).1⟩,
        (Mealy.run handle s (lineFrames c b)).2) := rfl

/-- The end of a stream `b` handles its last frame and closes. -/
theorem finishFrames_fresh (s : σ) (b : Bytes) :
    let r := Mealy.run handle s (tailFrames c b)
    finishFrames c handle tail ⟨⟨(drainLines b).2⟩, s⟩ =
      (⟨{}, (tail r.1).1⟩, r.2 ++ (tail r.1).2) := by
  simp only [finishFrames, SseLineParser.finish, tailFrames]
  split_ifs with h
  · rw [h]
  · rfl

/-- **A whole stream**, in any chunks: handle its frames and close. -/
theorem finish_run_pushFrames (s : σ) (chunks : List Bytes) :
    let r := Mealy.run (pushFrames c handle) { state := s } chunks
    let r' := Mealy.run handle s (frames c chunks.flatten)
    (finishFrames c handle tail r.1).1 = ⟨{}, (tail r'.1).1⟩ ∧
      r.2 ++ (finishFrames c handle tail r.1).2 = r'.2 ++ (tail r'.1).2 := by
  have h := run_pushFrames c handle (n := { state := s }) List.not_mem_nil chunks
  rw [pushFrames_fresh] at h
  simp only [h, finishFrames_fresh, frames, Mealy.run_append, List.append_assoc, and_self]

end Normalizer

/-! ### The strategy -/

/-- The frames of a strategy's stream, handled by the normalizer it wraps. -/
def SseStrategy.handleAll (s : SseStrategy) (fs : List SseFrame) : SseStrategy × List SseOut :=
  match s with
  | .native n =>
    let r := Mealy.run SseNormalizer.handleFrame n.state fs
    let r' := r.1.finishTail
    (.native { state := r'.1 }, r.2 ++ r'.2)
  | .responses n =>
    let r := Mealy.run ResponsesSseNormalizer.handleFrame n.state fs
    let r' := r.1.finishTail
    (.responses { state := r'.1 }, r.2 ++ r'.2)
  | .chatCompletions n =>
    let r := Mealy.run ChatCompletionsSseNormalizer.handleFrame n.state fs
    let r' := r.1.finishTail
    (.chatCompletions { state := r'.1 }, r.2 ++ r'.2)
  | .anthropicMessages n =>
    let r := Mealy.run AnthropicSseNormalizer.handleFrame n.state fs
    let r' := r.1.finishTail
    (.anthropicMessages { state := r'.1 }, r.2 ++ r'.2)
  | .anthropicMessagesToChat n =>
    let r := Mealy.run AnthropicMessagesToChatSseNormalizer.handleFrame n.state fs
    let r' := r.1.finishTail
    (.anthropicMessagesToChat { state := r'.1 }, r.2 ++ r'.2)

/-- **A stream may be cut anywhere**: a run of a fresh strategy handles the frames of the whole
stream, whatever its chunks. -/
theorem SseStrategy.runAll_eq (mode : RequestMode) (backendModel publicModel : Option String)
    (emit : Bool) (chunks : List Bytes) :
    (new mode backendModel publicModel emit).runAll c chunks =
      (new mode backendModel publicModel emit).handleAll (frames c chunks.flatten) := by
  cases mode <;> simp only [new, runAll, pushAll]
  case native =>
    rw [Mealy.run_map (pushFrames c SseNormalizer.handleFrame)
      SseStrategy.native (fun _ _ => rfl)]
    have h := finish_run_pushFrames c SseNormalizer.handleFrame SseNormalizer.finishTail
      { observer := { backendModel, publicModel }, emitUsageToClient := emit } chunks
    simp only [finish, handleAll, h]
  case responsesViaChatCompletions =>
    rw [Mealy.run_map (pushFrames c ResponsesSseNormalizer.handleFrame)
      SseStrategy.responses (fun _ _ => rfl)]
    have h := finish_run_pushFrames c ResponsesSseNormalizer.handleFrame
      ResponsesSseNormalizer.finishTail { observer := { backendModel, publicModel } } chunks
    simp only [finish, handleAll, h]
  case chatCompletionsViaResponses =>
    rw [Mealy.run_map (pushFrames c ChatCompletionsSseNormalizer.handleFrame)
      SseStrategy.chatCompletions (fun _ _ => rfl)]
    have h := finish_run_pushFrames c ChatCompletionsSseNormalizer.handleFrame
      ChatCompletionsSseNormalizer.finishTail
      { observer := { backendModel, publicModel }, stream := { emitUsageToClient := emit } } chunks
    simp only [finish, handleAll, h]
  case chatCompletionsViaMessages =>
    rw [Mealy.run_map (pushFrames c AnthropicMessagesToChatSseNormalizer.handleFrame)
      SseStrategy.anthropicMessagesToChat (fun _ _ => rfl)]
    have h := finish_run_pushFrames c AnthropicMessagesToChatSseNormalizer.handleFrame
      AnthropicMessagesToChatSseNormalizer.finishTail
      { observer := { backendModel, publicModel }, stream := { emitUsageToClient := emit } } chunks
    simp only [finish, handleAll, h]
  case anthropicMessagesNative =>
    rw [Mealy.run_map (pushFrames c AnthropicSseNormalizer.handleFrame)
      SseStrategy.anthropicMessages (fun _ _ => rfl)]
    have h := finish_run_pushFrames c AnthropicSseNormalizer.handleFrame
      AnthropicSseNormalizer.finishTail { backendModel, publicModel } chunks
    simp only [finish, handleAll, h]

/-! ### The parser alone -/

/-- The frames the parser yields over all chunks and at the end. -/
def parserFrames (chunks : List Bytes) : List SseFrame :=
  let r := Mealy.run (SseLineParser.push c) {} chunks
  r.2 ++ (r.1.finish c).2

theorem run_parserPush {p : SseLineParser} (h : nl ∉ p.pending) (chunks : List Bytes) :
    Mealy.run (SseLineParser.push c) p chunks =
      (⟨(drainLines (p.pending ++ chunks.flatten)).2⟩,
        (drainLines (p.pending ++ chunks.flatten)).1.map (parseSseLine c)) := by
  induction chunks generalizing p with
  | nil => rw [List.flatten_nil, List.append_nil, drainLines_of_not_mem h]; rfl
  | cons a chunks ih =>
    rw [Mealy.run_cons, SseLineParser.push]
    dsimp only
    rw [ih (drainLines_rest _), List.flatten_cons, ← List.append_assoc,
      drainLines_append (p.pending ++ a), List.map_append]

theorem parserFrames_eq (chunks : List Bytes) :
    parserFrames c chunks = frames c chunks.flatten := by
  rw [parserFrames, run_parserPush c List.not_mem_nil]
  simp only [SseLineParser.finish, List.nil_append, frames, lineFrames, tailFrames]
  split_ifs <;> rfl

theorem frames_lossless (b : Bytes) : ((frames c b).map SseFrame.line).flatten = b := by
  have h := drainLines_flatten b
  simp only [frames, lineFrames, tailFrames]
  split_ifs with hr
  · simpa [List.map_map, Function.comp_def, hr] using h
  · simpa [List.map_map, Function.comp_def] using h

theorem lineFrames_ends (b : Bytes) {f : SseFrame} (hf : f ∈ lineFrames c b) : IsLine f.line := by
  obtain ⟨l, hl, rfl⟩ := List.mem_map.mp hf
  rw [parseSseLine_line]
  exact drainLines_ends b l hl

theorem frames_dropLast (b : Bytes) {f : SseFrame} (hf : f ∈ (frames c b).dropLast) :
    f ∈ lineFrames c b := by
  simp only [frames, tailFrames] at hf
  split_ifs at hf
  · rw [List.append_nil] at hf
    exact List.mem_of_mem_dropLast hf
  · rwa [List.dropLast_concat] at hf

/-- **The SSE layer alone is chunk-invariant and lossless.** -/
theorem sse_chunk_invariant (mode : RequestMode) (backendModel publicModel : Option String)
    (emitUsageToClient : Bool) (chunks : List Bytes) :
    let s := SseStrategy.new mode backendModel publicModel emitUsageToClient
    let r := s.runAll c chunks
    let r₁ := s.runAll c [chunks.flatten]
    (outBytes c r.2 = outBytes c r₁.2 ∧ r.1.usage = r₁.1.usage ∧
      r.1.diagnostics = r₁.1.diagnostics) ∧
    ((parserFrames c chunks).map SseFrame.line).flatten = chunks.flatten ∧
      ∀ f ∈ (parserFrames c chunks).dropLast, f.line.getLast? = some nl := by
  have hone : [chunks.flatten].flatten = chunks.flatten := by simp
  refine ⟨?_, ?_, fun f hf => ?_⟩
  · simp only [SseStrategy.runAll_eq, hone, and_self]
  · rw [parserFrames_eq, frames_lossless]
  · rw [parserFrames_eq] at hf
    obtain ⟨a, -, ha⟩ := lineFrames_ends c _ (frames_dropLast c _ hf)
    rw [ha, List.getLast?_concat]

end Onair
