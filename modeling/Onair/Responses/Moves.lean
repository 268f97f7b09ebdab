import Onair.Stream.Chunks

/-!
# The moves of a Responses stream

Everything `ResponsesSseNormalizer` does to its response is a sequence of five kinds of moves.

* `Move`, `ResponsesStream.step`: a move, and what it emits;
* `frameMoves`, `streamMoves`: the moves of the frames of a stream;
* `events_run_handleFrame`, `events_runAll`: **the normalizer's events are those of its moves**;
* `exists_first_finish`: a stream splits at the move that completes the response.
-/

namespace Onair

open Json

/-- A move of a response under construction. -/
inductive Move where
  /-- Take the metadata of a chunk. -/
  | metadata (chunk : Value)
  /-- Open the response. -/
  | start (usage : UsageTotals)
  /-- Append text. -/
  | text (text : String)
  /-- A tool call delta. -/
  | tool (toolCall : Value)
  /-- Complete the response. -/
  | finish (usage : UsageTotals)

/-- The move completes the response. -/
def Move.isFinish : Move → Bool
  | .finish _ => true
  | _ => false

namespace ResponsesStream

/-- One move. -/
def step (s : ResponsesStream) : Move → ResponsesStream × List ResponsesEvent
  | .metadata chunk => (s.setChunkMetadata chunk, [])
  | .start usage => s.startResponseEvents usage
  | .text text => s.processContent (some text)
  | .tool toolCall => s.processToolCallDelta toolCall
  | .finish usage => s.finishResponse usage

end ResponsesStream

/-! ### The moves of a frame -/

/-- The moves of a `delta`. -/
def deltaMoves (delta : List (String × Value)) : List Move :=
  (match (OrdMap.get "content" delta).bind Value.asStr with
    | some text => if text = "" then [] else [.text text]
    | none => []) ++
  (((OrdMap.get "tool_calls" delta).bind Value.asArray).getD []).map .tool

/-- The moves of a choice. -/
def choiceMoves (usage : UsageTotals) (choice : Value) : List Move :=
  (match (choice.get "delta").bind Value.asObject with
    | some delta => deltaMoves delta
    | none => []) ++
  (if ResponsesStream.choiceFinishes choice then [.finish usage] else [])

/-- The moves of a chunk. -/
def chunkMoves (usage : UsageTotals) (chunk : Value) : List Move :=
  [.metadata chunk, .start usage] ++
    (ResponsesStream.chunkChoices chunk).flatMap (choiceMoves usage)

/-- The moves of a frame, for what was observed before it. -/
def frameMoves (o : SseObserver) : SseFrame → List Move
  | .data value _ _ =>
    chunkMoves (o.applyDataPrologue value).1.usage (o.applyDataPrologue value).2.1
  | .done _ => [.finish o.usage]
  | _ => []

/-- The observer after a frame. -/
def SseObserver.observe (o : SseObserver) : SseFrame → SseObserver
  | .event name _ => o.observeEvent name
  | .data value _ _ => (o.applyDataPrologue value).1
  | .dataUnparseable _ | .done _ => o.clearEvent
  | .passThrough _ => o

/-- The moves of the frames of a stream. -/
def streamMoves (o : SseObserver) : List SseFrame → List Move
  | [] => []
  | f :: fs => frameMoves o f ++ streamMoves (o.observe f) fs

/-- The observer after the frames of a stream. -/
def SseObserver.observeAll (o : SseObserver) (fs : List SseFrame) : SseObserver :=
  fs.foldl SseObserver.observe o

namespace ResponsesStream

theorem run_deltaMoves (s : ResponsesStream) (delta : List (String × Value)) :
    Mealy.run step s (deltaMoves delta) = s.processDelta delta := by
  have htool : ∀ (s : ResponsesStream) (calls : List Value),
      Mealy.run step s (calls.map .tool) = Mealy.run processToolCallDelta s calls := by
    intro s calls
    induction calls generalizing s with
    | nil => rfl
    | cons v calls ih => rw [List.map_cons, Mealy.run_cons, ih]; rfl
  rw [deltaMoves, Mealy.run_append, processDelta]
  cases h : (OrdMap.get "content" delta).bind Value.asStr with
  | none => simp only [Mealy.run_nil, htool, processContent]
  | some text =>
    by_cases ht : text = ""
    · simp only [ht, if_true, Mealy.run_nil, htool, processContent]
    · simp only [ht, if_false, Mealy.run_singleton, htool, step]

theorem run_choiceMoves (usage : UsageTotals) (s : ResponsesStream) (choice : Value) :
    Mealy.run step s (choiceMoves usage choice) = s.processChoice usage choice := by
  rw [choiceMoves, Mealy.run_append, processChoice]
  cases h : (choice.get "delta").bind Value.asObject with
  | none => by_cases hf : choiceFinishes choice <;> simp [hf, step]
  | some delta => by_cases hf : choiceFinishes choice <;> simp [hf, step, run_deltaMoves]

/-- **A chunk is its moves.** -/
theorem run_chunkMoves (usage : UsageTotals) (s : ResponsesStream) (chunk : Value) :
    Mealy.run step s (chunkMoves usage chunk) = s.processChatChunk usage chunk := by
  have hch : ∀ (s : ResponsesStream) (choices : List Value),
      Mealy.run step s (choices.flatMap (choiceMoves usage)) =
        Mealy.run (processChoice usage) s choices := by
    intro s choices
    induction choices generalizing s with
    | nil => rfl
    | cons v choices ih =>
      rw [List.flatMap_cons, Mealy.run_append, run_choiceMoves, ih, Mealy.run_cons]
  rw [chunkMoves, Mealy.run_append, hch, processChatChunk]
  simp [Mealy.run_cons, step]

end ResponsesStream

/-! ### The normalizer -/

namespace ResponsesSseNormalizer

theorem handleFrame_spec (n : ResponsesSseNormalizer) (f : SseFrame) :
    let r := Mealy.run ResponsesStream.step n.stream (frameMoves n.observer f)
    (n.handleFrame f).1 = { observer := n.observer.observe f, stream := r.1 } ∧
      events (n.handleFrame f).2 = r.2 := by
  cases f with
  | data value leadingSpace line =>
    simp [handleFrame, handleData, frameMoves, SseObserver.observe,
      ResponsesStream.run_chunkMoves]
  | done line =>
    simp [handleFrame, finishTail, frameMoves, SseObserver.observe, ResponsesStream.step,
      SseObserver.clearEvent]
  | _ => simp [handleFrame, frameMoves, SseObserver.observe]

/-- **The normalizer's events are those of its moves.** -/
theorem events_run_handleFrame (n : ResponsesSseNormalizer) (fs : List SseFrame) :
    let r := Mealy.run ResponsesStream.step n.stream (streamMoves n.observer fs)
    (Mealy.run handleFrame n fs).1 = { observer := n.observer.observeAll fs, stream := r.1 } ∧
      events (Mealy.run handleFrame n fs).2 = r.2 := by
  induction fs generalizing n with
  | nil => exact ⟨rfl, rfl⟩
  | cons f fs ih =>
    obtain ⟨h1, h2⟩ := n.handleFrame_spec f
    have h3 := ih (n.handleFrame f).1
    rw [h1] at h3
    rw [Mealy.run_cons, streamMoves, Mealy.run_append, events_append, h1, h2]
    exact ⟨h3.1, by rw [h3.2]⟩

end ResponsesSseNormalizer

/-- The moves of a whole stream: those of its frames, then the completion at its end. -/
def responsesMoves (c : Codec) (backendModel publicModel : Option String) (b : Bytes) :
    List Move :=
  let o : SseObserver := { backendModel, publicModel }
  streamMoves o (frames c b) ++ [.finish (o.observeAll (frames c b)).usage]

/-- The Responses events a client is sent for an upstream stream in the given chunks. -/
def responsesEvents (c : Codec) (backendModel publicModel : Option String) (emit : Bool)
    (chunks : List Bytes) : List ResponsesEvent :=
  events ((SseStrategy.new .responsesViaChatCompletions backendModel publicModel emit).runAll c
    chunks).2

theorem responsesEvents_eq (c : Codec) (backendModel publicModel : Option String) (emit : Bool)
    (chunks : List Bytes) :
    responsesEvents c backendModel publicModel emit chunks =
      (Mealy.run ResponsesStream.step {}
        (responsesMoves c backendModel publicModel chunks.flatten)).2 := by
  obtain ⟨h1, h2⟩ := ResponsesSseNormalizer.events_run_handleFrame
    { observer := { backendModel, publicModel } } (frames c chunks.flatten)
  rw [responsesEvents, SseStrategy.runAll_eq]
  simp only [SseStrategy.new, SseStrategy.handleAll, events_append, h2]
  rw [h1, responsesMoves, Mealy.run_append, Mealy.run_singleton]
  simp [ResponsesSseNormalizer.finishTail, ResponsesStream.step]

/-! ### Completion -/

theorem exists_first_finish {ms : List Move} (h : ∃ m ∈ ms, m.isFinish = true) :
    ∃ before usage after, ms = before ++ .finish usage :: after ∧
      ∀ m ∈ before, m.isFinish = false := by
  induction ms with
  | nil => simp at h
  | cons m ms ih =>
    cases hm : m.isFinish with
    | true =>
      cases m with
      | finish usage => exact ⟨[], usage, ms, rfl, by simp⟩
      | _ => simp [Move.isFinish] at hm
    | false =>
      have hms : ∃ m ∈ ms, m.isFinish = true := by
        obtain ⟨m', hm', ht⟩ := h
        rcases List.mem_cons.mp hm' with rfl | hm'
        · rw [hm] at ht; exact absurd ht (by decide)
        · exact ⟨m', hm', ht⟩
      obtain ⟨before, usage, after, rfl, hb⟩ := ih hms
      exact ⟨m :: before, usage, after, rfl, List.forall_mem_cons.mpr ⟨hm, hb⟩⟩

end Onair
