import Onair.Core.Rewritten
import Onair.Proxy.Stream
import Onair.Responses.Lifecycle

/-!
# What the client sees of the counters

The loop resets the counters of a strategy whenever it sends something, but two of the normalizers
put them into what they send. A letter is a frame, or `none` for the end of the stream.

* `Move.withUsage`, `run_withUsage_out`: moves that neither open nor complete a response emit the
  same for every usage;
* `ResponsesSseNormalizer.ReportsUsage`, `handleLetter_withCounts_out`, `handleLetter_bytes_iff`:
  only the letter that completes a response depends on the counters, and how;
* `AnthropicMessagesToChatSseNormalizer.ReportsUsage`, `exists_letterSpec`,
  `usageFrames_bytes_iff`: the same for the normalizer of Anthropic messages.
-/

namespace Onair

open Json Lines

/-! ### Counters of an observer -/

namespace SseObserver

/-- The observer with other counters. -/
def withCounts (u : UsageTotals) (d : UsageDiagnostics) (o : SseObserver) : SseObserver :=
  { o with usage := u, diagnostics := d }

@[simp] theorem withCounts_usage (u : UsageTotals) (d : UsageDiagnostics) (o : SseObserver) :
    (o.withCounts u d).usage = u := rfl

@[simp] theorem withCounts_diagnostics (u : UsageTotals) (d : UsageDiagnostics) (o : SseObserver) :
    (o.withCounts u d).diagnostics = d := rfl

@[simp] theorem withCounts_withCounts (u u' : UsageTotals) (d d' : UsageDiagnostics)
    (o : SseObserver) : (o.withCounts u' d').withCounts u d = o.withCounts u d := rfl

@[simp] theorem withCounts_self (o : SseObserver) :
    o.withCounts o.usage o.diagnostics = o := rfl

@[simp] theorem rewriteModels_withCounts (u : UsageTotals) (d : UsageDiagnostics)
    (o : SseObserver) (v : Value) : (o.withCounts u d).rewriteModels v = o.rewriteModels v := rfl

/-- Counters have no part in the prologue but to be counted up. -/
theorem applyDataPrologue_withCounts (u : UsageTotals) (d : UsageDiagnostics) (o : SseObserver)
    (v : Value) : ∃ d', (o.withCounts u d).applyDataPrologue v =
      ((o.applyDataPrologue v).1.withCounts (u + (extractUsageObservation v).totals) d',
        (o.applyDataPrologue v).2) :=
  ⟨_, rfl⟩

end SseObserver

/-! ### Bytes of events and frames -/

theorem bytes_event_ne_nil (c : Codec) (e : ResponsesEvent) : (SseOut.event e).bytes c ≠ [] := by
  intro h
  simp only [SseOut.bytes, sseEvent, List.append_eq_nil_iff] at h
  exact absurd h.1.1.1.1.1 (by decide)

theorem bytes_chat_ne_nil (c : Codec) (f : ChatFrame) : (SseOut.chat f).bytes c ≠ [] := by
  intro h
  simp only [SseOut.bytes] at h
  split at h
  · simp only [sseData, List.append_eq_nil_iff] at h
    exact absurd h.1.1 (by decide)
  · exact absurd h (by decide)

/-! ### Moves with other counters -/

/-- The move with another usage. -/
def Move.withUsage (u : UsageTotals) : Move → Move
  | .start _ => .start u
  | .finish _ => .finish u
  | m => m

/-- The move opens the response. -/
def Move.isStart : Move → Bool
  | .start _ => true
  | _ => false

@[simp] theorem Move.isFinish_withUsage (u : UsageTotals) (m : Move) :
    (m.withUsage u).isFinish = m.isFinish := by
  cases m <;> rfl

@[simp] theorem Move.isStart_withUsage (u : UsageTotals) (m : Move) :
    (m.withUsage u).isStart = m.isStart := by
  cases m <;> rfl

@[simp] theorem Move.withUsage_withUsage (u u' : UsageTotals) (m : Move) :
    (m.withUsage u').withUsage u = m.withUsage u := by
  cases m <;> rfl

theorem chunkMoves_withUsage (u u' : UsageTotals) (chunk : Value) :
    (chunkMoves u' chunk).map (Move.withUsage u) = chunkMoves u chunk := by
  have hdelta : ∀ delta, (deltaMoves delta).map (Move.withUsage u) = deltaMoves delta := by
    intro delta
    have htool : ∀ l : List Value, (l.map Move.tool).map (Move.withUsage u) = l.map Move.tool :=
      fun l => by rw [List.map_map]; rfl
    unfold deltaMoves
    rw [List.map_append, htool]
    congr 1
    cases (OrdMap.get "content" delta).bind Value.asStr with
    | none => rfl
    | some text =>
      dsimp only
      split_ifs <;> rfl
  have hchoice : ∀ choice,
      (choiceMoves u' choice).map (Move.withUsage u) = choiceMoves u choice := by
    intro choice
    unfold choiceMoves
    rw [List.map_append]
    congr 1
    · cases (choice.get "delta").bind Value.asObject with
      | none => rfl
      | some delta => exact hdelta delta
    · split_ifs <;> rfl
  unfold chunkMoves
  rw [List.map_append, List.map_flatMap]
  simp only [hchoice]
  rfl

namespace ResponsesStream

theorem responseStarted_startResponseEvents (u : UsageTotals) (s : ResponsesStream) :
    (s.startResponseEvents u).1.responseStarted = true := by
  unfold startResponseEvents
  split_ifs with h
  · exact h
  · rfl

theorem completed_step_open (s : ResponsesStream) {m : Move} (hm : m.isFinish = false) :
    (s.step m).1.completed = s.completed := by
  cases m with
  | metadata chunk =>
    obtain ⟨_, _, _, _, heq, -⟩ := s.setChunkMetadata_spec chunk
    rw [step, heq]
  | start usage =>
    rw [step, startResponseEvents]
    split_ifs <;> rfl
  | text text =>
    by_cases htext : text = ""
    · rw [step, processContent, if_pos htext]
    · rw [step, processContent_some htext]
  | tool toolCall => rfl
  | finish usage => exact absurd hm (by simp [Move.isFinish])

theorem completed_run_open {s : ResponsesStream} {ms : List Move}
    (hms : ∀ m ∈ ms, m.isFinish = false) :
    (Mealy.run step s ms).1.completed = s.completed := by
  induction ms generalizing s with
  | nil => rfl
  | cons m ms ih =>
    rw [Mealy.run_cons, ih fun m hm => hms m (List.mem_cons_of_mem _ hm),
      completed_step_open s (hms m List.mem_cons_self)]

theorem responseStarted_step_of_not_start (s : ResponsesStream) {m : Move}
    (hm : m.isStart = false) : (s.step m).1.responseStarted = s.responseStarted := by
  cases m with
  | metadata chunk =>
    obtain ⟨_, _, _, _, heq, -⟩ := s.setChunkMetadata_spec chunk
    rw [step, heq]
  | start usage => exact absurd hm (by simp [Move.isStart])
  | text text =>
    by_cases htext : text = ""
    · rw [step, processContent, if_pos htext]
    · rw [step, processContent_some htext]
  | tool toolCall => rfl
  | finish usage =>
    rw [step, finishResponse]
    split_ifs <;> rfl

theorem step_withUsage_state (u : UsageTotals) (s : ResponsesStream) (m : Move) :
    (s.step (m.withUsage u)).1 = (s.step m).1 := by
  cases m with
  | start usage =>
    simp only [Move.withUsage, step, startResponseEvents]
    split_ifs <;> rfl
  | finish usage =>
    simp only [Move.withUsage, step, finishResponse]
    split_ifs <;> rfl
  | _ => rfl

theorem run_withUsage_state (u : UsageTotals) (s : ResponsesStream) (ms : List Move) :
    (Mealy.run step s (ms.map (Move.withUsage u))).1 = (Mealy.run step s ms).1 := by
  induction ms generalizing s with
  | nil => rfl
  | cons m ms ih => rw [List.map_cons, Mealy.run_cons, Mealy.run_cons, step_withUsage_state, ih]

/-- Moves that neither open nor complete the response emit the same whatever their usage. -/
theorem run_withUsage_out (u : UsageTotals) {s : ResponsesStream} {ms : List Move}
    (hstart : s.responseStarted = true ∨ ∀ m ∈ ms, m.isStart = false)
    (hfinish : s.completed = true ∨ ∀ m ∈ ms, m.isFinish = false) :
    (Mealy.run step s (ms.map (Move.withUsage u))).2 = (Mealy.run step s ms).2 := by
  induction ms generalizing s with
  | nil => rfl
  | cons m ms ih =>
    have hm : (s.step (m.withUsage u)).2 = (s.step m).2 := by
      cases m with
      | start usage =>
        rcases hstart with h | h
        · simp [Move.withUsage, step, startResponseEvents, h]
        · exact absurd (h _ List.mem_cons_self) (by simp [Move.isStart])
      | finish usage =>
        rcases hfinish with h | h
        · simp [Move.withUsage, step, finishResponse, h]
        · exact absurd (h _ List.mem_cons_self) (by simp [Move.isFinish])
      | _ => rfl
    rw [List.map_cons, Mealy.run_cons, Mealy.run_cons, step_withUsage_state, hm, ih]
    · exact hstart.imp (fun h => responseStarted_step h m)
        fun h m' hm' => h m' (List.mem_cons_of_mem _ hm')
    · exact hfinish.imp (fun h => (step_completed h m).1)
        fun h m' hm' => h m' (List.mem_cons_of_mem _ hm')

end ResponsesStream

/-! ### Letters of the Responses normalizer -/

/-- The usage of a `data:` frame. -/
def SseFrame.usage : SseFrame → UsageTotals
  | .data value _ _ => (extractUsageObservation value).totals
  | _ => 0

/-- The usage of a letter; the end of the stream has none. -/
def letterUsage (l : Option SseFrame) : UsageTotals := (l.map SseFrame.usage).getD 0

/-- The moves of a letter: those of a frame, and the completion at the end. -/
def letterMoves (o : SseObserver) : Option SseFrame → List Move
  | some f => frameMoves o f
  | none => [.finish o.usage]

/-- The observer after a letter. -/
def SseObserver.observeLetter (o : SseObserver) : Option SseFrame → SseObserver
  | some f => o.observe f
  | none => o

/-- The line that is sent on with the events of a letter. -/
def sentOn : Option SseFrame → List SseOut
  | some (.data _ _ _) => []
  | some f => [.line f.line]
  | none => []

theorem letterMoves_withCounts (u : UsageTotals) (d : UsageDiagnostics) (o : SseObserver)
    (l : Option SseFrame) :
    letterMoves (o.withCounts u d) l =
      (letterMoves o l).map (Move.withUsage (u + letterUsage l)) := by
  cases l with
  | none => simp [letterMoves, letterUsage, Move.withUsage]
  | some f =>
    cases f with
    | data value leadingSpace line =>
      simp only [letterMoves, frameMoves, chunkMoves_withUsage]
      rfl
    | done line => simp [letterMoves, frameMoves, letterUsage, SseFrame.usage, Move.withUsage]
    | _ => rfl

theorem usage_observeLetter (o : SseObserver) (l : Option SseFrame) :
    (o.observeLetter l).usage = o.usage + letterUsage l := by
  cases l with
  | none => simp [SseObserver.observeLetter, letterUsage]
  | some f =>
    cases f <;> simp [SseObserver.observeLetter, SseObserver.observe, letterUsage, SseFrame.usage,
      SseObserver.observeEvent, SseObserver.clearEvent, SseObserver.applyDataPrologue]

theorem observeLetter_withCounts (u : UsageTotals) (d : UsageDiagnostics) (o : SseObserver)
    (l : Option SseFrame) : ∃ u' d', (o.withCounts u d).observeLetter l =
      (o.observeLetter l).withCounts u' d' := by
  cases l with
  | none => exact ⟨u, d, rfl⟩
  | some f => cases f <;> exact ⟨_, _, rfl⟩

namespace ResponsesSseNormalizer

/-- One letter. -/
def handleLetter (n : ResponsesSseNormalizer) :
    Option SseFrame → ResponsesSseNormalizer × List SseOut
  | some f => n.handleFrame f
  | none => n.finishTail

/-- **A letter is its moves**, and a line sent on. -/
theorem handleLetter_eq (n : ResponsesSseNormalizer) (l : Option SseFrame) :
    let r := Mealy.run ResponsesStream.step n.stream (letterMoves n.observer l)
    n.handleLetter l = ({ observer := n.observer.observeLetter l, stream := r.1 },
      r.2.map .event ++ sentOn l) := by
  cases l with
  | none =>
    simp [handleLetter, letterMoves, SseObserver.observeLetter, sentOn, finishTail,
      ResponsesStream.step]
  | some f =>
    cases f with
    | data value leadingSpace line =>
      simp [handleLetter, handleFrame, handleData, letterMoves, frameMoves,
        SseObserver.observeLetter, SseObserver.observe, sentOn, ResponsesStream.run_chunkMoves]
    | done line =>
      simp [handleLetter, handleFrame, finishTail, letterMoves, frameMoves,
        SseObserver.observeLetter, SseObserver.observe, sentOn, ResponsesStream.step,
        SseObserver.clearEvent, SseFrame.line]
    | _ =>
      simp [handleLetter, handleFrame, letterMoves, frameMoves, SseObserver.observeLetter,
        SseObserver.observe, sentOn, SseFrame.line]

/-- The letter completes the response. -/
def ReportsUsage (n : ResponsesSseNormalizer) (l : Option SseFrame) : Prop :=
  n.stream.completed = false ∧ ∃ m ∈ letterMoves n.observer l, m.isFinish = true

instance (n : ResponsesSseNormalizer) (l : Option SseFrame) : Decidable (n.ReportsUsage l) :=
  inferInstanceAs (Decidable (_ ∧ ∃ m ∈ _, _))

/-- Usage is counted only once the response is opened. -/
def Opened (n : ResponsesSseNormalizer) : Prop :=
  n.stream.responseStarted = false → n.observer.usage = 0

/-- The normalizer with other counters. -/
def withCounts (u : UsageTotals) (d : UsageDiagnostics) (n : ResponsesSseNormalizer) :
    ResponsesSseNormalizer :=
  { n with observer := n.observer.withCounts u d }

theorem reportsUsage_withCounts (u : UsageTotals) (d : UsageDiagnostics)
    (n : ResponsesSseNormalizer) (l : Option SseFrame) :
    (n.withCounts u d).ReportsUsage l ↔ n.ReportsUsage l := by
  simp [ReportsUsage, withCounts, letterMoves_withCounts]

theorem handleLetter_withCounts_state (u : UsageTotals) (d : UsageDiagnostics)
    (n : ResponsesSseNormalizer) (l : Option SseFrame) :
    ∃ u' d', ((n.withCounts u d).handleLetter l).1 = (n.handleLetter l).1.withCounts u' d' := by
  obtain ⟨u', d', h⟩ := observeLetter_withCounts u d n.observer l
  refine ⟨u', d', ?_⟩
  rw [handleLetter_eq, handleLetter_eq]
  simp only [withCounts, h, letterMoves_withCounts, ResponsesStream.run_withUsage_state]

theorem opened_handleLetter {n : ResponsesSseNormalizer} (h : n.Opened) (l : Option SseFrame) :
    (n.handleLetter l).1.Opened := by
  rw [handleLetter_eq]
  intro hstarted
  dsimp only at hstarted ⊢
  rw [usage_observeLetter]
  have hn : n.stream.responseStarted = false := by
    by_contra hne
    have hkeep := Mealy.run_inv (fun s : ResponsesStream => s.responseStarted = true)
      (fun s m hs => ResponsesStream.responseStarted_step hs m) (by simpa using hne)
      (letterMoves n.observer l)
    rw [hstarted] at hkeep
    exact absurd hkeep (by decide)
  rw [h hn, zero_add]
  cases l with
  | none => rfl
  | some f =>
    cases f with
    | data value leadingSpace line =>
      -- A chunk opens the response, and it stays opened.
      have hopen : (Mealy.run ResponsesStream.step n.stream
          (letterMoves n.observer (some (.data value leadingSpace line)))).1.responseStarted =
          true := by
        rw [letterMoves, frameMoves, chunkMoves, Mealy.run_append]
        refine Mealy.run_inv (fun s : ResponsesStream => s.responseStarted = true)
          (fun s m hs => ResponsesStream.responseStarted_step hs m) ?_ _
        rw [Mealy.run_cons, Mealy.run_singleton]
        exact ResponsesStream.responseStarted_startResponseEvents _ _
      rw [hopen] at hstarted
      exact absurd hstarted (by decide)
    | _ => rfl

/-- Before the response is opened the counters are the same. -/
theorem withCounts_of_not_started {n : ResponsesSseNormalizer} (h : n.Opened) {u : UsageTotals}
    {d : UsageDiagnostics} (h' : (n.withCounts u d).Opened)
    (hn : n.stream.responseStarted = false) : u = n.observer.usage :=
  (h' hn).trans (h hn).symm

theorem letterMoves_self (o : SseObserver) (l : Option SseFrame) :
    letterMoves o l = (letterMoves o l).map (Move.withUsage (o.usage + letterUsage l)) := by
  conv_lhs => rw [← o.withCounts_self, letterMoves_withCounts]

/-- **A letter that does not complete the response sends the same whatever the counters.** -/
theorem handleLetter_withCounts_out {n : ResponsesSseNormalizer} (h : n.Opened) {u : UsageTotals}
    {d : UsageDiagnostics} (h' : (n.withCounts u d).Opened) {l : Option SseFrame}
    (hl : ¬n.ReportsUsage l) :
    ((n.withCounts u d).handleLetter l).2 = (n.handleLetter l).2 := by
  have hrun : (Mealy.run ResponsesStream.step n.stream
      ((letterMoves n.observer l).map (Move.withUsage (u + letterUsage l)))).2 =
      (Mealy.run ResponsesStream.step n.stream (letterMoves n.observer l)).2 := by
    cases hn : n.stream.responseStarted with
    | false => rw [withCounts_of_not_started h h' hn, ← letterMoves_self]
    | true =>
      refine ResponsesStream.run_withUsage_out _ (.inl hn) ?_
      by_cases hc : n.stream.completed = true
      · exact .inl hc
      · refine .inr fun m hm => ?_
        by_contra hf
        exact hl ⟨by simpa using hc, m, hm, by simpa using hf⟩
  rw [handleLetter_eq, handleLetter_eq]
  simp only [withCounts, letterMoves_withCounts, hrun]

end ResponsesSseNormalizer

/-- What a response object says of the usage. -/
def responseReport (u : UsageTotals) : List UInt64 :=
  [u.input, u.cachedInput, u.output, u.reasoningOutput, u.reportedTotal]

/-- A response object is sent in the same bytes if and only if it says the same of the usage. -/
theorem completed_bytes_iff {c : Codec} (hc : c.Lawful) (r : ResponseObject) (u u' : UsageTotals) :
    (SseOut.event (.completed { r with usage := u })).bytes c =
        (SseOut.event (.completed { r with usage := u' })).bytes c ↔
      responseReport u = responseReport u' := by
  constructor
  · intro h
    simp only [SseOut.bytes, sseEvent, ResponsesEvent.eventType, List.append_cancel_left_eq,
      List.append_cancel_right_eq] at h
    have hfits := fun u => ResponsesEvent.fits_data (.completed { r with usage := u })
    have hblur := hc.print_inj (hfits u).1 (hfits u').1 ((hfits u).2.trans (by decide)) h
    have hcount : ∀ path, (ResponsesEvent.completed { r with usage := u }).data.countAt path =
        (ResponsesEvent.completed { r with usage := u' }).data.countAt path := by
      intro path
      rw [← Value.countAt_blur, hblur, Value.countAt_blur]
    have hinput := hcount ["response", "usage", "input_tokens"]
    have hcached := hcount ["response", "usage", "input_tokens_details", "cached_tokens"]
    have houtput := hcount ["response", "usage", "output_tokens"]
    have hreasoning := hcount ["response", "usage", "output_tokens_details", "reasoning_tokens"]
    have htotal := hcount ["response", "usage", "total_tokens"]
    simp [Value.countAt, ResponsesEvent.data, ResponsesEvent.fields, ResponseObject.toValue,
      Value.get_obj] at hinput hcached houtput hreasoning htotal
    simp only [responseReport, hinput, hcached, houtput, hreasoning, htotal]
  · intro h
    simp only [responseReport, List.cons.injEq] at h
    obtain ⟨h1, h2, h3, h4, h5, -⟩ := h
    simp only [SseOut.bytes, ResponsesEvent.eventType, ResponsesEvent.data, ResponsesEvent.fields,
      ResponseObject.toValue, h1, h2, h3, h4, h5]

namespace ResponsesSseNormalizer

theorem exists_report {n : ResponsesSseNormalizer} (hstarted : n.stream.responseStarted = true)
    {l : Option SseFrame} (hl : n.ReportsUsage l) :
    ∃ (before : List SseOut) (response : ResponseObject) (after : List SseOut), ∀ u d,
      ((n.withCounts u d).handleLetter l).2 =
        before ++ .event (.completed { response with usage := u + letterUsage l }) :: after := by
  obtain ⟨hopen, hfinish⟩ := hl
  obtain ⟨before, usage, after, hms, hbefore⟩ := exists_first_finish hfinish
  obtain ⟨hstarted', hcompleted, -⟩ := ResponsesStream.isItem_run hstarted hbefore
  let t := Mealy.run ResponsesStream.step n.stream before
  have ht : t.1.completed = false := hcompleted.trans hopen
  have ht' : { t.1 with completed := true }.responseStarted = true := hstarted'
  let response := t.1.responseObject 0 .completed t.1.finalOutput
  refine ⟨(t.2 ++ t.1.itemDoneEvents).map .event, response,
    (Mealy.run ResponsesStream.step { t.1 with completed := true } after).2.map .event ++ sentOn l,
    fun u d => ?_⟩
  -- The moves before and after the completion emit the same for every usage.
  have hrun : ∀ U, (Mealy.run ResponsesStream.step n.stream
      ((letterMoves n.observer l).map (Move.withUsage U))).2 =
      (t.2 ++ t.1.itemDoneEvents) ++ .completed { response with usage := U } ::
        (Mealy.run ResponsesStream.step { t.1 with completed := true } after).2 := by
    intro U
    rw [hms, List.map_append, List.map_cons, Mealy.run_append, Mealy.run_cons,
      ResponsesStream.run_withUsage_state U n.stream before,
      ResponsesStream.run_withUsage_out U (.inl hstarted) (.inr hbefore)]
    simp only [Move.withUsage, ResponsesStream.step]
    rw [ResponsesStream.finishResponse_open U ht]
    dsimp only
    rw [ResponsesStream.run_withUsage_out U (.inl ht') (.inl rfl)]
    simp only [List.append_assoc, List.cons_append, List.nil_append]
    rfl
  rw [handleLetter_eq]
  simp only [withCounts, letterMoves_withCounts, hrun, List.map_append, List.map_cons,
    List.append_assoc, List.cons_append]

/-- A completing letter sends something and completes the response. -/
theorem handleLetter_completes {n : ResponsesSseNormalizer} {l : Option SseFrame}
    (hl : n.ReportsUsage l) :
    (∃ e, .event e ∈ (n.handleLetter l).2) ∧ (n.handleLetter l).1.stream.completed = true := by
  obtain ⟨hopen, hfinish⟩ := hl
  obtain ⟨before, usage, after, hms, hbefore⟩ := exists_first_finish hfinish
  have hcompleted := ResponsesStream.completed_run_open (s := n.stream) hbefore
  rw [handleLetter_eq, hms, Mealy.run_append, Mealy.run_cons]
  simp only [ResponsesStream.step]
  rw [ResponsesStream.finishResponse_open usage (hcompleted.trans hopen)]
  refine ⟨⟨_, List.mem_append_left _ (List.mem_map_of_mem (List.mem_append_right _
    (List.mem_append_left _ (List.mem_append_right _ List.mem_cons_self))))⟩, ?_⟩
  exact (ResponsesStream.run_completed rfl after).1

/-- **A completing letter sends the same bytes if and only if it reports the same usage.** -/
theorem handleLetter_bytes_iff {c : Codec} (hc : c.Lawful) {n : ResponsesSseNormalizer}
    (h : n.Opened) {u : UsageTotals} {d : UsageDiagnostics} (h' : (n.withCounts u d).Opened)
    {l : Option SseFrame} (hl : n.ReportsUsage l) :
    outBytes c ((n.withCounts u d).handleLetter l).2 = outBytes c (n.handleLetter l).2 ↔
      responseReport (u + letterUsage l) = responseReport (n.observer.usage + letterUsage l) := by
  cases hn : n.stream.responseStarted with
  | false =>
    obtain rfl := withCounts_of_not_started h h' hn
    refine iff_of_true ?_ rfl
    rw [handleLetter_eq, handleLetter_eq]
    simp only [withCounts, letterMoves_withCounts, ← letterMoves_self]
  | true =>
    obtain ⟨before, response, after, hout⟩ := exists_report hn hl
    have hself := hout n.observer.usage n.observer.diagnostics
    rw [withCounts, SseObserver.withCounts_self] at hself
    rw [hout, hself, outBytes_append, outBytes_append, outBytes_cons, outBytes_cons,
      List.append_cancel_left_eq, List.append_cancel_right_eq, completed_bytes_iff hc]

end ResponsesSseNormalizer

/-! ### Letters of the normalizer of Anthropic messages -/

namespace MessagesStream

/-- The usage chunk at the end of a stream, if a usage object was seen. -/
def usageFrames (h : ChunkHead) (u : UsageTotals) (count : ℕ) : List ChatFrame :=
  if count > 0 then [.usage h (.plain u.input u.output u.total)] else []

theorem completed_doneEvent (s : MessagesStream) (h : s.completed = true) :
    s.doneEvent.1.completed = true := by
  unfold doneEvent
  split_ifs <;> exact h

theorem completed_announce (s : MessagesStream) (index : ℕ) :
    (s.announceToolCallIfReady index).1.completed = s.completed := by
  unfold announceToolCallIfReady
  split
  · split <;> rfl
  · rfl

theorem completed_processEvent (s : MessagesStream) (h : s.completed = true) (u : UsageTotals)
    (count : ℕ) (event : Value) : (s.processEvent u count event).1.completed = true := by
  unfold processEvent
  split
  · exact h
  · unfold processContentBlockStart
    dsimp only
    split
    · split
      · rw [completed_announce]
        exact h
      · exact h
    · exact h
  · unfold processContentBlockDelta
    dsimp only
    split
    · split
      · split_ifs <;> exact h
      · split_ifs
        · exact h
        · rw [completed_announce]
          exact h
      · exact h
    · exact h
  · unfold processMessageDelta
    split <;> exact h
  · rw [finishResponse, if_pos h]
    exact h
  · exact completed_doneEvent _ rfl
  · exact h

/-- What closes a chat stream, for every usage: the same but for the usage chunk of a client that
asked for it. -/
theorem finishResponse_spec (s : MessagesStream) :
    ∃ s' before after h, (s.completed = false → before ≠ []) ∧ s'.completed = true ∧
      ∀ u count, s.finishResponse u count = (s', before ++
        (if s.emitUsageToClient = true ∧ s.completed = false then usageFrames h u count else []) ++
          after) := by
  cases hcompleted : s.completed with
  | true =>
    exact ⟨s, [], [], s.head, by simp, hcompleted, fun u count => by
      simp [finishResponse, hcompleted]⟩
  | false =>
    let s₁ := { s with completed := true }
    refine ⟨s₁.doneEvent.1, [s₁.chatChunk .empty (some (s.finishReason.getD
      (if s.toolCalls.isEmpty then .stop else .toolCalls)))], s₁.doneEvent.2, s₁.head, by simp,
      s₁.completed_doneEvent rfl, fun u count => ?_⟩
    cases hemit : s.emitUsageToClient with
    | true =>
      by_cases hcount : count > 0 <;>
        simp [finishResponse, hcompleted, hemit, usageFrames, hcount, s₁]
    | false => simp [finishResponse, hcompleted, hemit, s₁]

theorem finishStream_spec (s : MessagesStream) :
    ∃ s' before after h,
      (s.completed = false → s.messageId.isSome = true → before ≠ [] ∧ s'.completed = true) ∧
      (s.completed = true → s'.completed = true) ∧
      ∀ u count, s.finishStream u count = (s', before ++
        (if s.emitUsageToClient = true ∧ s.completed = false ∧ s.messageId.isSome = true then
          usageFrames h u count else []) ++ after) := by
  cases hid : s.messageId.isSome with
  | false =>
    exact ⟨s.doneEvent.1, [], s.doneEvent.2, s.head, by simp, s.completed_doneEvent,
      fun u count => by simp [finishStream, hid]⟩
  | true =>
    obtain ⟨s', before, after, h, hne, hcompleted, heq⟩ := s.finishResponse_spec
    refine ⟨s'.doneEvent.1, before, after ++ s'.doneEvent.2, h,
      fun hs _ => ⟨hne hs, s'.completed_doneEvent hcompleted⟩,
      fun _ => s'.completed_doneEvent hcompleted, fun u count => ?_⟩
    simp [finishStream, hid, heq]

theorem setMetadata_flags (backendModel publicModel : Option String) (s : MessagesStream)
    (event : Value) :
    (s.setMetadata backendModel publicModel event).emitUsageToClient = s.emitUsageToClient ∧
      (s.setMetadata backendModel publicModel event).completed = s.completed := by
  unfold setMetadata
  cases event.get "message" <;> dsimp only <;> split <;> first | exact ⟨rfl, rfl⟩ | skip
  all_goals split_ifs <;> exact ⟨rfl, rfl⟩

theorem processEvent_spec (s : MessagesStream) (event : Value) :
    ∃ s' before after h,
      (s.completed = false → (event.get "type").bind Value.asStr = some "message_stop" →
        before ≠ [] ∧ s'.completed = true) ∧
      (s.completed = true → s'.completed = true) ∧
      ∀ u count, s.processEvent u count event = (s', before ++
        (if s.emitUsageToClient = true ∧ s.completed = false ∧
          (event.get "type").bind Value.asStr = some "message_stop" then usageFrames h u count
          else []) ++ after) := by
  by_cases hstop : (event.get "type").bind Value.asStr = some "message_stop"
  · obtain ⟨s', before, after, h, hne, hcompleted, heq⟩ := s.finishResponse_spec
    refine ⟨s', before, after, h, fun hs _ => ⟨hne hs, hcompleted⟩, fun _ => hcompleted,
      fun u count => ?_⟩
    simp only [processEvent, hstop, heq, and_true]
  · refine ⟨(s.processEvent 0 0 event).1, (s.processEvent 0 0 event).2, [], s.head,
      fun _ h => absurd h hstop, fun hs => ?_, fun u count => ?_⟩
    · exact s.completed_processEvent hs 0 0 event
    simp only [hstop, and_false, if_false, List.append_nil]
    unfold processEvent
    split <;> first | rfl | contradiction

end MessagesStream

theorem anthropicEventUsage_rewriteEvent (o : SseObserver) (event : Value) :
    anthropicEventUsage (AnthropicMessagesToChatSseNormalizer.rewriteEvent o event) =
      anthropicEventUsage event := by
  unfold anthropicEventUsage
  rw [get_rewriteEvent o event (by decide), get_rewriteEvent o event (by decide),
    get_rewriteEvent o event (by decide)]

/-- The counters of the normalizer after a letter: a usage object overwrites them. -/
def anthropicCounts (l : Option SseFrame) (counts : UsageTotals × ℕ) : UsageTotals × ℕ :=
  match l with
  | some (.data value _ _) =>
    match anthropicEventUsage value with
    | some usage => (overwriteUsage counts.1 usage, counts.2 + 1)
    | none => counts
  | _ => counts

/-- What the usage chunk says of the counters; `[]` is no chunk. -/
def messagesReport (counts : UsageTotals × ℕ) : List UInt64 :=
  if counts.2 > 0 then [counts.1.input, counts.1.output, counts.1.total] else []

/-- The counters of an observer that are reported. -/
def SseObserver.counts (o : SseObserver) : UsageTotals × ℕ :=
  (o.usage, o.diagnostics.usageObjectCount)

theorem counts_observeUsage (o o' : SseObserver) (value : Value) (leadingSpace : Bool)
    (line : Bytes) :
    (o.observeUsage (AnthropicMessagesToChatSseNormalizer.rewriteEvent o' value)).counts =
      anthropicCounts (some (.data value leadingSpace line)) o.counts := by
  unfold SseObserver.observeUsage
  rw [anthropicEventUsage_rewriteEvent]
  cases h : anthropicEventUsage value with
  | none => simp [anthropicCounts, h]
  | some usage => simp [anthropicCounts, h, SseObserver.counts, UsageDiagnostics.observeObject]

namespace AnthropicMessagesToChatSseNormalizer

/-- One letter. -/
def handleLetter (n : AnthropicMessagesToChatSseNormalizer) :
    Option SseFrame → AnthropicMessagesToChatSseNormalizer × List SseOut
  | some f => n.handleFrame f
  | none => n.finishTail

/-- The letter ends the chat stream of a client that asked for usage: it is a `message_stop`, or
an end of a stream with a message. -/
def ReportsUsage (n : AnthropicMessagesToChatSseNormalizer) (l : Option SseFrame) : Prop :=
  n.stream.emitUsageToClient = true ∧ n.stream.completed = false ∧
    match l with
    | some (.data value _ _) => (value.get "type").bind Value.asStr = some "message_stop"
    | some (.done _) | none => n.stream.messageId.isSome = true
    | _ => False

instance (n : AnthropicMessagesToChatSseNormalizer) (l : Option SseFrame) :
    Decidable (n.ReportsUsage l) :=
  match l with
  | some (.data value _ _) => inferInstanceAs (Decidable (_ ∧ _ ∧
      (value.get "type").bind Value.asStr = some "message_stop"))
  | some (.done _) | none => inferInstanceAs (Decidable (_ ∧ _ ∧ n.stream.messageId.isSome = true))
  | some (.event _ _) | some (.dataUnparseable _) | some (.passThrough _) => isFalse fun h => h.2.2

/-- The normalizer with other counters. -/
def withCounts (u : UsageTotals) (d : UsageDiagnostics)
    (n : AnthropicMessagesToChatSseNormalizer) : AnthropicMessagesToChatSseNormalizer :=
  { n with observer := n.observer.withCounts u d }

/-- What a letter does, for all counters: the counters after it, the rest of the state `n'`, and an
output that is the same but for the usage chunk. -/
def LetterSpec (n : AnthropicMessagesToChatSseNormalizer) (l : Option SseFrame)
    (n' : AnthropicMessagesToChatSseNormalizer) (before : List SseOut) (h : ChunkHead)
    (after : List SseOut) : Prop :=
  ∀ u d, ∃ u' d', (u', d'.usageObjectCount) = anthropicCounts l (u, d.usageObjectCount) ∧
    ((n.withCounts u d).handleLetter l).1 = withCounts u' d' n' ∧
    (¬n.ReportsUsage l → ((n.withCounts u d).handleLetter l).2 = before ++ after) ∧
    (n.ReportsUsage l → ((n.withCounts u d).handleLetter l).2 =
      before ++ ((MessagesStream.usageFrames h u' d'.usageObjectCount).map .chat ++ after)) ∧
    (n.ReportsUsage l → (∃ f rest, before = .chat f :: rest) ∧ n'.stream.completed = true) ∧
    (n.stream.completed = true → n'.stream.completed = true)

theorem letterSpec_silent (n : AnthropicMessagesToChatSseNormalizer) {f : SseFrame}
    (o : SseObserver → SseObserver) (hf : ∀ n : AnthropicMessagesToChatSseNormalizer,
      n.handleFrame f = ({ n with observer := o n.observer }, []))
    (ho : ∀ u d, ∃ d', o (n.observer.withCounts u d) = (o n.observer).withCounts u d' ∧
      d'.usageObjectCount = d.usageObjectCount)
    (hcounts : ∀ counts, anthropicCounts (some f) counts = counts)
    (hreports : ¬n.ReportsUsage (some f)) :
    n.LetterSpec (some f) { n with observer := o n.observer } [] n.stream.head [] := by
  intro u d
  obtain ⟨d', hd, hcount⟩ := ho u d
  refine ⟨u, d', ?_, ?_, fun _ => ?_, fun h => absurd h hreports, fun h => absurd h hreports, id⟩
  · rw [hcounts, hcount]
  · rw [handleLetter, hf, withCounts, withCounts]
    simp only [hd]
  · rw [handleLetter, hf]
    rfl

theorem letterSpec_finish (n : AnthropicMessagesToChatSseNormalizer) {l : Option SseFrame}
    (o : SseObserver → SseObserver) (hl : ∀ n : AnthropicMessagesToChatSseNormalizer,
      n.handleLetter l = { n with observer := o n.observer }.finishTail)
    (ho : ∀ u d, o (n.observer.withCounts u d) = (o n.observer).withCounts u d)
    (hcounts : ∀ counts, anthropicCounts l counts = counts)
    (hreports : n.ReportsUsage l ↔ n.stream.emitUsageToClient = true ∧
      n.stream.completed = false ∧ n.stream.messageId.isSome = true) :
    ∃ n' before h after, n.LetterSpec l n' before h after := by
  obtain ⟨s', before, after, h, hne, hkeep, heq⟩ := n.stream.finishStream_spec
  refine ⟨⟨o n.observer, s'⟩, before.map .chat, h, after.map .chat, fun u d => ?_⟩
  refine ⟨u, d, by rw [hcounts], ?_, fun hno => ?_, fun hyes => ?_, fun hyes => ?_, hkeep⟩
  · simp only [hl, finishTail, withCounts, ho, heq]
  · rw [hreports] at hno
    simp [hl, finishTail, withCounts, heq, if_neg hno]
  · rw [hreports] at hyes
    simp [hl, finishTail, withCounts, ho, heq, if_pos hyes]
  · rw [hreports] at hyes
    obtain ⟨hbefore, hs'⟩ := hne hyes.2.1 hyes.2.2
    obtain ⟨f, rest, rfl⟩ := List.exists_cons_of_ne_nil hbefore
    exact ⟨⟨f, rest.map .chat, rfl⟩, hs'⟩

theorem letterSpec_data (n : AnthropicMessagesToChatSseNormalizer) (value : Value)
    (leadingSpace : Bool) (line : Bytes) :
    ∃ n' before h after, n.LetterSpec (some (.data value leadingSpace line)) n' before h after := by
  let event := rewriteEvent n.observer value
  let stream := n.stream.setMetadata n.observer.backendModel n.observer.publicModel event
  obtain ⟨hemit, hcompleted⟩ :=
    n.stream.setMetadata_flags n.observer.backendModel n.observer.publicModel event
  obtain ⟨s', before, after, h, hne, hkeep, heq⟩ := stream.processEvent_spec event
  have htype : event.get "type" = value.get "type" := get_rewriteEvent _ _ (by decide)
  rw [hemit, hcompleted, htype] at heq
  rw [htype] at hne
  refine ⟨⟨n.observer, s'⟩, before.map .chat, h, after.map .chat, fun u d => ?_⟩
  let o := (n.observer.withCounts u d).observeUsage event
  have hdata : (n.withCounts u d).handleData value =
      (⟨o, (stream.processEvent o.usage o.diagnostics.usageObjectCount event).1⟩,
        (stream.processEvent o.usage o.diagnostics.usageObjectCount event).2.map .chat) := rfl
  refine ⟨o.usage, o.diagnostics, ?_, ?_, fun hno => ?_, fun hyes => ?_, fun hyes => ?_,
    fun hs => hkeep (hcompleted.trans hs)⟩
  · exact counts_observeUsage (n.observer.withCounts u d) n.observer value leadingSpace line
  · rw [handleLetter, handleFrame, hdata, heq]
    have ho : o = n.observer.withCounts o.usage o.diagnostics := by
      simp only [o, SseObserver.observeUsage]
      cases anthropicEventUsage event <;> rfl
    exact congrArg (fun o => (⟨o, s'⟩ : AnthropicMessagesToChatSseNormalizer)) ho
  · simp only [ReportsUsage] at hno
    rw [handleLetter, handleFrame, hdata, heq, if_neg hno]
    simp
  · simp only [ReportsUsage] at hyes
    rw [handleLetter, handleFrame, hdata, heq, if_pos hyes]
    simp
  · simp only [ReportsUsage] at hyes
    obtain ⟨hbefore, hs'⟩ := hne (hcompleted.trans hyes.2.1) hyes.2.2
    obtain ⟨f, rest, rfl⟩ := List.exists_cons_of_ne_nil hbefore
    exact ⟨⟨f, rest.map .chat, rfl⟩, hs'⟩

/-- **What a letter does, for all counters.** -/
theorem exists_letterSpec (n : AnthropicMessagesToChatSseNormalizer) (l : Option SseFrame) :
    ∃ n' before h after, n.LetterSpec l n' before h after := by
  cases l with
  | none => exact n.letterSpec_finish id (fun _ => rfl) (fun _ _ => rfl) (fun _ => rfl) Iff.rfl
  | some f =>
    cases f with
    | event name line =>
      refine ⟨_, _, _, _, n.letterSpec_silent (·.observeEvent name) (fun _ => rfl)
        (fun u d => ⟨d.observeEventName name, rfl, ?_⟩) (fun _ => rfl) (fun h => h.2.2)⟩
      unfold UsageDiagnostics.observeEventName
      split <;> rfl
    | data value leadingSpace line => exact n.letterSpec_data value leadingSpace line
    | dataUnparseable line =>
      exact ⟨_, _, _, _, n.letterSpec_silent SseObserver.clearEvent (fun _ => rfl)
        (fun u d => ⟨d, rfl, rfl⟩) (fun _ => rfl) (fun h => h.2.2)⟩
    | done line =>
      exact n.letterSpec_finish SseObserver.clearEvent (fun _ => rfl) (fun _ _ => rfl)
        (fun _ => rfl) Iff.rfl
    | passThrough line =>
      exact ⟨_, _, _, _, n.letterSpec_silent id (fun _ => rfl) (fun u d => ⟨d, rfl, rfl⟩)
        (fun _ => rfl) (fun h => h.2.2)⟩

end AnthropicMessagesToChatSseNormalizer

/-- A usage chunk is sent in the same bytes if and only if it reports the same counters. -/
theorem usageFrames_bytes_iff {c : Codec} (hc : c.Lawful) (h : ChunkHead)
    (counts counts' : UsageTotals × ℕ) :
    outBytes c ((MessagesStream.usageFrames h counts.1 counts.2).map .chat) =
        outBytes c ((MessagesStream.usageFrames h counts'.1 counts'.2).map .chat) ↔
      messagesReport counts = messagesReport counts' := by
  have hbytes : ∀ u : UsageTotals,
      (SseOut.chat (.usage h (.plain u.input u.output u.total))).bytes c ≠ [] :=
    fun u => bytes_chat_ne_nil c _
  unfold MessagesStream.usageFrames messagesReport
  by_cases hpos : counts.2 > 0 <;> by_cases hpos' : counts'.2 > 0
  · rw [if_pos hpos, if_pos hpos', if_pos hpos, if_pos hpos']
    simp only [List.map_cons, List.map_nil, outBytes_cons, outBytes_nil, List.append_nil]
    constructor
    · intro heq
      simp only [SseOut.bytes, ChatFrame.data, sseData, List.append_cancel_left_eq,
        List.append_cancel_right_eq] at heq
      have hfits := fun u : UsageTotals => ChatFrame.fits_data
        (f := .usage h (.plain u.input u.output u.total)) rfl
      have hblur := hc.print_inj (hfits counts.1).1 (hfits counts'.1).1
        ((hfits counts.1).2.trans (by decide)) heq
      have hcount := fun path => congrArg (Value.countAt path) hblur
      simp only [Value.countAt_blur] at hcount
      have hinput := hcount ["usage", "prompt_tokens"]
      have houtput := hcount ["usage", "completion_tokens"]
      have htotal := hcount ["usage", "total_tokens"]
      simp [Value.countAt, ChatUsage.toValue, Value.get_obj] at hinput houtput htotal
      rw [hinput, houtput, htotal]
    · intro heq
      simp only [List.cons.injEq, and_true] at heq
      rw [heq.1, heq.2.1, heq.2.2]
  · rw [if_pos hpos, if_neg hpos', if_pos hpos, if_neg hpos']
    simp [hbytes]
  · rw [if_neg hpos, if_pos hpos', if_neg hpos, if_pos hpos']
    simp [(hbytes counts'.1).symm]
  · rw [if_neg hpos, if_neg hpos', if_neg hpos, if_neg hpos']
    simp

end Onair
