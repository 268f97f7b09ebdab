import Onair.Lib.Json.RoundTrip
import Onair.Proxy.Counters

/-!
# When the cuts of a stream show

* `SseStrategy.letter`, `letterStep`: the transducer behind the loop of `streaming_response`;
* `SseStrategy.ReportsUsage`, `RequestMode.usageReport`: the letters that send the counters to the
  client, and what they send of them;
* `resettable`: **all other letters send the same bytes whatever the counters**;
* `UsageStable`, `streaming_bytes_iff`: **the bytes sent do not depend on the chunks if and only if
  the report does not depend on where the last reset was**.
-/

namespace Onair

open Json Lines Text

/-! ### Counting by request mode -/

/-- The number of usage objects in a letter. -/
def letterUsageCount : Option SseFrame → ℕ
  | some (.data value _ _) => (extractUsageObservation value).diagnostics.usageObjectCount
  | _ => 0

namespace RequestMode

/-- How the usage of a letter is counted. -/
def countLetter (mode : RequestMode) (counts : UsageTotals × ℕ) (l : Option SseFrame) :
    UsageTotals × ℕ :=
  match mode with
  | .chatCompletionsViaMessages => anthropicCounts l counts
  | .anthropicMessagesNative => counts
  | _ => (counts.1 + letterUsage l, counts.2 + letterUsageCount l)

/-- What the counters of some letters come to. -/
def usageSeen (mode : RequestMode) (ls : List (Option SseFrame)) : UsageTotals × ℕ :=
  ls.foldl mode.countLetter (0, 0)

/-- What a client is told of the counters. -/
def usageReport (mode : RequestMode) (counts : UsageTotals × ℕ) : List UInt64 :=
  match mode with
  | .responsesViaChatCompletions => responseReport counts.1
  | .chatCompletionsViaMessages => messagesReport counts
  | _ => []

end RequestMode

theorem usageObjectCount_observeDataNames (o : SseObserver) (value : Value) (count : ℕ) :
    (o.observeDataNames value count).usageObjectCount = o.diagnostics.usageObjectCount := by
  have hevent : ∀ (d : UsageDiagnostics) name,
      (d.observeEventName name).usageObjectCount = d.usageObjectCount := by
    intro d name
    unfold UsageDiagnostics.observeEventName
    split <;> rfl
  have husage : ∀ (d : UsageDiagnostics) name,
      (d.observeUsageEventName name).usageObjectCount = d.usageObjectCount := by
    intro d name
    unfold UsageDiagnostics.observeUsageEventName
    split <;> rfl
  unfold SseObserver.observeDataNames
  dsimp only
  cases (jsonEventType value).bind safeDiagnosticLabel <;> cases o.pendingEventName <;>
    split_ifs <;> simp only [hevent, husage]

theorem counts_observeLetter (o : SseObserver) (l : Option SseFrame) :
    (o.observeLetter l).counts =
      (o.counts.1 + letterUsage l, o.counts.2 + letterUsageCount l) := by
  refine Prod.ext (usage_observeLetter o l) ?_
  cases l with
  | none => rfl
  | some f =>
    cases f with
    | event name line =>
      simp only [SseObserver.observeLetter, SseObserver.observe, SseObserver.observeEvent,
        SseObserver.counts, letterUsageCount]
      unfold UsageDiagnostics.observeEventName
      split <;> rfl
    | data value leadingSpace line =>
      simp only [SseObserver.observeLetter, SseObserver.observe, SseObserver.applyDataPrologue,
        SseObserver.counts, letterUsageCount, UsageDiagnostics.merge,
        usageObjectCount_observeDataNames]
    | _ => rfl

/-! ### The transducer -/

namespace SseStrategy

/-- The request mode of a strategy. -/
def mode : SseStrategy → RequestMode
  | .native _ => .native
  | .responses _ => .responsesViaChatCompletions
  | .chatCompletions _ => .chatCompletionsViaResponses
  | .anthropicMessages _ => .anthropicMessagesNative
  | .anthropicMessagesToChat _ => .chatCompletionsViaMessages

/-- The counters of a strategy. -/
def counts (s : SseStrategy) : UsageTotals × ℕ := (s.usage, s.diagnostics.usageObjectCount)

/-- One letter: a frame, or the end of the stream. -/
def letter (s : SseStrategy) : Option SseFrame → SseStrategy × List SseOut
  | some f => s.handleFrame f
  | none => s.finishTail

/-- One letter, with its output in bytes. -/
def letterStep (c : Codec) (s : SseStrategy) (l : Option SseFrame) : SseStrategy × Bytes :=
  ((s.letter l).1, outBytes c (s.letter l).2)

/-- The letter sends the counters to the client. -/
def ReportsUsage : SseStrategy → Option SseFrame → Prop
  | .responses n, l => n.state.ReportsUsage l
  | .anthropicMessagesToChat n, l => n.state.ReportsUsage l
  | _, _ => False

instance decidableReportsUsage : (s : SseStrategy) → (l : Option SseFrame) →
    Decidable (s.ReportsUsage l)
  | .responses n, l => inferInstanceAs (Decidable (n.state.ReportsUsage l))
  | .anthropicMessagesToChat n, l => inferInstanceAs (Decidable (n.state.ReportsUsage l))
  | .native _, _ | .chatCompletions _, _ | .anthropicMessages _, _ => isFalse id

/-- The counters can no longer be sent to the client. -/
def Reported : SseStrategy → Prop
  | .responses n => n.state.stream.completed = true
  | .anthropicMessagesToChat n => n.state.stream.completed = true
  | _ => True

/-- A Responses stream counts usage only once it is opened. -/
def Opened : SseStrategy → Prop
  | .responses n => n.state.Opened
  | _ => True

/-- The strategy with other counters. -/
def withCounts (u : UsageTotals) (d : UsageDiagnostics) (s : SseStrategy) : SseStrategy :=
  s.modifyObserver (SseObserver.withCounts u d)

theorem clear_eq (s : SseStrategy) : s.clear = s.withCounts 0 {} := by
  cases s <;> rfl

theorem clear_withCounts (s : SseStrategy) (u : UsageTotals) (d : UsageDiagnostics) :
    (s.withCounts u d).clear = s.clear := by
  cases s <;> rfl

theorem eq_withCounts_of_clear {s s' : SseStrategy} (h : s.clear = s'.clear) :
    s' = s.withCounts s'.usage s'.diagnostics := by
  cases s <;> cases s' <;> simp_all [clear_eq, withCounts, modifyObserver, usage, diagnostics,
    observer?, SseObserver.withCounts]

@[simp] theorem mode_withCounts (s : SseStrategy) (u : UsageTotals) (d : UsageDiagnostics) :
    (s.withCounts u d).mode = s.mode := by
  cases s <;> rfl

/-- **A letter is counted as its request mode counts.** -/
theorem counts_letter (s : SseStrategy) (l : Option SseFrame) :
    (s.letter l).1.counts = s.mode.countLetter s.counts l := by
  cases s with
  | native n =>
    have h : (letter (.native n) l).1.observer? = some (n.state.observer.observeLetter l) := by
      cases l with
      | none => rfl
      | some f =>
        cases f with
        | data value leadingSpace line =>
          simp only [letter, handleFrame, SseNormalizer.handleFrame, SseNormalizer.handleData,
            observer?]
          split_ifs <;> rfl
        | _ => rfl
    have := counts_observeLetter n.state.observer l
    rwa [counts, usage, diagnostics, h]
  | responses n =>
    have h : (letter (.responses n) l).1 =
        .responses { n with state := (n.state.handleLetter l).1 } := by
      cases l <;> rfl
    have := counts_observeLetter n.state.observer l
    rwa [counts, usage, diagnostics, h, observer?, ResponsesSseNormalizer.handleLetter_eq]
  | chatCompletions n =>
    have h : (letter (.chatCompletions n) l).1.observer? =
        some (n.state.observer.observeLetter l) := by
      cases l with
      | none => rfl
      | some f => cases f <;> rfl
    have := counts_observeLetter n.state.observer l
    rwa [counts, usage, diagnostics, h]
  | anthropicMessages n => cases l <;> rfl
  | anthropicMessagesToChat n =>
    obtain ⟨n', before, h, after, hspec⟩ := n.state.exists_letterSpec l
    obtain ⟨u', d', hcounts, hstate, -⟩ := hspec n.state.observer.usage n.state.observer.diagnostics
    have hletter : (letter (.anthropicMessagesToChat n) l).1 =
        .anthropicMessagesToChat { n with state := (n.state.handleLetter l).1 } := by
      cases l <;> rfl
    rw [AnthropicMessagesToChatSseNormalizer.withCounts, SseObserver.withCounts_self] at hstate
    rw [counts, usage, diagnostics, hletter, observer?, hstate]
    exact hcounts

theorem mode_letter (s : SseStrategy) (l : Option SseFrame) : (s.letter l).1.mode = s.mode := by
  cases s <;> cases l <;> rfl

theorem letter_responses (n : Normalizer ResponsesSseNormalizer) (l : Option SseFrame) :
    letter (.responses n) l =
      (.responses { n with state := (n.state.handleLetter l).1 }, (n.state.handleLetter l).2) := by
  cases l <;> rfl

theorem letter_anthropicMessagesToChat (n : Normalizer AnthropicMessagesToChatSseNormalizer)
    (l : Option SseFrame) :
    letter (.anthropicMessagesToChat n) l =
      (.anthropicMessagesToChat { n with state := (n.state.handleLetter l).1 },
        (n.state.handleLetter l).2) := by
  cases l <;> rfl

/-- **A letter that does not report the counters sends the same whatever they are**, and no letter
lets them into the rest of the state. -/
theorem letter_withCounts (s : SseStrategy) (u : UsageTotals) (d : UsageDiagnostics)
    (l : Option SseFrame) :
    ∃ u' d', ((s.withCounts u d).letter l).1 = (s.letter l).1.withCounts u' d' ∧
      (s.Opened → (s.withCounts u d).Opened → ¬s.ReportsUsage l →
        ((s.withCounts u d).letter l).2 = (s.letter l).2) := by
  cases s with
  | native n =>
    cases l with
    | none => exact ⟨u, d, rfl, fun _ _ _ => rfl⟩
    | some f =>
      cases f with
      | data value leadingSpace line =>
        obtain ⟨d', hd⟩ := n.state.observer.applyDataPrologue_withCounts u d value
        refine ⟨u + (extractUsageObservation value).totals, d', ?_, fun _ _ _ => ?_⟩ <;>
        · simp only [letter, handleFrame, withCounts, modifyObserver, SseNormalizer.handleFrame,
            SseNormalizer.handleData, hd]
          split_ifs <;> rfl
      | _ => exact ⟨_, _, rfl, fun _ _ _ => rfl⟩
  | responses n =>
    obtain ⟨u', d', hstate⟩ := n.state.handleLetter_withCounts_state u d l
    refine ⟨u', d', ?_, fun h h' hl => ?_⟩
    · rw [withCounts, modifyObserver, letter_responses, letter_responses]
      exact congrArg (fun st => SseStrategy.responses { n with state := st }) hstate
    · rw [withCounts, modifyObserver, letter_responses, letter_responses]
      exact ResponsesSseNormalizer.handleLetter_withCounts_out h h' hl
  | chatCompletions n =>
    cases l with
    | none => exact ⟨u, d, rfl, fun _ _ _ => rfl⟩
    | some f => cases f <;> exact ⟨_, _, rfl, fun _ _ _ => rfl⟩
  | anthropicMessages n => exact ⟨u, d, by cases l <;> rfl, fun _ _ _ => by cases l <;> rfl⟩
  | anthropicMessagesToChat n =>
    obtain ⟨n', before, h, after, hspec⟩ := n.state.exists_letterSpec l
    obtain ⟨u', d', -, hstate, hout, -⟩ := hspec u d
    obtain ⟨u₀, d₀, -, hstate₀, hout₀, -⟩ :=
      hspec n.state.observer.usage n.state.observer.diagnostics
    refine ⟨u', d', ?_, fun _ _ hl => ?_⟩
    · rw [withCounts, modifyObserver, letter_anthropicMessagesToChat,
        letter_anthropicMessagesToChat]
      rw [AnthropicMessagesToChatSseNormalizer.withCounts, SseObserver.withCounts_self] at hstate₀
      rw [hstate₀]
      exact congrArg (fun st => SseStrategy.anthropicMessagesToChat { n with state := st }) hstate
    · rw [withCounts, modifyObserver, letter_anthropicMessagesToChat,
        letter_anthropicMessagesToChat]
      exact (hout hl).trans (hout₀ hl).symm

theorem reportsUsage_withCounts (s : SseStrategy) (u : UsageTotals) (d : UsageDiagnostics)
    (l : Option SseFrame) : (s.withCounts u d).ReportsUsage l ↔ s.ReportsUsage l := by
  cases s with
  | responses n => exact ResponsesSseNormalizer.reportsUsage_withCounts u d n.state l
  | _ => rfl

/-- A letter that reports the counters sends something and is the last to report them. -/
theorem letter_reports {s : SseStrategy} {l : Option SseFrame} (h : s.ReportsUsage l) :
    (∃ o ∈ (s.letter l).2, ∀ c, o.bytes c ≠ []) ∧ (s.letter l).1.Reported := by
  cases s with
  | responses n =>
    obtain ⟨⟨e, he⟩, hcompleted⟩ := ResponsesSseNormalizer.handleLetter_completes h
    rw [letter_responses]
    exact ⟨⟨_, he, fun c => bytes_event_ne_nil c e⟩, hcompleted⟩
  | anthropicMessagesToChat n =>
    obtain ⟨n', before, hd, after, hspec⟩ := n.state.exists_letterSpec l
    obtain ⟨u', d', -, hstate, -, hout, hreports, -⟩ :=
      hspec n.state.observer.usage n.state.observer.diagnostics
    obtain ⟨⟨f, rest, rfl⟩, hcompleted⟩ := hreports h
    rw [AnthropicMessagesToChatSseNormalizer.withCounts, SseObserver.withCounts_self] at hstate hout
    rw [letter_anthropicMessagesToChat]
    refine ⟨⟨.chat f, ?_, fun c => bytes_chat_ne_nil c f⟩, ?_⟩
    · have := hout h
      simp [this]
    · simp only [Reported, hstate]
      exact hcompleted
  | native n => exact absurd h id
  | chatCompletions n => exact absurd h id
  | anthropicMessages n => exact absurd h id

theorem reported_letter {s : SseStrategy} (h : s.Reported) (l : Option SseFrame) :
    (s.letter l).1.Reported := by
  cases s with
  | responses n =>
    rw [letter_responses]
    simp only [Reported, ResponsesSseNormalizer.handleLetter_eq]
    exact (ResponsesStream.run_completed h _).1
  | anthropicMessagesToChat n =>
    obtain ⟨n', before, hd, after, hspec⟩ := n.state.exists_letterSpec l
    obtain ⟨u', d', -, hstate, -, -, -, hkeep⟩ :=
      hspec n.state.observer.usage n.state.observer.diagnostics
    rw [AnthropicMessagesToChatSseNormalizer.withCounts, SseObserver.withCounts_self] at hstate
    rw [letter_anthropicMessagesToChat]
    simp only [Reported, hstate]
    exact hkeep h
  | native n => cases l <;> trivial
  | chatCompletions n => cases l <;> trivial
  | anthropicMessages n => cases l <;> trivial

theorem not_reportsUsage {s : SseStrategy} (h : s.Reported) (l : Option SseFrame) :
    ¬s.ReportsUsage l := by
  cases s with
  | responses n =>
    rintro ⟨hopen, -⟩
    rw [Reported, hopen] at h
    exact absurd h (by decide)
  | anthropicMessagesToChat n =>
    rintro ⟨-, hopen, -⟩
    rw [Reported, hopen] at h
    exact absurd h (by decide)
  | native n => exact id
  | chatCompletions n => exact id
  | anthropicMessages n => exact id

theorem opened_letter {s : SseStrategy} (h : s.Opened) (l : Option SseFrame) :
    (s.letter l).1.Opened := by
  cases s with
  | responses n =>
    rw [letter_responses]
    exact ResponsesSseNormalizer.opened_handleLetter h l
  | _ => cases l <;> trivial

theorem opened_clear (s : SseStrategy) : s.clear.Opened := by
  cases s with
  | responses n => exact fun _ => rfl
  | _ => trivial

/-- **A letter that reports the counters sends the same bytes if and only if the reports are the
same.** -/
theorem letter_bytes_iff {c : Codec} (hc : c.Lawful) {s : SseStrategy} (h : s.Opened)
    {u : UsageTotals} {d : UsageDiagnostics} (h' : (s.withCounts u d).Opened)
    {l : Option SseFrame} (hl : s.ReportsUsage l) :
    outBytes c ((s.withCounts u d).letter l).2 = outBytes c (s.letter l).2 ↔
      s.mode.usageReport (s.mode.countLetter (u, d.usageObjectCount) l) =
        s.mode.usageReport (s.mode.countLetter s.counts l) := by
  cases s with
  | responses n =>
    rw [withCounts, modifyObserver, letter_responses, letter_responses]
    exact ResponsesSseNormalizer.handleLetter_bytes_iff hc h h' hl
  | anthropicMessagesToChat n =>
    obtain ⟨n', before, hd, after, hspec⟩ := n.state.exists_letterSpec l
    obtain ⟨u₁, d₁, hcounts₁, -, -, hout₁, -⟩ := hspec u d
    obtain ⟨u₀, d₀, hcounts₀, -, -, hout₀, -⟩ :=
      hspec n.state.observer.usage n.state.observer.diagnostics
    have hleft := hout₁ hl
    have hright := hout₀ hl
    rw [AnthropicMessagesToChatSseNormalizer.withCounts] at hleft hright
    rw [SseObserver.withCounts_self] at hright
    rw [withCounts, modifyObserver, letter_anthropicMessagesToChat, letter_anthropicMessagesToChat,
      hleft, hright, outBytes_append, outBytes_append, outBytes_append, outBytes_append,
      List.append_cancel_left_eq, List.append_cancel_right_eq]
    have hiff := usageFrames_bytes_iff hc hd (u₁, d₁.usageObjectCount) (u₀, d₀.usageObjectCount)
    rw [hiff, hcounts₁, hcounts₀]
    rfl
  | native n => exact absurd hl id
  | chatCompletions n => exact absurd hl id
  | anthropicMessages n => exact absurd hl id

/-- **The counters are read by the reporting letters only.** -/
theorem resettable (c : Codec) :
    Mealy.Resettable (letterStep c) clear Opened ReportsUsage where
  reset_reset s := by rw [clear_eq (clear s), clear_eq s]; cases s <;> rfl
  inv_step s l h := opened_letter h l
  inv_reset s _ := s.opened_clear
  step_core s s' l h := by
    rw [eq_withCounts_of_clear h]
    obtain ⟨u', d', hstate, -⟩ := s.letter_withCounts s'.usage s'.diagnostics l
    simp only [letterStep, hstate, clear_withCounts]
  reads_core s s' l h := by
    rw [eq_withCounts_of_clear h, reportsUsage_withCounts]
  out_core s s' l hs hs' h hl := by
    rw [eq_withCounts_of_clear h] at hs' ⊢
    obtain ⟨u', d', -, hout⟩ := s.letter_withCounts s'.usage s'.diagnostics l
    simp only [letterStep, hout hs hs' hl]
  out_reads s l hl := by
    obtain ⟨⟨o, ho, hne⟩, -⟩ := letter_reports hl
    intro hnil
    exact hne c (List.flatMap_eq_nil_iff.mp hnil o ho)

/-- At most one letter of a run reports the counters. -/
theorem reports_once (c : Codec) (s : SseStrategy) (l : Option SseFrame) (h : s.ReportsUsage l)
    (ls : List (Option SseFrame)) :
    Mealy.Along (letterStep c) (fun s l => ¬s.ReportsUsage l) (letterStep c s l).1 ls := by
  refine Mealy.along_of_inv Reported ?_ ?_ (letter_reports h).2 ls
  · exact fun _ l hs => reported_letter hs l
  · exact fun _ l hs => not_reportsUsage hs l

theorem mode_run (c : Codec) (s : SseStrategy) (ls : List (Option SseFrame)) :
    (Mealy.run (letterStep c) s ls).1.mode = s.mode := by
  refine Mealy.run_inv (fun t : SseStrategy => t.mode = s.mode) ?_ rfl ls
  exact fun t l h => (t.mode_letter l).trans h

/-- **The counters of a run are those of its letters.** -/
theorem counts_run (c : Codec) (s : SseStrategy) (ls : List (Option SseFrame)) :
    (Mealy.run (letterStep c) s ls).1.counts = ls.foldl s.mode.countLetter s.counts := by
  induction ls generalizing s with
  | nil => rfl
  | cons l ls ih =>
    rw [Mealy.run_cons, ih, List.foldl_cons]
    simp only [letterStep, counts_letter, mode_letter]

theorem counts_clear (s : SseStrategy) : s.clear.counts = (0, 0) := by
  cases s <;> rfl

theorem mode_clear (s : SseStrategy) : s.clear.mode = s.mode := by
  cases s <;> rfl

end SseStrategy

/-! ### The loop -/

open SseStrategy

/-- The letters of the complete lines of a stream. -/
def lineLetters (c : Codec) (b : Bytes) : List (Option SseFrame) := (lineFrames c b).map some

/-- The letters after the complete lines: a last line without its end, and the end. -/
def tailLetters (c : Codec) (b : Bytes) : List (Option SseFrame) :=
  (tailFrames c b).map some ++ [none]

theorem run_letterStep_frames (c : Codec) (s : SseStrategy) (fs : List SseFrame) :
    Mealy.run (letterStep c) s (fs.map some) =
      ((Mealy.run handleFrame s fs).1, outBytes c (Mealy.run handleFrame s fs).2) := by
  induction fs generalizing s with
  | nil => rfl
  | cons f fs ih =>
    rw [List.map_cons, Mealy.run_cons, ih, Mealy.run_cons, outBytes_append]
    rfl

theorem groupStep_eq (c : Codec) (st : SseStrategy × StreamMetrics) (fs : List SseFrame) :
    (groupStep c st fs).1.1 = (Mealy.batch (letterStep c) clear st.1 (fs.map some)).1 ∧
      (groupStep c st fs).2 = (Mealy.batch (letterStep c) clear st.1 (fs.map some)).2 := by
  simp only [groupStep, Mealy.batch, run_letterStep_frames]
  split_ifs with h
  · exact ⟨rfl, (List.isEmpty_iff.mp h).symm⟩
  · exact ⟨rfl, rfl⟩

/-- **The groups of a stream are batches that reset the counters.** -/
theorem run_groupStep_eq (c : Codec) (st : SseStrategy × StreamMetrics)
    (gs : List (List SseFrame)) :
    (Mealy.run (groupStep c) st gs).1.1 =
        (Mealy.run (Mealy.batch (letterStep c) clear) st.1 (gs.map (List.map some))).1 ∧
      (Mealy.run (groupStep c) st gs).2 =
        (Mealy.run (Mealy.batch (letterStep c) clear) st.1 (gs.map (List.map some))).2 := by
  induction gs generalizing st with
  | nil => exact ⟨rfl, rfl⟩
  | cons g gs ih =>
    obtain ⟨hstate, hout⟩ := groupStep_eq c st g
    obtain ⟨hstate', hout'⟩ := ih (groupStep c st g).1
    rw [List.map_cons, Mealy.run_cons, Mealy.run_cons, hout, ← hstate]
    exact ⟨hstate', congrArg _ hout'⟩

theorem groupEnd_bytes (c : Codec) (st : SseStrategy × StreamMetrics) (tail : List SseFrame) :
    (groupEnd c st tail).2 = (Mealy.run (letterStep c) st.1 (tail.map some ++ [none])).2 := by
  have hrun : (Mealy.run (letterStep c) st.1 (tail.map some ++ [none])).2 =
      outBytes c ((Mealy.run handleFrame st.1 tail).2 ++
        (Mealy.run handleFrame st.1 tail).1.finishTail.2) := by
    rw [Mealy.run_append, run_letterStep_frames, Mealy.run_singleton, outBytes_append]
    rfl
  rw [hrun]
  simp only [groupEnd]
  split_ifs with h
  · exact (List.isEmpty_iff.mp h).symm
  · rfl

theorem streamAll_bytes (c : Codec) {s : SseStrategy} (h : s.withParser {} = s)
    (chunks : List Bytes) :
    let r := Mealy.run (Mealy.batch (letterStep c) clear) s
      ((chunkGroups c [] chunks).map (List.map some))
    (streamAll c s chunks).2 =
      r.2 ++ (Mealy.run (letterStep c) r.1 (tailLetters c chunks.flatten)).2 := by
  obtain ⟨hstate, hout⟩ := run_groupStep_eq c (s, {}) (chunkGroups c [] chunks)
  rw [streamAll_eq c h, streamGroups]
  simp only [hout, groupEnd_bytes, hstate]
  rfl

/-- **Any grouping of the letters of a stream comes from chunks.** -/
theorem streamAll_bytes_all (c : Codec) {s : SseStrategy} (h : s.withParser {} = s) (b : Bytes)
    (P : Bytes → Prop) :
    (∀ chunks : List Bytes, chunks.flatten = b → P (streamAll c s chunks).2) ↔
      ∀ gs : List (List (Option SseFrame)), gs.flatten = lineLetters c b →
        P ((Mealy.run (Mealy.batch (letterStep c) clear) s gs).2 ++
          (Mealy.run (letterStep c) (Mealy.run (Mealy.batch (letterStep c) clear) s gs).1
            (tailLetters c b)).2) := by
  constructor
  · intro hP gs hgs
    obtain ⟨ls, hls, rfl⟩ := exists_map_eq_of_flatten hgs
    obtain ⟨chunks, hchunks, hgroups⟩ := exists_chunks c b hls
    have := hP chunks hchunks
    rw [streamAll_bytes c h, hgroups, hchunks] at this
    -- The last group is empty and changes nothing.
    rw [List.map_append, Mealy.run_append] at this
    simpa [Mealy.batch] using this
  · intro hP chunks hchunks
    rw [streamAll_bytes c h, hchunks]
    refine hP _ ?_
    rw [← List.map_flatten, flatten_chunkGroups c List.not_mem_nil, List.nil_append, hchunks]
    rfl

/-! ### Stable reports -/

/-- The letters send something. -/
def SseStrategy.Sends (c : Codec) (s : SseStrategy) (ls : List (Option SseFrame)) : Prop :=
  (Mealy.run (letterStep c) s ls).2 ≠ []

instance (c : Codec) (s : SseStrategy) (ls : List (Option SseFrame)) :
    Decidable (s.Sends c ls) :=
  inferInstanceAs (Decidable (_ ≠ []))

/-- The report of the counters does not depend on where they were last reset: if it comes within
the complete lines, then whichever frames before it were the last to be sent together with
something; if it comes after them, then wherever among the frames that send nothing the last chunk
but one ended. -/
structure UsageStable (c : Codec) (s : SseStrategy) (b : Bytes) : Prop where
  inside : ∀ pre l post, lineLetters c b = pre ++ l :: post →
    (Mealy.run (letterStep c) s pre).1.ReportsUsage l → ∀ p q, pre = p ++ q → s.Sends c p →
      s.mode.usageReport (s.mode.usageSeen (q ++ [l])) =
        s.mode.usageReport (s.mode.usageSeen (pre ++ [l]))
  tail : ∀ t₁ l t₂, tailLetters c b = t₁ ++ l :: t₂ →
    (Mealy.run (letterStep c) s (lineLetters c b ++ t₁)).1.ReportsUsage l →
      ∀ p q, lineLetters c b = p ++ q → s.Sends c p →
        ¬(Mealy.run (letterStep c) s p).1.Sends c q →
          s.mode.usageReport (s.mode.usageSeen (q ++ t₁ ++ [l])) =
            s.mode.usageReport (s.mode.usageSeen (t₁ ++ [l]))

namespace SseStrategy

/-- States that differ in their counters report the same if and only if their reports agree. -/
theorem letterStep_eq_iff {c : Codec} (hc : c.Lawful) {s t : SseStrategy} (hs : s.Opened)
    (ht : t.Opened) (hcore : s.clear = t.clear) {l : Option SseFrame} (hl : t.ReportsUsage l) :
    (letterStep c s l).2 = (letterStep c t l).2 ↔
      t.mode.usageReport (t.mode.countLetter s.counts l) =
        t.mode.usageReport (t.mode.countLetter t.counts l) := by
  have heq := eq_withCounts_of_clear hcore.symm
  have hopened : (t.withCounts s.usage s.diagnostics).Opened := by rwa [← heq]
  have hiff := letter_bytes_iff hc ht hopened hl
  rw [← heq] at hiff
  exact hiff

theorem counts_of_reset (c : Codec) {s : SseStrategy} {p : List (Option SseFrame)}
    (hp : s.Sends c p) (q : List (Option SseFrame)) :
    (Mealy.run (letterStep c) (Mealy.batch (letterStep c) clear s p).1 q).1.counts =
      s.mode.usageSeen q := by
  rw [Mealy.batch_of_output hp, counts_run, mode_clear, mode_run, counts_clear]
  rfl

theorem countLetter_usageSeen (mode : RequestMode) (ls : List (Option SseFrame))
    (l : Option SseFrame) :
    mode.countLetter (mode.usageSeen ls) l = mode.usageSeen (ls ++ [l]) := by
  rw [RequestMode.usageSeen, RequestMode.usageSeen, List.foldl_append]
  rfl

end SseStrategy

section Stable

variable {c : Codec} (hc : c.Lawful) {s : SseStrategy} (hs : s.Opened) (hzero : s.counts = (0, 0))

include hc hs hzero

theorem inside_iff {p q : List (Option SseFrame)} {l : Option SseFrame}
    (hl : (Mealy.run (letterStep c) s (p ++ q)).1.ReportsUsage l) :
    (letterStep c (Mealy.run (letterStep c) (Mealy.batch (letterStep c) clear s p).1 q).1 l).2 =
        (letterStep c (Mealy.run (letterStep c) s (p ++ q)).1 l).2 ↔
      (s.Sends c p → s.mode.usageReport (s.mode.usageSeen (q ++ [l])) =
        s.mode.usageReport (s.mode.usageSeen (p ++ q ++ [l]))) := by
  have hr := resettable c
  by_cases hp : s.Sends c p
  · have hcore := hr.run_core (hr.batch_core s p) q
    rw [show (Mealy.run (letterStep c) (Mealy.run (letterStep c) s p).1 q).1 =
      (Mealy.run (letterStep c) s (p ++ q)).1 by rw [Mealy.run_append]] at hcore
    rw [letterStep_eq_iff hc (hr.inv_run (hr.inv_batch hs p) q) (hr.inv_run hs _) hcore hl,
      mode_run, counts_of_reset c hp, counts_run, hzero, countLetter_usageSeen,
      forall_prop_of_true hp]
    rw [show List.foldl s.mode.countLetter (0, 0) (p ++ q) = s.mode.usageSeen (p ++ q) from rfl,
      countLetter_usageSeen]
  · refine iff_of_true ?_ fun h => absurd h hp
    rw [Mealy.batch_of_silent (not_not.mp hp), Mealy.run_append]

omit hzero in
/-- A report after the complete lines, with the last reset behind the letters `p` or behind
`p ++ q`. -/
theorem tail_iff {p q t : List (Option SseFrame)} {l : Option SseFrame}
    (hl : (Mealy.run (letterStep c) s (p ++ q ++ t)).1.ReportsUsage l)
    (hq : ¬(Mealy.run (letterStep c) s p).1.Sends c q) :
    (letterStep c (Mealy.run (letterStep c) (Mealy.batch (letterStep c) clear s p).1 (q ++ t)).1
        l).2 =
      (letterStep c (Mealy.run (letterStep c) (Mealy.batch (letterStep c) clear s (p ++ q)).1 t).1
        l).2 ↔
      (s.Sends c p → s.mode.usageReport (s.mode.usageSeen (q ++ t ++ [l])) =
        s.mode.usageReport (s.mode.usageSeen (t ++ [l]))) := by
  have hr := resettable c
  have hsilent : (Mealy.run (letterStep c) (Mealy.run (letterStep c) s p).1 q).2 = [] :=
    not_not.mp hq
  by_cases hp : s.Sends c p
  · have hpq : s.Sends c (p ++ q) := by
      unfold SseStrategy.Sends at hp ⊢
      rw [Mealy.run_append]
      simp [hp]
    have hcore :
        (Mealy.run (letterStep c) (Mealy.batch (letterStep c) clear s p).1 (q ++ t)).1.clear
        = (Mealy.run (letterStep c) s (p ++ q ++ t)).1.clear := by
      rw [List.append_assoc, Mealy.run_append s p]
      exact hr.run_core (hr.batch_core s p) (q ++ t)
    have hcore' :
        (Mealy.run (letterStep c) (Mealy.batch (letterStep c) clear s (p ++ q)).1 t).1.clear
        = (Mealy.run (letterStep c) s (p ++ q ++ t)).1.clear := by
      rw [Mealy.run_append s (p ++ q)]
      exact hr.run_core (hr.batch_core s (p ++ q)) t
    have hl' := (hr.reads_core _ _ l hcore').mpr hl
    have hmode : (Mealy.run (letterStep c) (Mealy.batch (letterStep c) clear s (p ++ q)).1 t).1.mode
        = s.mode := by
      rw [Mealy.batch_of_output hpq, mode_run, mode_clear, mode_run]
    rw [letterStep_eq_iff hc (hr.inv_run (hr.inv_batch hs p) _)
      (hr.inv_run (hr.inv_batch hs (p ++ q)) t) (hcore.trans hcore'.symm) hl', hmode,
      counts_of_reset c hp, counts_of_reset c hpq, countLetter_usageSeen, countLetter_usageSeen,
      forall_prop_of_true hp]
  · refine iff_of_true ?_ fun h => absurd h hp
    have hpq : (Mealy.run (letterStep c) s (p ++ q)).2 = [] := by
      rw [Mealy.run_append, not_not.mp hp, hsilent]
      rfl
    rw [Mealy.batch_of_silent (not_not.mp hp), Mealy.batch_of_silent hpq, Mealy.run_append,
      Mealy.run_append s p]

/-- **The loop sends the same for all groupings if and only if the reports are stable.** -/
theorem batches_stable_iff (b : Bytes) :
    (∀ gs : List (List (Option SseFrame)), gs.flatten = lineLetters c b →
      (Mealy.run (Mealy.batch (letterStep c) clear) s gs).2 ++
          (Mealy.run (letterStep c) (Mealy.run (Mealy.batch (letterStep c) clear) s gs).1
            (tailLetters c b)).2 =
        (Mealy.run (letterStep c) s (lineLetters c b)).2 ++ (Mealy.run (letterStep c)
          (Mealy.batch (letterStep c) clear s (lineLetters c b)).1 (tailLetters c b)).2) ↔
      UsageStable c s b := by
  have hr := resettable c
  have hsilent : ∀ p q,
      (Mealy.run (letterStep c) (Mealy.batch (letterStep c) clear s p).1 q).2 = [] ↔
      ¬(Mealy.run (letterStep c) s p).1.Sends c q := by
    intro p q
    rw [SseStrategy.Sends, not_not]
    exact hr.run_silent_core (hr.inv_batch hs p) (hr.inv_run hs p) (hr.batch_core s p) q
  rw [hr.stable_iff (reports_once c) hs]
  constructor
  · rintro ⟨hin, htail⟩
    refine ⟨fun pre l post heq hl p q hpq => ?_, fun t₁ l t₂ heq hl p q hpq hp hq => ?_⟩
    · subst hpq
      exact (inside_iff hc hs hzero hl).mp (hin _ l post heq hl p q rfl)
    · rw [hpq] at hl
      have := htail t₁ l t₂ heq (by rwa [hpq]) p q hpq ((hsilent p q).mpr hq)
      rw [hpq] at this
      exact (tail_iff hc hs hl hq).mp this hp
  · rintro ⟨hin, htail⟩
    refine ⟨fun pre l post heq hl p q hpq => ?_, fun t₁ l t₂ heq hl p q hpq hq => ?_⟩
    · subst hpq
      exact (inside_iff hc hs hzero hl).mpr fun hp => hin _ l post heq hl p q rfl hp
    · have hq' := (hsilent p q).mp hq
      have hreport := fun hp => htail t₁ l t₂ heq hl p q hpq hp hq'
      rw [hpq] at hl ⊢
      exact (tail_iff hc hs hl hq').mpr hreport

end Stable

/-- A mode that reports no counters has nothing to be stable. -/
theorem usageStable_of_mode {c : Codec} {s : SseStrategy}
    (hresponses : s.mode ≠ .responsesViaChatCompletions)
    (hmessages : s.mode ≠ .chatCompletionsViaMessages) (b : Bytes) : UsageStable c s b := by
  have hnever : ∀ ls l, ¬(Mealy.run (letterStep c) s ls).1.ReportsUsage l := by
    intro ls l hl
    have hmode := mode_run c s ls
    generalize (Mealy.run (letterStep c) s ls).1 = t at *
    cases t with
    | responses n => exact hresponses hmode.symm
    | anthropicMessagesToChat n => exact hmessages hmode.symm
    | _ => exact hl
  exact ⟨fun pre l _ _ hl => absurd hl (hnever pre l), fun t₁ l _ _ hl => absurd hl (hnever _ l)⟩

/-- **The cuts of a stream do not show if and only if the reports are stable**, for a strategy that
has not counted anything yet. -/
theorem streamAll_stable_iff {c : Codec} (hc : c.Lawful) {s : SseStrategy}
    (hnew : s.withParser {} = s) (hs : s.Opened) (hzero : s.counts = (0, 0)) (b : Bytes) :
    (∀ chunks chunks' : List Bytes, chunks.flatten = b → chunks'.flatten = b →
      (streamAll c s chunks).2 = (streamAll c s chunks').2) ↔ UsageStable c s b := by
  rw [← batches_stable_iff hc hs hzero b, ← streamAll_bytes_all c hnew b (· = _)]
  -- All lines in one group are one way to cut the stream.
  have hone : (streamAll c s [b]).2 =
      (Mealy.run (letterStep c) s (lineLetters c b)).2 ++ (Mealy.run (letterStep c)
        (Mealy.batch (letterStep c) clear s (lineLetters c b)).1 (tailLetters c b)).2 := by
    have hgroups : (chunkGroups c [] [b]).map (List.map some) = [lineLetters c b] := rfl
    rw [streamAll_bytes c hnew, hgroups, Mealy.run_singleton]
    simp
  constructor
  · intro h chunks hchunks
    rw [h chunks [b] hchunks (by simp), hone]
  · intro h chunks chunks' hchunks hchunks'
    rw [h chunks hchunks, h chunks' hchunks']

theorem opened_new (mode : RequestMode) (backendModel publicModel : Option String) (emit : Bool) :
    (SseStrategy.new mode backendModel publicModel emit).Opened := by
  cases mode <;> first | trivial | exact fun _ => rfl

theorem counts_new (mode : RequestMode) (backendModel publicModel : Option String) (emit : Bool) :
    (SseStrategy.new mode backendModel publicModel emit).counts = (0, 0) := by
  cases mode <;> rfl

/-- **When the cuts of a stream do not show**: the bytes the client receives are the same for all
chunks of the upstream stream if and only if the reports of the counters are stable. -/
theorem streaming_bytes_iff {c : Codec} (hc : c.Lawful) (mode : RequestMode)
    (backendModel publicModel : Option String) (emitUsageToClient : Bool) (b : Bytes) :
    (∀ chunks chunks' : List Bytes, chunks.flatten = b → chunks'.flatten = b →
      (streamingResponse c mode backendModel publicModel emitUsageToClient chunks).2 =
        (streamingResponse c mode backendModel publicModel emitUsageToClient chunks').2) ↔
      UsageStable c (SseStrategy.new mode backendModel publicModel emitUsageToClient) b :=
  streamAll_stable_iff hc (new_withParser _ _ _ _) (opened_new _ _ _ _) (counts_new _ _ _ _) b

/-- A native stream with a usage chunk, however it is cut. -/
theorem streaming_bytes_iff_native :
    let b := sseData reference (.obj [("choices", .array []),
        ("usage", .obj [("prompt_tokens", .u64 3), ("completion_tokens", .u64 2)])]) ++
      asBytes "data: [DONE]\n\n"
    ∀ chunks chunks' : List Bytes, chunks.flatten = b → chunks'.flatten = b →
      (streamingResponse reference .native none none true chunks).2 =
        (streamingResponse reference .native none none true chunks').2 :=
  (streaming_bytes_iff reference_lawful .native none none true _).mpr
    (usageStable_of_mode (by decide) (by decide) _)

/-- Usage counted in one chunk is forgotten if the response is completed in the next: the bytes for
this stream depend on whether it is cut between its two events. -/
theorem streaming_bytes_depend_on_cut :
    let b := sseData reference (.obj [("choices", .array []),
        ("usage", .obj [("prompt_tokens", .u64 3)])]) ++
      sseData reference (.obj [("choices", .array [.obj [("finish_reason", .string "stop")]])])
    ¬∀ chunks chunks' : List Bytes, chunks.flatten = b → chunks'.flatten = b →
      (streamingResponse reference .responsesViaChatCompletions none none false chunks).2 =
        (streamingResponse reference .responsesViaChatCompletions none none false chunks').2 := by
  intro b h
  have hstable := (streamAll_stable_iff reference_lawful (new_withParser _ _ _ _)
    (opened_new _ _ _ _) (counts_new _ _ _ _) b).mp h
  have hreport := hstable.inside ((lineLetters reference b).take 2)
    (((lineLetters reference b)[2]?).getD none) ((lineLetters reference b).drop 3)
    (by decide +kernel) (by decide +kernel) _ [] (List.append_nil _).symm (by decide +kernel)
  exact absurd hreport (by decide +kernel)

end Onair
