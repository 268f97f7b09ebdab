import Onair.Lib.Json.Reference
import Onair.Proxy.Additions
import Onair.Proxy.Counters

/-!
# When token arithmetic overflows

Every addition of token counts while a response is read, counted and reported, and when one of them
does not fit a `u64`. A letter is a frame of a stream, or `none` for its end.

* `letterAdditions`, `LetterFits`, `letterAdditions_fit_iff`: the additions of one letter;
* `exactRun`, `exactCounts_run`: the counters as natural numbers, exact for frames that fit;
* `chunkAdditions`, `endAdditions`: those of the loop over the chunks of a stream;
* `Upstream`, `Upstream.additions`: those of a whole response, a JSON body or a stream;
* `Upstream.additions_fit_iff`: **none of them overflows** exactly where the counts, taken as
  natural numbers, stay below `2 ^ 64` at every step.
-/

namespace Onair

open Json Lines Text

/-! ### The counters of a stream -/

/-- The usage objects of a letter. -/
def letterObjects (l : Option SseFrame) : List (List (String × Value)) :=
  (l.map SseFrame.usageObjects).getD []

/-- The additions with which a letter is counted. -/
def countingAdditions (usage : UsageTotals) : Option SseFrame → List Addition
  | some (.data value _ _) => prologueAdditions usage value
  | _ => []

/-- A counter after a letter, as a natural number. -/
def exactAfter (usage : UsageTotals) (l : Option SseFrame) (c : Counter) : ℕ :=
  (usage.count c).toNat + exactUsage (letterObjects l) c

/-- The usage objects of a letter fit, and so does every counter after it. -/
def CountsFit (usage : UsageTotals) (l : Option SseFrame) : Prop :=
  ObjectsFit (letterObjects l) ∧ ∀ c, exactAfter usage l c < 2 ^ 64

theorem countingAdditions_fit_iff (usage : UsageTotals) (l : Option SseFrame) :
    (∀ a ∈ countingAdditions usage l, a.Fits) ↔ CountsFit usage l := by
  have hnone : (∀ a ∈ ([] : List Addition), a.Fits) ↔
      ObjectsFit [] ∧ ∀ c, (usage.count c).toNat + exactUsage [] c < 2 ^ 64 :=
    iff_of_true (by simp) ⟨by simp [ObjectsFit], fun c => (usage.count c).toNat_lt⟩
  cases l with
  | none => exact hnone
  | some f =>
    cases f with
    | data value leadingSpace line => exact prologueAdditions_fit_iff usage value
    | _ => exact hnone

theorem toNat_letterUsage {usage : UsageTotals} {l : Option SseFrame} (h : CountsFit usage l)
    (c : Counter) : ((usage + letterUsage l).count c).toNat = exactAfter usage l c := by
  have hnone : ((usage + 0).count c).toNat = (usage.count c).toNat + exactUsage [] c := by
    rw [add_zero, exactUsage_nil, Nat.add_zero]
  cases l with
  | none => exact hnone
  | some f =>
    cases f with
    | data value leadingSpace line => exact toNat_prologue h.1 (h.2 c)
    | _ => exact hnone

/-! ### The report of a Responses stream -/

/-- The addition of `response_object`, for a total that is zero. -/
def reportAdditions (usage : UsageTotals) : List Addition :=
  if usage.total > 0 then [] else [(usage.input, usage.output)]

namespace ResponsesStream

/-- The additions of a move: a response reports its usage when it is opened and when it is
completed. -/
def moveAdditions (s : ResponsesStream) : Move → List Addition
  | .start usage => if s.responseStarted then [] else reportAdditions usage
  | .finish usage => if s.completed then [] else reportAdditions usage
  | _ => []

/-- Some of the moves open the response or complete it. -/
def Reports (s : ResponsesStream) (ms : List Move) : Prop :=
  (s.responseStarted = false ∧ ∃ m ∈ ms, m.isStart = true) ∨
    (s.completed = false ∧ ∃ m ∈ ms, m.isFinish = true)

/-- **A response reports its usage** when it is opened and when it is completed, and nothing else of
it is added. -/
theorem forall_moveAdditions_iff {P : Addition → Prop} {usage : UsageTotals} {ms : List Move}
    (hms : ms.map (Move.withUsage usage) = ms) (s : ResponsesStream) :
    (∀ a ∈ Mealy.trace step moveAdditions s ms, P a) ↔
      (s.Reports ms → ∀ a ∈ reportAdditions usage, P a) := by
  induction ms generalizing s with
  | nil => simp [Mealy.trace, Reports]
  | cons m ms ih =>
    obtain ⟨hm, hms⟩ := List.cons.inj hms
    rw [Mealy.trace, List.forall_mem_append, ih hms]
    unfold Reports
    simp only [List.exists_mem_cons_iff]
    cases m with
    | start u =>
      obtain rfl : usage = u := Move.start.inj hm
      have hstarted := responseStarted_startResponseEvents usage s
      have hcompleted := s.completed_step_open (m := .start usage) rfl
      cases h : s.responseStarted <;>
        simp_all [moveAdditions, step, Move.isStart, Move.isFinish]
    | finish u =>
      obtain rfl : usage = u := Move.finish.inj hm
      have hstarted := s.responseStarted_step_of_not_start (m := .finish usage) rfl
      have hcompleted : (s.step (.finish usage)).1.completed = true := by
        rw [step, finishResponse]
        split_ifs with h
        · exact h
        · rfl
      cases h : s.completed <;>
        simp_all [moveAdditions, step, Move.isStart, Move.isFinish]
    | _ =>
      rw [completed_step_open s rfl, responseStarted_step_of_not_start s rfl]
      simp [moveAdditions, Move.isStart, Move.isFinish]

end ResponsesStream

theorem letterMoves_withUsage (o : SseObserver) (l : Option SseFrame) :
    (letterMoves o l).map (Move.withUsage (o.usage + letterUsage l)) = letterMoves o l :=
  (letterMoves_withCounts o.usage o.diagnostics o l).symm

/-- The addition of `response_object` fits, in natural numbers. -/
def ReportFits (usage : UsageTotals) (l : Option SseFrame) : Prop :=
  exactAfter usage l .total = 0 →
    exactAfter usage l .input + exactAfter usage l .output < 2 ^ 64

theorem reportAdditions_fit_iff {usage : UsageTotals} {l : Option SseFrame}
    (h : CountsFit usage l) :
    (∀ a ∈ reportAdditions (usage + letterUsage l), a.Fits) ↔ ReportFits usage l := by
  have htotal : (usage + letterUsage l).total > 0 ↔ exactAfter usage l .total ≠ 0 := by
    rw [← toNat_letterUsage h .total, gt_iff_lt, UInt64.lt_iff_toNat_lt]
    exact Nat.pos_iff_ne_zero
  unfold reportAdditions ReportFits
  split_ifs with hpos
  · exact iff_of_true (by simp) fun hzero => absurd hzero (htotal.mp hpos)
  · have hzero : exactAfter usage l .total = 0 := by
      by_contra hne
      exact hpos (htotal.mpr hne)
    rw [List.forall_mem_singleton, ← toNat_letterUsage h .input, ← toNat_letterUsage h .output]
    exact ⟨fun hfits _ => hfits, fun hfits => hfits hzero⟩

/-! ### The usage chunks of the two chat streams -/

/-- The additions of a usage chunk made from a completed response. -/
def ChatCompletionsSseNormalizer.usageChunkAdditions (n : ChatCompletionsSseNormalizer) :
    Option SseFrame → List Addition
  | some (.data value _ _) =>
    let event := n.observer.rewritten value
    match (event.get "type").bind Value.asStr with
    | some "response.completed" | some "response.incomplete" =>
      if n.stream.completed || !n.stream.emitUsageToClient then []
      else fieldsAdditions (ChatStream.responseUsage (event.get "response"))
    | _ => []
  | _ => []

/-- The addition of `observe_usage`. -/
def AnthropicMessagesToChatSseNormalizer.usageAdditions (n : AnthropicMessagesToChatSseNormalizer) :
    Option SseFrame → List Addition
  | some (.data value _ _) =>
    match anthropicEventUsage (rewriteEvent n.observer value) with
    | some object =>
      [((numberField object "input_tokens").getD n.observer.usage.input,
        (numberField object "output_tokens").getD n.observer.usage.output)]
    | none => []
  | _ => []

theorem numberField_ensureUsageObjectTotalTokens (usage : List (String × Value)) {field : String}
    (hfield : field ≠ "total_tokens") :
    numberField (ensureUsageObjectTotalTokens usage) field = numberField usage field := by
  have hinsert (v : Value) :
      numberField (OrdMap.insert "total_tokens" v usage) field = numberField usage field := by
    rw [numberField, OrdMap.get_insert_ne hfield, numberField]
  unfold ensureUsageObjectTotalTokens
  split_ifs
  · rfl
  · dsimp only
    split
    · split_ifs
      · exact hinsert _
      · rfl
    · rfl

/-- A usage object that is rewritten keeps its counts, but for the total. -/
theorem countField_rewriteField (o : SseObserver) (v : Value) {usage' : List (String × Value)}
    (h : o.rewriteField "usage" v = .object usage') : ∃ usage, v = .object usage ∧
      ∀ field, field ≠ "model" → field ≠ "total_tokens" →
        countField usage' field = countField usage field := by
  have hensure (m : List (String × Value)) {field : String} (hfield : field ≠ "total_tokens") :
      countField (ensureUsageObjectTotalTokens (m.map ensureEntry)) field = countField m field := by
    rw [countField, numberField_ensureUsageObjectTotalTokens _ hfield, numberField_ensure,
      countField]
  unfold SseObserver.rewriteField at h
  cases v with
  | object usage =>
    refine ⟨usage, rfl, fun field hmodel htotal => ?_⟩
    split at h
    · next backend pub _ _ =>
      rw [if_neg (by simp), rewriteResponseModels, ensureEntry, ensureUsageTotalTokens,
        ensureUsageTotalTokensEntries_eq] at h
      rw [← Value.object.inj h, hensure _ htotal, countField_rewritten backend pub usage hmodel]
    · rw [ensureEntry, ensureUsageTotalTokens, ensureUsageTotalTokensEntries_eq] at h
      rw [← Value.object.inj h, hensure _ htotal]
  | _ =>
    split at h <;>
      simp [ensureEntry, ensureUsageTotalTokens, rewriteResponseModels, Value.asStr] at h

/-- The usage chunk adds the counts of one of the usage objects of the frame. -/
theorem ChatCompletionsSseNormalizer.usageChunkAdditions_fit (n : ChatCompletionsSseNormalizer)
    {l : Option SseFrame} (h : ObjectsFit (letterObjects l)) :
    ∀ a ∈ n.usageChunkAdditions l, a.Fits := by
  cases l with
  | none => simp [usageChunkAdditions]
  | some f =>
    cases f with
    | data value leadingSpace line =>
      have hfields : ∀ a ∈ fieldsAdditions (ChatStream.responseUsage
          ((n.observer.rewritten value).get "response")), a.Fits := by
        cases husage : ChatStream.responseUsage ((n.observer.rewritten value).get "response") with
        | none => simp [fieldsAdditions]
        | some usage' =>
          rw [n.observer.get_rewritten (by decide) (by decide)] at husage
          obtain ⟨v, hv, hobject⟩ := Option.bind_eq_some_iff.mp husage
          obtain ⟨r', hr', hv⟩ := Option.bind_eq_some_iff.mp hv
          obtain ⟨r, hr, rfl⟩ := Option.map_eq_some_iff.mp hr'
          rw [n.observer.get_rewritten_eq] at hv
          obtain ⟨w, hw, rfl⟩ := Option.map_eq_some_iff.mp hv
          obtain ⟨usage, rfl, hcount⟩ :=
            countField_rewriteField n.observer w (Value.asObject_eq_some.mp hobject)
          have hmem := mem_usageObjects_of_field hr (mem_usageObjects_of_get hw)
          rw [fieldsAdditions_fit_iff, exactInput, exactOutput,
            hcount _ (by decide) (by decide), hcount _ (by decide) (by decide),
            hcount _ (by decide) (by decide), hcount _ (by decide) (by decide)]
          exact h usage hmem
      unfold usageChunkAdditions
      dsimp only
      split
      · split_ifs
        · simp
        · exact hfields
      · split_ifs
        · simp
        · exact hfields
      · simp
    | _ => simp [usageChunkAdditions]

/-! ### One letter -/

/-- The letter opens a Responses stream or completes it. -/
def ResponsesSseNormalizer.Reports (n : ResponsesSseNormalizer) : Option SseFrame → Prop
  | some (.data value _ _) => n.stream.responseStarted = false ∨
    n.stream.completed = false ∧
      (ResponsesStream.chunkChoices value).any ResponsesStream.choiceFinishes = true
  | some (.done _) | none => n.stream.completed = false
  | _ => False

theorem ResponsesSseNormalizer.reports_iff (n : ResponsesSseNormalizer) (l : Option SseFrame) :
    n.stream.Reports (letterMoves n.observer l) ↔ n.Reports l := by
  cases l with
  | none => simp [ResponsesStream.Reports, letterMoves, Reports, Move.isStart, Move.isFinish]
  | some f =>
    have hcompletes := completes_iff n.observer f
    unfold ResponsesStream.Reports
    rw [letterMoves, ← hcompletes]
    cases f with
    | data value leadingSpace line =>
      have hstart : ∃ m ∈ frameMoves n.observer (.data value leadingSpace line),
          m.isStart = true :=
        ⟨.start _, List.mem_append_left _ (List.mem_cons_of_mem _ List.mem_cons_self), rfl⟩
      simp only [hstart, and_true, SseFrame.completes, Reports]
    | done line => simp [frameMoves, SseFrame.completes, Reports, Move.isStart]
    | _ => simp [frameMoves, SseFrame.completes, Reports]

namespace SseStrategy

/-- **The additions of a letter.** -/
def letterAdditions (s : SseStrategy) (l : Option SseFrame) : List Addition :=
  match s with
  | .native n => countingAdditions n.state.observer.usage l
  | .responses n =>
    countingAdditions n.state.observer.usage l ++
      Mealy.trace ResponsesStream.step ResponsesStream.moveAdditions n.state.stream
        (letterMoves n.state.observer l)
  | .chatCompletions n =>
    countingAdditions n.state.observer.usage l ++ n.state.usageChunkAdditions l
  | .anthropicMessages _ => []
  | .anthropicMessagesToChat n => n.state.usageAdditions l

/-- The counts of a letter fit in the state before it: those of its usage objects, the counters
after it, and the sums that are reported for it. -/
def LetterFits (s : SseStrategy) (l : Option SseFrame) : Prop :=
  match s with
  | .native n => CountsFit n.state.observer.usage l
  | .responses n => CountsFit n.state.observer.usage l ∧
    (n.state.Reports l → ReportFits n.state.observer.usage l)
  | .chatCompletions n => CountsFit n.state.observer.usage l
  | .anthropicMessages _ => True
  | .anthropicMessagesToChat n => ∀ value leadingSpace line object,
    l = some (.data value leadingSpace line) → anthropicEventUsage value = some object →
      ((numberField object "input_tokens").getD n.state.observer.usage.input).toNat +
        ((numberField object "output_tokens").getD n.state.observer.usage.output).toNat < 2 ^ 64

/-- **A letter does not overflow** exactly where its counts fit. -/
theorem letterAdditions_fit_iff (s : SseStrategy) (l : Option SseFrame) :
    (∀ a ∈ s.letterAdditions l, a.Fits) ↔ s.LetterFits l := by
  cases s with
  | native n => exact countingAdditions_fit_iff n.state.observer.usage l
  | responses n =>
    rw [letterAdditions, LetterFits, List.forall_mem_append, countingAdditions_fit_iff,
      ResponsesStream.forall_moveAdditions_iff (letterMoves_withUsage n.state.observer l),
      n.state.reports_iff]
    refine and_congr_right fun hcounts => ?_
    rw [reportAdditions_fit_iff hcounts]
  | chatCompletions n =>
    rw [letterAdditions, LetterFits, List.forall_mem_append, countingAdditions_fit_iff]
    exact and_iff_left_of_imp fun hcounts => n.state.usageChunkAdditions_fit hcounts.1
  | anthropicMessages n => exact iff_of_true (by simp [letterAdditions]) trivial
  | anthropicMessagesToChat n =>
    have hrewrite (value : Value) :=
      anthropicEventUsage_rewriteEvent n.state.observer value
    rw [letterAdditions, LetterFits]
    cases l with
    | none => simp [AnthropicMessagesToChatSseNormalizer.usageAdditions]
    | some f =>
      cases f with
      | data value leadingSpace line =>
        rw [AnthropicMessagesToChatSseNormalizer.usageAdditions, hrewrite]
        cases husage : anthropicEventUsage value with
        | none =>
          refine iff_of_true (by simp) fun value' _ _ object heq hobject => ?_
          obtain ⟨rfl, -, -⟩ := SseFrame.data.inj (Option.some.inj heq)
          rw [husage] at hobject
          cases hobject
        | some object =>
          rw [List.forall_mem_singleton]
          constructor
          · rintro h value' _ _ object' heq hobject
            obtain ⟨rfl, -, -⟩ := SseFrame.data.inj (Option.some.inj heq)
            obtain rfl := Option.some.inj (husage.symm.trans hobject)
            exact h
          · intro h
            exact h value leadingSpace line object rfl husage
      | _ => simp [AnthropicMessagesToChatSseNormalizer.usageAdditions]

end SseStrategy

/-! ### Whole streams -/

/-- The counters after a usage object that overwrites them, as natural numbers. -/
def exactOverwrite (counts : Counter → ℕ) (object : List (String × Value)) : Counter → ℕ :=
  let input := ((numberField object "input_tokens").map UInt64.toNat).getD (counts .input)
  let output := ((numberField object "output_tokens").map UInt64.toNat).getD (counts .output)
  fun
    | .input => input
    | .output => output
    | .total => input + output
    | c => counts c

namespace SseStrategy

/-- The counters of a strategy after a frame, as natural numbers. -/
def exactStep (s : SseStrategy) (counts : Counter → ℕ) (f : SseFrame) : Counter → ℕ :=
  match s with
  | .anthropicMessages _ => counts
  | .anthropicMessagesToChat _ =>
    match f with
    | .data value _ _ => ((anthropicEventUsage value).map (exactOverwrite counts)).getD counts
    | _ => counts
  | _ => fun c => counts c + exactUsage f.usageObjects c

/-- The counters of a strategy, as natural numbers. -/
def exactCounts (s : SseStrategy) (c : Counter) : ℕ := (s.usage.count c).toNat

theorem exactCounts_congr {s s' : SseStrategy} (h : s.usage = s'.usage) :
    s.exactCounts = s'.exactCounts := by
  funext c
  rw [exactCounts, h, exactCounts]

/-- The counters of a strategy after some frames, as natural numbers. -/
def exactRun (s : SseStrategy) (fs : List SseFrame) : Counter → ℕ :=
  fs.foldl s.exactStep s.exactCounts

theorem exactStep_handleFrame (s : SseStrategy) (f : SseFrame) :
    (s.handleFrame f).1.exactStep = s.exactStep := by
  cases s <;> rfl

theorem usage_handleFrame_responses (n : Normalizer ResponsesSseNormalizer) (f : SseFrame) :
    ((SseStrategy.responses n).handleFrame f).1.usage =
      n.state.observer.usage + letterUsage (some f) := by
  have h := n.state.handleLetter_eq (some f)
  rw [← usage_observeLetter n.state.observer (some f)]
  exact congrArg (fun r => r.1.observer.usage) h

theorem usage_handleFrame_native (n : Normalizer SseNormalizer) (f : SseFrame) :
    ((SseStrategy.native n).handleFrame f).1.usage =
      n.state.observer.usage + letterUsage (some f) := by
  rw [← usage_observeLetter n.state.observer (some f)]
  cases f with
  | data value leadingSpace line =>
    simp only [handleFrame, SseNormalizer.handleFrame, SseNormalizer.handleData]
    split_ifs <;> rfl
  | _ => rfl

theorem usage_handleFrame_chatCompletions (n : Normalizer ChatCompletionsSseNormalizer)
    (f : SseFrame) : ((SseStrategy.chatCompletions n).handleFrame f).1.usage =
      n.state.observer.usage + letterUsage (some f) := by
  rw [← usage_observeLetter n.state.observer (some f)]
  cases f <;> rfl

theorem usage_handleFrame_messages (n : Normalizer AnthropicMessagesToChatSseNormalizer)
    (value : Value) (leadingSpace : Bool) (line : Bytes) :
    ((SseStrategy.anthropicMessagesToChat n).handleFrame (.data value leadingSpace line)).1.usage =
      ((anthropicEventUsage value).map (overwriteUsage n.state.observer.usage)).getD
        n.state.observer.usage := by
  show (n.state.observer.observeUsage
    (AnthropicMessagesToChatSseNormalizer.rewriteEvent n.state.observer value)).usage = _
  unfold SseObserver.observeUsage
  rw [anthropicEventUsage_rewriteEvent]
  cases anthropicEventUsage value <;> rfl

/-- **The counters after a frame that fits are exact.** -/
theorem exactCounts_handleFrame {s : SseStrategy} {f : SseFrame} (h : s.LetterFits (some f)) :
    (s.handleFrame f).1.exactCounts = s.exactStep s.exactCounts f := by
  funext c
  cases s with
  | native n =>
    rw [exactCounts, usage_handleFrame_native]
    exact toNat_letterUsage h c
  | responses n =>
    rw [exactCounts, usage_handleFrame_responses]
    exact toNat_letterUsage h.1 c
  | chatCompletions n =>
    rw [exactCounts, usage_handleFrame_chatCompletions]
    exact toNat_letterUsage h c
  | anthropicMessages n => rfl
  | anthropicMessagesToChat n =>
    cases f with
    | data value leadingSpace line =>
      rw [exactCounts, usage_handleFrame_messages, exactStep]
      cases hobject : anthropicEventUsage value with
      | none => rfl
      | some object =>
        have hsum := h value leadingSpace line object rfl hobject
        have hgetD (field : String) (u : UInt64) : ((numberField object field).getD u).toNat =
            ((numberField object field).map UInt64.toNat).getD u.toNat := by
          cases numberField object field <;> rfl
        rw [Option.map_some, Option.getD_some, Option.map_some, Option.getD_some]
        cases c with
        | input => exact hgetD "input_tokens" _
        | output => exact hgetD "output_tokens" _
        | total =>
          refine (Addition.toNat_add hsum).trans ?_
          exact congrArg₂ (· + ·) (hgetD "input_tokens" _) (hgetD "output_tokens" _)
        | cachedInput => rfl
        | reasoningOutput => rfl
    | _ => rfl

end SseStrategy

/-- The additions of some frames. -/
def framesAdditions (s : SseStrategy) (fs : List SseFrame) : List Addition :=
  Mealy.trace SseStrategy.handleFrame (fun s f => s.letterAdditions (some f)) s fs

/-- The counts of each frame fit in the state before it. -/
def FramesFit (s : SseStrategy) (fs : List SseFrame) : Prop :=
  Mealy.Along SseStrategy.handleFrame (fun s f => s.LetterFits (some f)) s fs

theorem framesAdditions_fit_iff (s : SseStrategy) (fs : List SseFrame) :
    (∀ a ∈ framesAdditions s fs, a.Fits) ↔ FramesFit s fs :=
  Mealy.forall_mem_trace (fun s f => s.letterAdditions_fit_iff (some f)) s fs

/-- **The counters after frames that fit are exact.** -/
theorem exactCounts_run {s : SseStrategy} {fs : List SseFrame} (h : FramesFit s fs) :
    (Mealy.run SseStrategy.handleFrame s fs).1.exactCounts = s.exactRun fs := by
  induction fs generalizing s with
  | nil => rfl
  | cons f fs ih =>
    rw [Mealy.run_cons, ih h.2, SseStrategy.exactRun, s.exactStep_handleFrame,
      SseStrategy.exactCounts_handleFrame h.1, SseStrategy.exactRun, List.foldl_cons]

/-- The counters that `StreamMetrics::add_usage` adds. -/
def collectedCounters : List Counter := [.input, .cachedInput, .output, .total]

/-- The additions with which the counters of a strategy are collected, if there is output. -/
def collectAdditions (m : StreamMetrics) (s : SseStrategy) (output : Bytes) : List Addition :=
  if output.isEmpty then [] else m.usage.additions collectedCounters s.usage

/-- The sums of what is collected and the given counters fit, if there is output. -/
def CollectFits (m : StreamMetrics) (counts : Counter → ℕ) (output : Bytes) : Prop :=
  output ≠ [] → ∀ c ∈ collectedCounters, (m.usage.count c).toNat + counts c < 2 ^ 64

theorem collectAdditions_fit_iff (m : StreamMetrics) (s : SseStrategy) (output : Bytes) :
    (∀ a ∈ collectAdditions m s output, a.Fits) ↔ CollectFits m s.exactCounts output := by
  unfold collectAdditions CollectFits
  cases output with
  | nil => simp
  | cons byte bytes =>
    rw [if_neg (by simp), forall_additions_iff]
    exact ⟨fun h _ => h, fun h => h (by simp)⟩

/-- The additions of one upstream chunk. -/
def chunkAdditions (c : Codec) (st : SseStrategy × StreamMetrics) (chunk : Bytes) :
    List Addition :=
  let r := st.1.push c chunk
  framesAdditions st.1 (st.1.parser.push c chunk).2 ++ collectAdditions st.2 r.1 (outBytes c r.2)

/-- The counts of a chunk fit: those of each of its frames, and if there is output the totals with
the counters after the frames. -/
def ChunkFits (c : Codec) (st : SseStrategy × StreamMetrics) (chunk : Bytes) : Prop :=
  let frames := (st.1.parser.push c chunk).2
  FramesFit st.1 frames ∧
    CollectFits st.2 (st.1.exactRun frames) (outBytes c (st.1.push c chunk).2)

/-- The additions at the end of the upstream stream. -/
def endAdditions (c : Codec) (st : SseStrategy × StreamMetrics) : List Addition :=
  let frames := (st.1.parser.finish c).2
  let r := st.1.finish c
  framesAdditions st.1 frames ++
    (Mealy.run SseStrategy.handleFrame st.1 frames).1.letterAdditions none ++
      collectAdditions st.2 r.1 (outBytes c r.2)

/-- The counts of the end of the stream fit: those of the line left over and of the end, and if
there is output the totals. -/
def EndFits (c : Codec) (st : SseStrategy × StreamMetrics) : Prop :=
  let frames := (st.1.parser.finish c).2
  (FramesFit st.1 frames ∧ (Mealy.run SseStrategy.handleFrame st.1 frames).1.LetterFits none) ∧
    CollectFits st.2 (st.1.exactRun frames) (outBytes c (st.1.finish c).2)

theorem exactCounts_push {c : Codec} {s : SseStrategy} {chunk : Bytes}
    (h : FramesFit s (s.parser.push c chunk).2) :
    (s.push c chunk).1.exactCounts = s.exactRun (s.parser.push c chunk).2 := by
  have hpush := SseStrategy.push_withParser c s s.parser chunk
  rw [SseStrategy.withParser_self] at hpush
  rw [← exactCounts_run h]
  exact SseStrategy.exactCounts_congr (by rw [hpush, SseStrategy.usage_withParser])

theorem exactCounts_finish {c : Codec} {s : SseStrategy} (h : FramesFit s (s.parser.finish c).2) :
    (s.finish c).1.exactCounts = s.exactRun (s.parser.finish c).2 := by
  have hfinish := SseStrategy.finish_withParser c s s.parser
  have htail (s : SseStrategy) : s.finishTail.1.usage = s.usage := by
    cases s <;> rfl
  rw [SseStrategy.withParser_self] at hfinish
  rw [← exactCounts_run h]
  exact SseStrategy.exactCounts_congr (by rw [hfinish, SseStrategy.usage_withParser, htail])

theorem chunkAdditions_fit_iff (c : Codec) (st : SseStrategy × StreamMetrics) (chunk : Bytes) :
    (∀ a ∈ chunkAdditions c st chunk, a.Fits) ↔ ChunkFits c st chunk := by
  rw [chunkAdditions, List.forall_mem_append, framesAdditions_fit_iff, collectAdditions_fit_iff,
    ChunkFits]
  exact and_congr_right fun h => by rw [exactCounts_push h]

theorem endAdditions_fit_iff (c : Codec) (st : SseStrategy × StreamMetrics) :
    (∀ a ∈ endAdditions c st, a.Fits) ↔ EndFits c st := by
  rw [endAdditions, List.forall_mem_append, List.forall_mem_append, framesAdditions_fit_iff,
    SseStrategy.letterAdditions_fit_iff, collectAdditions_fit_iff, EndFits]
  exact and_congr_right fun h => by rw [exactCounts_finish h.1]

/-! ### Whole responses -/

/-- What a backend answers: a body, or a stream of chunks that reaches its end or breaks off. -/
inductive Upstream where
  | body (bytes : Bytes) (contentType : Option String)
  | stream (chunks : List Bytes) (ended : Bool)

namespace Upstream

/-- **Every addition of token counts for a response.** -/
def additions (c : Codec) (mode : RequestMode) (backendModel publicModel : Option String)
    (emitUsageToClient : Bool) : Upstream → List Addition
  | .body bytes contentType => bodyAdditions c bytes contentType backendModel publicModel mode
  | .stream chunks ended =>
    let st := (SseStrategy.new mode backendModel publicModel emitUsageToClient, {})
    Mealy.trace (streamChunk c) (chunkAdditions c) st chunks ++
      if ended then endAdditions c (Mealy.run (streamChunk c) st chunks).1 else []

/-- The counts of a response fit: those of its body, or those of its stream at every step. -/
def CountsFit (c : Codec) (mode : RequestMode) (backendModel publicModel : Option String)
    (emitUsageToClient : Bool) : Upstream → Prop
  | .body bytes contentType => BodyFits c bytes contentType mode
  | .stream chunks ended =>
    let st := (SseStrategy.new mode backendModel publicModel emitUsageToClient, {})
    Mealy.Along (streamChunk c) (ChunkFits c) st chunks ∧
      (ended = true → EndFits c (Mealy.run (streamChunk c) st chunks).1)

/-- **When token arithmetic overflows**: for every body and every stream, all additions of token
counts fit a `u64` if and only if the counts do, taken as natural numbers. -/
theorem additions_fit_iff (c : Codec) (mode : RequestMode)
    (backendModel publicModel : Option String) (emitUsageToClient : Bool) (u : Upstream) :
    (∀ a ∈ u.additions c mode backendModel publicModel emitUsageToClient, a.Fits) ↔
      u.CountsFit c mode backendModel publicModel emitUsageToClient := by
  cases u with
  | body bytes contentType =>
    exact bodyAdditions_fit_iff c bytes contentType backendModel publicModel mode
  | stream chunks ended =>
    rw [additions, CountsFit]
    rw [List.forall_mem_append, Mealy.forall_mem_trace (chunkAdditions_fit_iff c)]
    refine and_congr_right fun _ => ?_
    cases ended with
    | true =>
      rw [if_pos rfl, endAdditions_fit_iff]
      exact ⟨fun h _ => h, fun h => h rfl⟩
    | false => simp

/-- The largest `u64` in one of the spellings of a count, and something in the other. -/
def sampleBody : Upstream :=
  .body (asBytes ("\x7b\"usage\":\x7b\"prompt_tokens\":18446744073709551615," ++
    "\"input_tokens\":1\x7d\x7d")) (some "application/json")

/-- Their sum is not a `u64`. -/
theorem not_additions_fit_sampleBody :
    ¬∀ a ∈ sampleBody.additions reference .native none none false, a.Fits := by
  intro h
  have hmem : ((18446744073709551615, 1) : Addition) ∈
      sampleBody.additions reference .native none none false := by
    decide +kernel
  exact absurd (h _ hmem) (by decide +kernel)

end Upstream

end Onair
