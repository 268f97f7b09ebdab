import Mathlib.Data.UInt
import Onair.Proxy.Invariance

/-!
# When the usage of a stream is accounted for

The loop adds up the counters at every output and forgets them, and leaves out what comes after the
last output.

* `segments`: the letters between one output and the next, and the letters after the last one;
* `streamGroups_usage`: **the totals of a stream are the sums over its segments**;
* `CountKept`, `UsageKept`, `streaming_usage_iff`: the totals are those of the stream as a whole if
  and only if nothing with a count is lost or counted anew after a reset, and no reasoning tokens
  were counted.
-/

namespace Onair

open Json Lines Text SseStrategy

/-! ### The sums of the loop -/

/-- The counters without the reasoning tokens, which the loop does not add up. -/
def UsageTotals.withoutReasoning (u : UsageTotals) : UsageTotals := { u with reasoningOutput := 0 }

namespace UsageTotals

@[simp] theorem withoutReasoning_zero : (0 : UsageTotals).withoutReasoning = 0 := rfl

@[simp] theorem withoutReasoning_add (u v : UsageTotals) :
    (u + v).withoutReasoning = u.withoutReasoning + v.withoutReasoning := by
  ext1 <;> simp [withoutReasoning]

end UsageTotals

theorem usage_collect (m : StreamMetrics) (s : SseStrategy) :
    (m.collect s).usage = m.usage + s.usage.withoutReasoning := by
  simp only [StreamMetrics.collect, StreamMetrics.addUsage, StreamMetrics.addUsageDiagnostics]
  ext1 <;> simp [UsageTotals.withoutReasoning]

/-- The letters of a stream cut at the outputs: after each group that sends something, and at the
end if that sends something. The second list is what comes after the last output; `current` are the
letters since the last output, and `t` are the letters after all groups. -/
def segments (c : Codec) (s : SseStrategy) (current : List (Option SseFrame)) :
    List (List (Option SseFrame)) → List (Option SseFrame) →
      List (List (Option SseFrame)) × List (Option SseFrame)
  | [], t => if s.Sends c t then ([current ++ t], []) else ([], current ++ t)
  | g :: gs, t =>
    let s' := (Mealy.run (letterStep c) s g).1
    if s.Sends c g then
      let r := segments c s' [] gs t
      ((current ++ g) :: r.1, r.2)
    else segments c s' (current ++ g) gs t

/-- **The segments are the letters of the stream.** -/
theorem segments_flatten (c : Codec) (s : SseStrategy) (current : List (Option SseFrame))
    (gs : List (List (Option SseFrame))) (t : List (Option SseFrame)) :
    (segments c s current gs t).1.flatten ++ (segments c s current gs t).2 =
      current ++ gs.flatten ++ t := by
  induction gs generalizing s current with
  | nil =>
    rw [segments]
    split_ifs <;> simp
  | cons g gs ih =>
    rw [segments]
    dsimp only
    split_ifs
    · rw [List.flatten_cons, List.append_assoc, ih]
      simp
    · rw [ih]
      simp

/-- The sum of what the segments count. -/
def segmentUsage (mode : RequestMode) (segs : List (List (Option SseFrame))) : UsageTotals :=
  (segs.map fun seg => (mode.usageSeen seg).1.withoutReasoning).sum

theorem usage_groupStep (c : Codec) (st : SseStrategy × StreamMetrics) (g : List SseFrame) :
    (groupStep c st g).1.2.usage = st.2.usage + if st.1.Sends c (g.map some) then
      (Mealy.run (letterStep c) st.1 (g.map some)).1.usage.withoutReasoning else 0 := by
  simp only [groupStep, SseStrategy.Sends, run_letterStep_frames]
  by_cases h : outBytes c (Mealy.run handleFrame st.1 g).2 = []
  · simp [h]
  · simp [h, usage_collect]

theorem usage_groupEnd (c : Codec) (st : SseStrategy × StreamMetrics) (tail : List SseFrame) :
    (groupEnd c st tail).1.usage = st.2.usage + if st.1.Sends c (tail.map some ++ [none]) then
      (Mealy.run (letterStep c) st.1 (tail.map some ++ [none])).1.usage.withoutReasoning
    else 0 := by
  have hrun : Mealy.run (letterStep c) st.1 (tail.map some ++ [none]) =
      ((Mealy.run handleFrame st.1 tail).1.finishTail.1,
        outBytes c ((Mealy.run handleFrame st.1 tail).2 ++
          (Mealy.run handleFrame st.1 tail).1.finishTail.2)) := by
    rw [Mealy.run_append, run_letterStep_frames, Mealy.run_singleton, outBytes_append]
    rfl
  simp only [groupEnd, SseStrategy.Sends, hrun]
  generalize outBytes c ((Mealy.run handleFrame st.1 tail).2 ++
    (Mealy.run handleFrame st.1 tail).1.finishTail.2) = bytes
  by_cases h : bytes = []
  · simp [h]
  · simp [h, usage_collect]

/-- A state of the loop, and the state of a run without resets: they differ in their counters,
which are those of the letters since the last output. -/
structure Since (s s' : SseStrategy) (current : List (Option SseFrame)) : Prop where
  opened : s.Opened
  opened' : s'.Opened
  core : s'.clear = s.clear
  counts_eq : s'.counts = s.mode.usageSeen current

namespace Since

variable {s s' : SseStrategy} {current : List (Option SseFrame)}

theorem mode_eq (h : Since s s' current) : s'.mode = s.mode := by
  rw [← mode_clear s', h.core, mode_clear]

theorem sends_iff (h : Since s s' current) (c : Codec) (ls : List (Option SseFrame)) :
    s'.Sends c ls ↔ s.Sends c ls :=
  not_congr ((resettable c).run_silent_core h.opened' h.opened h.core ls)

theorem run (h : Since s s' current) (c : Codec) (ls : List (Option SseFrame)) :
    Since (Mealy.run (letterStep c) s ls).1 (Mealy.run (letterStep c) s' ls).1 (current ++ ls) where
  opened := (resettable c).inv_run h.opened ls
  opened' := (resettable c).inv_run h.opened' ls
  core := (resettable c).run_core h.core ls
  counts_eq := by
    rw [counts_run, h.mode_eq, h.counts_eq, mode_run, RequestMode.usageSeen,
      RequestMode.usageSeen, List.foldl_append]

theorem clear (h : Since s s' current) : Since s s'.clear [] where
  opened := h.opened
  opened' := s'.opened_clear
  core := by rw [clear_eq s', clear_withCounts, h.core]
  counts_eq := counts_clear s'

end Since

/-- **The totals of a stream are the sums over its segments**, by induction on the groups. -/
theorem streamGroups_usage (c : Codec) (gs : List (List SseFrame)) (tail : List SseFrame)
    {s s' : SseStrategy} {current : List (Option SseFrame)} (h : Since s s' current)
    (m : StreamMetrics) :
    (groupEnd c (Mealy.run (groupStep c) (s', m) gs).1 tail).1.usage =
      m.usage + segmentUsage s.mode
        (segments c s current (gs.map (List.map some)) (tail.map some ++ [none])).1 := by
  induction gs generalizing s s' current m with
  | nil =>
    have hend := (h.run c (tail.map some ++ [none])).counts_eq
    rw [mode_run] at hend
    rw [Mealy.run_nil, usage_groupEnd, List.map_nil, segments]
    simp only [h.sends_iff]
    split_ifs
    · simp only [segmentUsage, List.map_cons, List.map_nil, List.sum_cons, List.sum_nil, add_zero,
        ← hend]
      rfl
    · rfl
  | cons g gs ih =>
    have hg := h.run c (g.map some)
    have hcounts := hg.counts_eq
    rw [mode_run] at hcounts
    obtain ⟨hstate, -⟩ := groupStep_eq c (s', m) g
    have husage := usage_groupStep c (s', m) g
    rw [Mealy.run_cons, List.map_cons, segments]
    dsimp only at hstate husage ⊢
    by_cases hsend : s.Sends c (g.map some)
    · rw [if_pos hsend]
      rw [if_pos ((h.sends_iff c _).mpr hsend)] at husage
      rw [Mealy.batch_of_output ((h.sends_iff c _).mpr hsend)] at hstate
      have hrest := ih hg.clear (groupStep c (s', m) g).1.2
      rw [← hstate, mode_run] at hrest
      rw [hrest, husage, add_assoc]
      simp only [segmentUsage, List.map_cons, List.sum_cons, ← hcounts]
      rfl
    · have hsilent := not_not.mp fun hne => hsend ((h.sends_iff c _).mp hne)
      rw [if_neg hsend]
      rw [if_neg fun hne => hsend ((h.sends_iff c _).mp hne), add_zero] at husage
      rw [Mealy.batch_of_silent hsilent] at hstate
      have hrest := ih hg (groupStep c (s', m) g).1.2
      rw [← hstate, mode_run] at hrest
      rw [hrest, husage]

/-! ### The usage of a stream as a whole -/

/-- **The usage without resets** is that of all letters of the stream. -/
theorem runAll_usage (c : Codec) {s : SseStrategy} (h : s.withParser {} = s)
    (hzero : s.counts = (0, 0)) (b : Bytes) :
    (s.runAll c [b]).1.usage = (s.mode.usageSeen (lineLetters c b ++ tailLetters c b)).1 := by
  have hpush : s.push c b = ((Mealy.run handleFrame s (lineFrames c b)).1.withParser
      ⟨(drainLines b).2⟩, (Mealy.run handleFrame s (lineFrames c b)).2) := by
    rw [← h, push_withParser]
    simp [h, SseLineParser.push, lineFrames]
  have hrun : (Mealy.run (letterStep c) s (lineLetters c b ++ tailLetters c b)).1 =
      (Mealy.run handleFrame (Mealy.run handleFrame s (lineFrames c b)).1
        (tailFrames c b)).1.finishTail.1 := by
    rw [lineLetters, tailLetters, Mealy.run_append, Mealy.run_append, run_letterStep_frames,
      run_letterStep_frames, Mealy.run_singleton]
    rfl
  have hcounts := counts_run c s (lineLetters c b ++ tailLetters c b)
  rw [hrun, hzero] at hcounts
  rw [runAll, pushAll, Mealy.run_singleton, hpush]
  simp only [finish_withParser, finish_pending, usage_withParser]
  exact congrArg Prod.fst hcounts

/-! ### Modes that add up -/

theorem usageSeen_append {mode : RequestMode} (h : mode ≠ .chatCompletionsViaMessages)
    (ls ls' : List (Option SseFrame)) :
    (mode.usageSeen (ls ++ ls')).1 = (mode.usageSeen ls).1 + (mode.usageSeen ls').1 := by
  have hfold : ∀ (ls : List (Option SseFrame)) (counts : UsageTotals × ℕ),
      (ls.foldl mode.countLetter counts).1 = counts.1 + (mode.usageSeen ls).1 := by
    intro ls
    induction ls with
    | nil => simp [RequestMode.usageSeen]
    | cons l ls ih =>
      intro counts
      rw [RequestMode.usageSeen, List.foldl_cons, List.foldl_cons, ih,
        ih (mode.countLetter (0, 0) l)]
      cases mode with
      | chatCompletionsViaMessages => exact absurd rfl h
      | anthropicMessagesNative => simp [RequestMode.countLetter]
      | _ => simp only [RequestMode.countLetter, zero_add, add_assoc]
  rw [RequestMode.usageSeen, List.foldl_append, hfold]
  rfl

theorem segmentUsage_eq {mode : RequestMode} (h : mode ≠ .chatCompletionsViaMessages)
    (segs : List (List (Option SseFrame))) :
    segmentUsage mode segs = (mode.usageSeen segs.flatten).1.withoutReasoning := by
  induction segs with
  | nil => rfl
  | cons seg segs ih =>
    rw [List.flatten_cons, usageSeen_append h, UsageTotals.withoutReasoning_add, ← ih]
    simp [segmentUsage]

/-- Sums that leave some counters out are the whole if and only if these are zero. -/
theorem withoutReasoning_eq_add_iff (a l : UsageTotals) :
    a.withoutReasoning = a + l ↔ (a + l).reasoningOutput = 0 ∧ l.withoutReasoning = 0 := by
  rw [UsageTotals.ext_iff, UsageTotals.ext_iff]
  simp only [UsageTotals.withoutReasoning, UsageTotals.input_add, UsageTotals.cachedInput_add,
    UsageTotals.output_add, UsageTotals.reasoningOutput_add, UsageTotals.total_add,
    UsageTotals.input_zero, UsageTotals.cachedInput_zero, UsageTotals.output_zero,
    UsageTotals.reasoningOutput_zero, UsageTotals.total_zero, UInt64.left_eq_add]
  rw [eq_comm (a := (0 : UInt64))]
  tauto

/-! ### The mode that overwrites -/

/-- The count of a field in the usage object of a letter. -/
def letterCount (field : String) : Option SseFrame → Option UInt64
  | some (.data value _ _) => (anthropicEventUsage value).bind fun usage => numberField usage field
  | _ => none

/-- The last count of a field. -/
def lastCount (field : String) (ls : List (Option SseFrame)) : Option UInt64 :=
  (ls.filterMap (letterCount field)).getLast?

theorem lastCount_cons (field : String) (l : Option SseFrame) (ls : List (Option SseFrame))
    (n : UInt64) : (lastCount field (l :: ls)).getD n =
      (lastCount field ls).getD ((letterCount field l).getD n) := by
  unfold lastCount
  rw [List.filterMap_cons]
  cases letterCount field l with
  | none => rfl
  | some m =>
    rw [List.getLast?_cons]
    cases (ls.filterMap (letterCount field)).getLast? <;> rfl

/-- The counters after a run of overwriting: the last counts, and their sum. -/
theorem usageSeen_messages (ls : List (Option SseFrame)) :
    (RequestMode.usageSeen .chatCompletionsViaMessages ls).1 =
      { input := (lastCount "input_tokens" ls).getD 0
        output := (lastCount "output_tokens" ls).getD 0
        total := (lastCount "input_tokens" ls).getD 0 +
          (lastCount "output_tokens" ls).getD 0 } := by
  have hfold : ∀ (counts : UsageTotals × ℕ), counts.1.total = counts.1.input + counts.1.output →
      (ls.foldl (RequestMode.countLetter .chatCompletionsViaMessages) counts).1 =
        { counts.1 with
          input := (lastCount "input_tokens" ls).getD counts.1.input
          output := (lastCount "output_tokens" ls).getD counts.1.output
          total := (lastCount "input_tokens" ls).getD counts.1.input +
            (lastCount "output_tokens" ls).getD counts.1.output } := by
    induction ls with
    | nil =>
      intro counts htotal
      ext1 <;> first | rfl | exact htotal
    | cons l ls ih =>
      intro counts htotal
      rw [List.foldl_cons, lastCount_cons, lastCount_cons]
      have hstep : (RequestMode.countLetter .chatCompletionsViaMessages counts l).1 =
          { counts.1 with
            input := (letterCount "input_tokens" l).getD counts.1.input
            output := (letterCount "output_tokens" l).getD counts.1.output
            total := (letterCount "input_tokens" l).getD counts.1.input +
              (letterCount "output_tokens" l).getD counts.1.output } := by
        have hkeep : counts.1 = { counts.1 with total := counts.1.input + counts.1.output } := by
          rw [← htotal]
        cases l with
        | none => exact hkeep
        | some f =>
          cases f with
          | data value leadingSpace line =>
            simp only [RequestMode.countLetter, anthropicCounts, letterCount]
            cases anthropicEventUsage value with
            | none => exact hkeep
            | some usage => rfl
          | _ => exact hkeep
      rw [ih _ (by rw [hstep]), hstep]
  exact hfold (0, 0) rfl

/-- A count is kept: the counts of segments that a later segment's count supersedes add up to the
count that is never collected. -/
def CountKept (field : String) (segs : List (List (Option SseFrame)))
    (lost : List (Option SseFrame)) : Prop :=
  ((segs ++ [lost]).filterMap (lastCount field)).dropLast.sum = (lastCount field lost).getD 0

theorem lastCount_flatten (field : String) (segs : List (List (Option SseFrame))) :
    lastCount field segs.flatten = (segs.filterMap (lastCount field)).getLast? := by
  induction segs with
  | nil => rfl
  | cons seg segs ih =>
    rw [List.flatten_cons, lastCount, List.filterMap_append, List.getLast?_append,
      List.filterMap_cons]
    change (lastCount field segs.flatten).or (lastCount field seg) = _
    rw [ih]
    cases hseg : lastCount field seg with
    | none => simp
    | some n =>
      rw [List.getLast?_cons]
      cases (segs.filterMap (lastCount field)).getLast? <;> rfl

/-- The last counts of all segments add up to the last count of the stream if and only if the count
is kept. -/
theorem sum_lastCount_iff (field : String) (segs : List (List (Option SseFrame)))
    (lost : List (Option SseFrame)) :
    (segs.map fun seg => (lastCount field seg).getD 0).sum =
        (lastCount field (segs.flatten ++ lost)).getD 0 ↔ CountKept field segs lost := by
  have hsum : (segs.map fun seg => (lastCount field seg).getD 0).sum =
      (segs.filterMap (lastCount field)).sum := by
    induction segs with
    | nil => rfl
    | cons seg segs ih =>
      rw [List.map_cons, List.sum_cons, ih, List.filterMap_cons]
      cases lastCount field seg <;> simp
  have hall : lastCount field (segs.flatten ++ lost) =
      ((segs ++ [lost]).filterMap (lastCount field)).getLast? := by
    rw [← lastCount_flatten]
    simp
  rw [hsum, hall, CountKept, List.filterMap_append]
  generalize segs.filterMap (lastCount field) = counts
  cases hlost : lastCount field lost with
  | some n => simp [hlost]
  | none =>
    -- Nothing is lost, so the last count is that of a segment.
    simp only [List.filterMap_cons, hlost, List.filterMap_nil, List.append_nil, Option.getD_none]
    rcases List.eq_nil_or_concat counts with rfl | ⟨counts, n, rfl⟩
    · simp
    · simp

theorem segmentUsage_messages (segs : List (List (Option SseFrame))) :
    segmentUsage .chatCompletionsViaMessages segs =
      { input := (segs.map fun seg => (lastCount "input_tokens" seg).getD 0).sum
        output := (segs.map fun seg => (lastCount "output_tokens" seg).getD 0).sum
        total := (segs.map fun seg => (lastCount "input_tokens" seg).getD 0).sum +
          (segs.map fun seg => (lastCount "output_tokens" seg).getD 0).sum } := by
  induction segs with
  | nil => rfl
  | cons seg segs ih =>
    have hcons : segmentUsage .chatCompletionsViaMessages (seg :: segs) =
        (RequestMode.usageSeen .chatCompletionsViaMessages seg).1.withoutReasoning +
          segmentUsage .chatCompletionsViaMessages segs := rfl
    rw [hcons, ih, usageSeen_messages]
    simp only [List.map_cons, List.sum_cons]
    ext1
    · rfl
    · rfl
    · rfl
    · rfl
    · change (_ + _ : UInt64) + (_ + _) = _ + _ + (_ + _)
      ac_rfl

/-! ### The accounts of a stream -/

/-- The usage of a stream is kept, given its segments and what is lost after the last output: no
reasoning tokens and no usage after the last output; or, where a usage object overwrites the one
before, no count that is superseded after a reset and none that is lost. -/
def UsageKept (mode : RequestMode) (segs : List (List (Option SseFrame)))
    (lost : List (Option SseFrame)) : Prop :=
  match mode with
  | .chatCompletionsViaMessages =>
    CountKept "input_tokens" segs lost ∧ CountKept "output_tokens" segs lost
  | _ => (mode.usageSeen (segs.flatten ++ lost)).1.reasoningOutput = 0 ∧
      (mode.usageSeen lost).1.withoutReasoning = 0

theorem segmentUsage_eq_iff (mode : RequestMode) (segs : List (List (Option SseFrame)))
    (lost : List (Option SseFrame)) :
    segmentUsage mode segs = (mode.usageSeen (segs.flatten ++ lost)).1 ↔
      UsageKept mode segs lost := by
  by_cases hmode : mode = .chatCompletionsViaMessages
  · subst hmode
    rw [segmentUsage_messages, usageSeen_messages, UsageKept, ← sum_lastCount_iff,
      ← sum_lastCount_iff, UsageTotals.ext_iff]
    constructor
    · rintro ⟨hinput, -, houtput, -, -⟩
      exact ⟨hinput, houtput⟩
    · rintro ⟨hinput, houtput⟩
      exact ⟨hinput, rfl, houtput, rfl, congrArg₂ (· + ·) hinput houtput⟩
  · rw [segmentUsage_eq hmode, usageSeen_append hmode, withoutReasoning_eq_add_iff]
    cases mode with
    | chatCompletionsViaMessages => exact absurd rfl hmode
    | _ => simp only [UsageKept, usageSeen_append hmode]

/-- **When usage accounting is exact**: the totals at the end of a stream are those of the strategy
without resets if and only if the usage is kept. -/
theorem streaming_usage_iff (c : Codec) (mode : RequestMode)
    (backendModel publicModel : Option String) (emitUsageToClient : Bool) (chunks : List Bytes) :
    let s := SseStrategy.new mode backendModel publicModel emitUsageToClient
    let segs := segments c s [] ((chunkGroups c [] chunks).map (List.map some))
      (tailLetters c chunks.flatten)
    (streamingResponse c mode backendModel publicModel emitUsageToClient chunks).1.usage =
        (s.runAll c [chunks.flatten]).1.usage ↔ UsageKept mode segs.1 segs.2 := by
  intro s segs
  have hnew : s.withParser {} = s := new_withParser mode backendModel publicModel emitUsageToClient
  have hzero : s.counts = (0, 0) := counts_new mode backendModel publicModel emitUsageToClient
  have hmode : s.mode = mode := by
    cases mode <;> rfl
  have hopened : s.Opened := opened_new mode backendModel publicModel emitUsageToClient
  have hloop : (streamAll c s chunks).1.usage = segmentUsage mode segs.1 := by
    rw [streamAll_eq c hnew, streamGroups]
    have hsince : Since s s [] := ⟨hopened, hopened, rfl, hzero⟩
    have h := streamGroups_usage c (chunkGroups c [] chunks) (tailFrames c chunks.flatten) hsince {}
    rw [hmode] at h
    exact h.trans (zero_add _)
  have hflat : segs.1.flatten ++ segs.2 =
      lineLetters c chunks.flatten ++ tailLetters c chunks.flatten := by
    rw [segments_flatten, ← List.map_flatten, flatten_chunkGroups c List.not_mem_nil]
    rfl
  rw [streamingResponse, hloop, runAll_usage c hnew hzero, hmode, ← hflat, segmentUsage_eq_iff]

/-- Reasoning tokens are not added up. -/
theorem streaming_usage_reasoning :
    let chunks := [sseData reference (.obj [("choices", .array []), ("usage", .obj
      [("completion_tokens", .u64 7),
        ("completion_tokens_details", .obj [("reasoning_tokens", .u64 5)])])])]
    (streamingResponse reference .native none none true chunks).1.usage ≠
      ((SseStrategy.new .native none none true).runAll reference [chunks.flatten]).1.usage := by
  rw [reference_eq_direct]
  decide +kernel

end Onair
