import Onair.Core.Rewritten
import Onair.Lib.Json.Reference
import Onair.Responses.Deltas

/-!
# The usage of a completed response

`response.completed` is sent at the first `finish_reason`, end marker or end of the stream, with the
usage counted by then.

* `usageObjects`, `streamUsage`: the usage objects of a stream, and what they add up to;
* `collectUsage_eq`, `usage_observeAll`: the observer counts every one of them;
* `SseFrame.completes`, `cutAtCompletion`: the frame that completes the response;
* `exists_first_completion`: the response is completed for the usage up to that frame;
* `responses_usage_iff`: **it is the usage of the whole stream if and only if nothing that counts
  comes later**.
-/

namespace Onair

open Json Text

/-! ### Usage objects -/

mutual
/-- The objects under a key `usage`, at any depth. -/
def usageObjects : Value → List (List (String × Value))
  | .object m => ((OrdMap.get "usage" m).bind Value.asObject).toList ++ usageObjectsEntries m
  | .array vs => usageObjectsList vs
  | _ => []
/-- `usageObjects` over the elements of an array. -/
def usageObjectsList : List Value → List (List (String × Value))
  | [] => []
  | v :: vs => usageObjects v ++ usageObjectsList vs
/-- `usageObjects` over the values of an object. -/
def usageObjectsEntries : List (String × Value) → List (List (String × Value))
  | [] => []
  | (_, v) :: m => usageObjects v ++ usageObjectsEntries m
end

/-- The counts of one usage object. -/
def objectUsage (object : List (String × Value)) : UsageTotals :=
  let fields := usageFieldsFromObject (some object)
  { input := fields.input
    cachedInput := fields.cached
    output := fields.output
    reasoningOutput := fields.reasoning
    total := fields.total }

/-- The usage objects of a frame. -/
def SseFrame.usageObjects : SseFrame → List (List (String × Value))
  | .data value _ _ => Onair.usageObjects value
  | _ => []

/-- What the usage objects of some frames add up to. -/
def streamUsage (fs : List SseFrame) : UsageTotals :=
  ((fs.flatMap SseFrame.usageObjects).map objectUsage).sum

@[simp] theorem streamUsage_nil : streamUsage [] = 0 := rfl

theorem streamUsage_append (fs gs : List SseFrame) :
    streamUsage (fs ++ gs) = streamUsage fs + streamUsage gs := by
  rw [streamUsage, List.flatMap_append, List.map_append, List.sum_append]
  rfl

/-- Count a usage object. -/
def UsageObservation.count (o : UsageObservation) (usage : List (String × Value)) :
    UsageObservation where
  totals := addUsageObject usage o.totals
  diagnostics := o.diagnostics.observeObject usage

/-- **The walk over a value counts each of its usage objects once.** -/
theorem collectUsage_eq (v : Value) (o : UsageObservation) :
    collectUsage v o = (usageObjects v).foldl UsageObservation.count o := by
  induction v using Value.induct generalizing o with
  | array vs ih =>
    rw [collectUsage, usageObjects]
    induction vs generalizing o with
    | nil => rfl
    | cons v vs ihs =>
      rw [collectUsageList, usageObjectsList, List.foldl_append, ← ih v List.mem_cons_self,
        ihs fun w hw => ih w (List.mem_cons_of_mem _ hw)]
  | object m ih =>
    have hentries : ∀ (m' : List (String × Value)) (o : UsageObservation), (∀ e ∈ m', e ∈ m) →
        collectUsageEntries m' o = (usageObjectsEntries m').foldl UsageObservation.count o := by
      intro m' o hm'
      induction m' generalizing o with
      | nil => rfl
      | cons e m' ihs =>
        obtain ⟨k, v⟩ := e
        rw [collectUsageEntries, usageObjectsEntries, List.foldl_append,
          ← ih _ (hm' _ List.mem_cons_self), ihs _ fun e he => hm' e (List.mem_cons_of_mem _ he)]
    rw [collectUsage, usageObjects, hentries m _ fun _ he => he, List.foldl_append]
    cases (OrdMap.get "usage" m).bind Value.asObject <;> rfl
  | _ => rfl

theorem collectUsage_totals (v : Value) (o : UsageObservation) :
    (collectUsage v o).totals = o.totals + ((usageObjects v).map objectUsage).sum := by
  rw [collectUsage_eq]
  induction usageObjects v generalizing o with
  | nil => exact (add_zero _).symm
  | cons object objects ih =>
    rw [List.foldl_cons, ih, List.map_cons, List.sum_cons, ← add_assoc]
    rfl

theorem usage_observeAll (o : SseObserver) (fs : List SseFrame) :
    (o.observeAll fs).usage = o.usage + streamUsage fs := by
  induction fs generalizing o with
  | nil => simp [SseObserver.observeAll]
  | cons f fs ih =>
    have hf : (o.observe f).usage = o.usage + streamUsage [f] := by
      cases f with
      | data value leadingSpace line =>
        have hzero : ({} : UsageTotals) = 0 := rfl
        simp [SseObserver.observe, SseObserver.applyDataPrologue, streamUsage,
          SseFrame.usageObjects, extractUsageObservation, collectUsage_totals, hzero]
      | _ => exact (add_zero _).symm
    have hcons := streamUsage_append [f] fs
    rw [List.singleton_append] at hcons
    rw [hcons, ← add_assoc, ← hf]
    exact ih (o.observe f)

/-! ### The completing frame -/

/-- The frame completes the response: it is the end marker, or a chunk one of whose choices has a
finish reason. -/
def SseFrame.completes : SseFrame → Bool
  | .data value _ _ =>
    (ResponsesStream.chunkChoices value).any ResponsesStream.choiceFinishes
  | .done _ => true
  | _ => false

/-- The frames up to the one that completes the response, and those that come later. -/
def cutAtCompletion : List SseFrame → List SseFrame × List SseFrame
  | [] => ([], [])
  | f :: fs =>
    if f.completes then ([f], fs) else (f :: (cutAtCompletion fs).1, (cutAtCompletion fs).2)

theorem cutAtCompletion_append (fs : List SseFrame) :
    (cutAtCompletion fs).1 ++ (cutAtCompletion fs).2 = fs := by
  induction fs with
  | nil => rfl
  | cons f fs ih =>
    rw [cutAtCompletion]
    split_ifs
    · rfl
    · rw [List.cons_append, ih]

/-- Rewriting a choice does not make it finish. -/
theorem choiceFinishes_rewritten (o : SseObserver) (choice : Value) :
    ResponsesStream.choiceFinishes (o.rewritten choice) =
      ResponsesStream.choiceFinishes choice := by
  rw [ResponsesStream.choiceFinishes, o.get_rewritten (by decide) (by decide),
    ResponsesStream.choiceFinishes]
  cases choice.get "finish_reason" with
  | none => rfl
  | some reason => simp

theorem chunkChoices_rewritten (o : SseObserver) (chunk : Value) :
    ResponsesStream.chunkChoices (o.rewritten chunk) =
      (ResponsesStream.chunkChoices chunk).map o.rewritten := by
  rw [ResponsesStream.chunkChoices, o.get_rewritten (by decide) (by decide),
    ResponsesStream.chunkChoices]
  cases chunk.get "choices" with
  | none => rfl
  | some choices =>
    simp only [Option.map_some, Option.bind_some, o.asArray_rewritten]
    cases choices.asArray <;> rfl

theorem finish_mem_frameMoves {o : SseObserver} {f : SseFrame} {usage : UsageTotals}
    (h : .finish usage ∈ frameMoves o f) : usage = (o.observe f).usage := by
  cases f with
  | data value leadingSpace line =>
    simp only [frameMoves, chunkMoves, List.mem_append, List.mem_cons, reduceCtorEq, false_or,
      List.not_mem_nil, List.mem_flatMap] at h
    obtain ⟨choice, -, h⟩ := h
    simp only [choiceMoves, List.mem_append] at h
    rcases h with h | h
    · split at h
      · simp only [deltaMoves, List.mem_append, List.mem_map, reduceCtorEq, and_false,
          exists_false, or_false] at h
        split at h
        · split_ifs at h <;> simp at h
        · simp at h
      · simp at h
    · split_ifs at h
      · simpa [SseObserver.observe] using h
      · simp at h
  | done line => simpa [frameMoves, SseObserver.observe, SseObserver.clearEvent] using h
  | _ => simp [frameMoves] at h

/-- A frame has a completing move if and only if it completes the response. -/
theorem completes_iff (o : SseObserver) (f : SseFrame) :
    f.completes = true ↔ ∃ m ∈ frameMoves o f, m.isFinish = true := by
  cases f with
  | data value leadingSpace line =>
    have hdelta : ∀ delta, ∀ m ∈ deltaMoves delta, m.isFinish = false := by
      intro delta m hm
      simp only [deltaMoves, List.mem_append, List.mem_map] at hm
      rcases hm with hm | ⟨v, -, rfl⟩
      · split at hm
        · split_ifs at hm <;> simp_all [Move.isFinish]
        · simp at hm
      · rfl
    have hchoice : ∀ usage choice, (∃ m ∈ choiceMoves usage choice, m.isFinish = true) ↔
        ResponsesStream.choiceFinishes choice = true := by
      intro usage choice
      simp only [choiceMoves, List.mem_append]
      constructor
      · rintro ⟨m, hm | hm, hfinish⟩
        · split at hm
          · rw [hdelta _ m hm] at hfinish
            exact absurd hfinish (by decide)
          · simp at hm
        · split_ifs at hm with h
          · exact h
          · simp at hm
      · intro h
        exact ⟨.finish usage, Or.inr (by simp [h]), rfl⟩
    rw [SseFrame.completes, List.any_eq_true]
    simp only [frameMoves, SseObserver.applyDataPrologue_value, chunkMoves,
      chunkChoices_rewritten]
    constructor
    · rintro ⟨choice, hmem, h⟩
      rw [← choiceFinishes_rewritten o, ← hchoice] at h
      obtain ⟨m, hm, hfinish⟩ := h
      refine ⟨m, List.mem_append_right _ (List.mem_flatMap.mpr ⟨_, ?_, hm⟩), hfinish⟩
      exact List.mem_map_of_mem hmem
    · rintro ⟨m, hm, hfinish⟩
      rcases List.mem_append.mp hm with hm | hm
      · simp only [List.mem_cons, List.not_mem_nil, or_false] at hm
        rcases hm with rfl | rfl <;> simp [Move.isFinish] at hfinish
      · obtain ⟨choice, hmem, hm⟩ := List.mem_flatMap.mp hm
        obtain ⟨choice, hupstream, rfl⟩ := List.mem_map.mp hmem
        refine ⟨choice, hupstream, ?_⟩
        rw [← choiceFinishes_rewritten o, ← hchoice]
        exact ⟨m, hm, hfinish⟩
  | done line => simp [SseFrame.completes, frameMoves, Move.isFinish]
  | _ => simp [SseFrame.completes, frameMoves]

/-- **The first completion of a stream** is for the usage up to the completing frame. -/
theorem exists_first_completion (o : SseObserver) (fs : List SseFrame) :
    ∃ before after, streamMoves o fs ++ [.finish (o.observeAll fs).usage] =
        before ++ .finish (o.usage + streamUsage (cutAtCompletion fs).1) :: after ∧
      ∀ m ∈ before, m.isFinish = false := by
  induction fs generalizing o with
  | nil => exact ⟨[], [], by simp [streamMoves, cutAtCompletion, SseObserver.observeAll], by simp⟩
  | cons f fs ih =>
    have husage : (o.observe f).usage = o.usage + streamUsage [f] := usage_observeAll o [f]
    rw [streamMoves, cutAtCompletion]
    split_ifs with hf
    · obtain ⟨before, usage, after, heq, hbefore⟩ := exists_first_finish
        ((completes_iff o f).mp hf)
      have hmem : .finish usage ∈ frameMoves o f := by rw [heq]; simp
      rw [finish_mem_frameMoves hmem, husage] at heq
      refine ⟨before, after ++ streamMoves (o.observe f) fs ++
        [.finish (o.observeAll (f :: fs)).usage], ?_, hbefore⟩
      rw [heq]
      simp
    · obtain ⟨before, after, heq, hbefore⟩ := ih (o.observe f)
      have hcons := streamUsage_append [f] (cutAtCompletion fs).1
      rw [List.singleton_append] at hcons
      refine ⟨frameMoves o f ++ before, after, ?_, ?_⟩
      · rw [List.append_assoc, show o.observeAll (f :: fs) = (o.observe f).observeAll fs from rfl,
          heq, husage, hcons, add_assoc, List.append_assoc]
      · intro m hm
        rcases List.mem_append.mp hm with hm | hm
        · by_contra h
          exact hf ((completes_iff o f).mpr ⟨m, hm, by simpa using h⟩)
        · exact hbefore m hm

/-! ### What the completed response reports -/

/-- The event is `response.completed`. -/
def ResponsesEvent.isCompleted : ResponsesEvent → Bool
  | .completed _ => true
  | _ => false

/-- The token counts in the JSON of an event: input, cached, output, reasoning and total. -/
def ResponsesEvent.reportedUsage (e : ResponsesEvent) : List (Option UInt64) :=
  [["input_tokens"], ["input_tokens_details", "cached_tokens"], ["output_tokens"],
    ["output_tokens_details", "reasoning_tokens"], ["total_tokens"]].map
      fun path => e.data.countAt ("response" :: "usage" :: path)

/-- A completed response reports its usage, with the total made up if it is zero. -/
theorem reportedUsage_completed (response : ResponseObject) :
    (ResponsesEvent.completed response).reportedUsage = [some response.usage.input,
      some response.usage.cachedInput, some response.usage.output,
      some response.usage.reasoningOutput, some response.usage.reportedTotal] := by
  simp [ResponsesEvent.reportedUsage, Value.countAt, ResponsesEvent.data, ResponsesEvent.fields,
    ResponseObject.toValue, Value.get_obj]

/-- The one `response.completed` of a list of events reports the given usage. -/
def ReportsUsageOf (usage : UsageTotals) (es : List ResponsesEvent) : Prop :=
  ∃ e, es.filter ResponsesEvent.isCompleted = [e] ∧
    e.reportedUsage = [some usage.input, some usage.cachedInput, some usage.output,
      some usage.reasoningOutput, some usage.total]

/-- The usage objects after the completing frame add up to nothing, but for a total that was
missing by then. -/
def NothingLate (fs : List SseFrame) : Prop :=
  let seen := streamUsage (cutAtCompletion fs).1
  let late := streamUsage (cutAtCompletion fs).2
  late.input = 0 ∧ late.cachedInput = 0 ∧ late.output = 0 ∧ late.reasoningOutput = 0 ∧
    late.total = if seen.total = 0 then seen.input + seen.output else 0

/-- What is reported when the response is completed is the sum of both parts if and only if the
later part adds nothing. -/
theorem reported_eq_add_iff (seen late : UsageTotals) :
    [some seen.input, some seen.cachedInput, some seen.output, some seen.reasoningOutput,
        some seen.reportedTotal] =
      [some (seen + late).input, some (seen + late).cachedInput, some (seen + late).output,
        some (seen + late).reasoningOutput, some (seen + late).total] ↔
    late.input = 0 ∧ late.cachedInput = 0 ∧ late.output = 0 ∧ late.reasoningOutput = 0 ∧
      late.total = if seen.total = 0 then seen.input + seen.output else 0 := by
  have htotal : seen.reportedTotal = seen.total + late.total ↔
      late.total = if seen.total = 0 then seen.input + seen.output else 0 := by
    have hpos : seen.total > 0 ↔ seen.total ≠ 0 := UInt64.pos_iff_ne_zero
    unfold UsageTotals.reportedTotal
    by_cases h : seen.total = 0
    · rw [if_neg (by rw [hpos]; simpa using h), if_pos h, h, UInt64.zero_add]
      exact eq_comm
    · rw [if_pos (hpos.mpr h), if_neg h, UInt64.left_eq_add]
  simp only [List.cons.injEq, Option.some.injEq, and_true, UsageTotals.input_add,
    UsageTotals.cachedInput_add, UsageTotals.output_add, UsageTotals.reasoningOutput_add,
    UsageTotals.total_add, htotal, UInt64.left_eq_add]

/-- **When a completed response reports the usage of the whole stream**: for every upstream stream
pushed as a whole, if and only if nothing that counts comes after the frame that completes it. -/
theorem responses_usage_iff (c : Codec) (backendModel publicModel : Option String) (emit : Bool)
    (b : Bytes) :
    ReportsUsageOf (streamUsage (frames c b))
        (responsesEvents c backendModel publicModel emit [b]) ↔
      NothingLate (frames c b) := by
  obtain ⟨before, after, hms, hbefore⟩ :=
    exists_first_completion { backendModel, publicModel } (frames c b)
  have hone : [b].flatten = b := by simp
  have hzero : ({ backendModel, publicModel } : SseObserver).usage = 0 := rfl
  rw [hzero, zero_add] at hms
  obtain ⟨h, s, after, hs, heq, hafter⟩ := responsesEvents_of_first_finish
    (by rw [hone]; exact hms) hbefore emit
  have hno := not_completed_of_split hs hafter
  have hfilter : ∀ es : List ResponsesEvent, (∀ e ∈ es, ∀ r, e ≠ .completed r) →
      es.filter ResponsesEvent.isCompleted = [] := by
    intro es hes
    rw [List.filter_eq_nil_iff]
    intro e he hcompleted
    cases e with
    | completed r => exact hes _ he r rfl
    | _ => simp [ResponsesEvent.isCompleted] at hcompleted
  have hevents : (responsesEvents c backendModel publicModel emit [b]).filter
      ResponsesEvent.isCompleted = [.completed (s.responseObject
        (streamUsage (cutAtCompletion (frames c b)).1) .completed s.finalOutput)] := by
    rw [heq, List.filter_append, List.filter_cons_of_pos rfl,
      hfilter _ fun e he => hno e (List.mem_append_left _ he),
      hfilter _ fun e he => hno e (List.mem_append_right _ he), List.nil_append]
  have hsum := streamUsage_append (cutAtCompletion (frames c b)).1 (cutAtCompletion (frames c b)).2
  rw [cutAtCompletion_append] at hsum
  rw [NothingLate, ← reported_eq_add_iff, ← hsum, ReportsUsageOf, hevents]
  constructor
  · rintro ⟨e, he, hreport⟩
    obtain rfl := List.singleton_inj.mp he
    rwa [reportedUsage_completed] at hreport
  · intro hreport
    exact ⟨_, rfl, by rwa [reportedUsage_completed]⟩

/-- A chunk with usage after the one with the finish reason, as `include_usage` asks for it. -/
theorem responses_usage_late :
    let b := asBytes "data: \x7b\"choices\":[\x7b\"finish_reason\":\"stop\"\x7d]\x7d\n\n" ++
      asBytes "data: \x7b\"choices\":[],\"usage\":\x7b\"prompt_tokens\":3\x7d\x7d\n\n" ++
      asBytes "data: [DONE]\n\n"
    ¬ReportsUsageOf (streamUsage (frames reference b))
      (responsesEvents reference none none false [b]) := by
  intro b
  have hsum : (streamUsage (frames reference b)).input = 3 := by decide +kernel
  have hreported : ((responsesEvents reference none none false [b]).filter
      ResponsesEvent.isCompleted).map (·.reportedUsage.head?) = [some (some 0)] := by
    decide +kernel
  rintro ⟨e, he, hreport⟩
  rw [he, List.map_singleton, hreport, hsum] at hreported
  simp at hreported

end Onair
