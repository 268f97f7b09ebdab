import Onair.Lib.Checked
import Onair.Core.Buffered
import Onair.Responses.Usage

/-!
# The additions of token counts

Every addition that the program makes while it reads the usage of a JSON value, and when all of
them fit a `u64`.

* `Counter`, `UsageTotals.count`: the five counters by name;
* `fieldsAdditions`, `walkAdditions`, `prologueAdditions`, `conversionAdditions`, `bodyAdditions`:
  what is added for a usage object, for all those of a value, for a frame of a stream, in the
  conversion of a body, and for a whole body;
* `exactCount`, `exactUsage`: the counts as natural numbers, which cannot overflow;
* `walkAdditions_fit_iff`, `prologueAdditions_fit_iff`, `bodyAdditions_fit_iff`: the additions fit
  exactly where the exact sums do.
-/

namespace Onair

open Json

/-! ### Counters -/

/-- The counters of token totals. -/
inductive Counter where
  | input
  | cachedInput
  | output
  | reasoningOutput
  | total
  deriving DecidableEq, Repr

/-- The counters in the order in which they are added. -/
def counters : List Counter := [.input, .cachedInput, .output, .reasoningOutput, .total]

theorem mem_counters (c : Counter) : c ∈ counters := by
  cases c <;> decide

/-- The value of a counter. -/
def UsageTotals.count (u : UsageTotals) : Counter → UInt64
  | .input => u.input
  | .cachedInput => u.cachedInput
  | .output => u.output
  | .reasoningOutput => u.reasoningOutput
  | .total => u.total

@[simp] theorem UsageTotals.count_add (a b : UsageTotals) (c : Counter) :
    (a + b).count c = a.count c + b.count c := by
  cases c <;> rfl

@[simp] theorem UsageTotals.count_zero (c : Counter) : (0 : UsageTotals).count c = 0 := by
  cases c <;> rfl

/-- The additions of some counters of two totals. -/
def UsageTotals.additions (cs : List Counter) (a b : UsageTotals) : List Addition :=
  cs.map fun c => (a.count c, b.count c)

/-! ### Usage objects -/

/-- A count of a usage object, zero if it is missing. -/
def countField (usage : List (String × Value)) (field : String) : UInt64 :=
  (numberField usage field).getD 0

/-- The additions of `usage_fields_from_object`. The last one is made whether `total_tokens` is
there or not: it is the argument of `unwrap_or`. -/
def fieldsAdditions : Option (List (String × Value)) → List Addition
  | none => []
  | some usage =>
    [(countField usage "prompt_tokens", countField usage "input_tokens"),
      (countField usage "completion_tokens", countField usage "output_tokens"),
      ((usageFieldsFromObject (some usage)).input, (usageFieldsFromObject (some usage)).output)]

/-- The additions of `collect_usage` over usage objects: those of each object, and those of its
counts to the totals. -/
def walkAdditions : UsageTotals → List (List (String × Value)) → List Addition
  | _, [] => []
  | totals, object :: objects =>
    fieldsAdditions (some object) ++ totals.additions counters (objectUsage object) ++
      walkAdditions (addUsageObject object totals) objects

/-- The input tokens of a usage object as a natural number. -/
def exactInput (usage : List (String × Value)) : ℕ :=
  (countField usage "prompt_tokens").toNat + (countField usage "input_tokens").toNat

/-- The output tokens of a usage object as a natural number. -/
def exactOutput (usage : List (String × Value)) : ℕ :=
  (countField usage "completion_tokens").toNat + (countField usage "output_tokens").toNat

/-- A count of a usage object as a natural number. -/
def exactCount (usage : List (String × Value)) : Counter → ℕ
  | .input => exactInput usage
  | .output => exactOutput usage
  | .cachedInput => (usageFieldsFromObject (some usage)).cached.toNat
  | .reasoningOutput => (usageFieldsFromObject (some usage)).reasoning.toNat
  | .total =>
    ((numberField usage "total_tokens").map UInt64.toNat).getD
      (exactInput usage + exactOutput usage)

/-- What a counter of some usage objects adds up to. -/
def exactUsage (objects : List (List (String × Value))) (c : Counter) : ℕ :=
  (objects.map fun object => exactCount object c).sum

/-- The input and the output of each object have a sum that is a `u64`. -/
def ObjectsFit (objects : List (List (String × Value))) : Prop :=
  ∀ object ∈ objects, exactInput object + exactOutput object < 2 ^ 64

theorem objectsFit_cons {object : List (String × Value)} {objects : List (List (String × Value))} :
    ObjectsFit (object :: objects) ↔
      exactInput object + exactOutput object < 2 ^ 64 ∧ ObjectsFit objects :=
  List.forall_mem_cons

theorem fieldsAdditions_fit_iff (usage : List (String × Value)) :
    (∀ a ∈ fieldsAdditions (some usage), a.Fits) ↔
      exactInput usage + exactOutput usage < 2 ^ 64 := by
  have hinput : (usageFieldsFromObject (some usage)).input =
      countField usage "prompt_tokens" + countField usage "input_tokens" := rfl
  have houtput : (usageFieldsFromObject (some usage)).output =
      countField usage "completion_tokens" + countField usage "output_tokens" := rfl
  rw [fieldsAdditions, hinput, houtput, exactInput, exactOutput]
  simp only [List.forall_mem_cons, List.not_mem_nil, false_implies, implies_true, and_true]
  constructor
  · rintro ⟨hin, hout, hsum⟩
    rw [Addition.Fits, Addition.toNat_add hin, Addition.toNat_add hout] at hsum
    exact hsum
  · intro h
    have hin : Addition.Fits (countField usage "prompt_tokens", countField usage "input_tokens") :=
      lt_of_le_of_lt (Nat.le_add_right _ _) h
    have hout : Addition.Fits
        (countField usage "completion_tokens", countField usage "output_tokens") :=
      lt_of_le_of_lt (Nat.le_add_left _ _) h
    refine ⟨hin, hout, ?_⟩
    rw [Addition.Fits, Addition.toNat_add hin, Addition.toNat_add hout]
    exact h

theorem toNat_objectUsage {usage : List (String × Value)}
    (h : exactInput usage + exactOutput usage < 2 ^ 64) (c : Counter) :
    ((objectUsage usage).count c).toNat = exactCount usage c := by
  obtain ⟨hin, hout, hsum⟩ : Addition.Fits (countField usage "prompt_tokens",
      countField usage "input_tokens") ∧ Addition.Fits (countField usage "completion_tokens",
        countField usage "output_tokens") ∧
      Addition.Fits ((usageFieldsFromObject (some usage)).input,
          (usageFieldsFromObject (some usage)).output) := by
    simpa [fieldsAdditions] using (fieldsAdditions_fit_iff usage).mpr h
  have hinput : (usageFieldsFromObject (some usage)).input.toNat = exactInput usage :=
    Addition.toNat_add hin
  have houtput : (usageFieldsFromObject (some usage)).output.toNat = exactOutput usage :=
    Addition.toNat_add hout
  cases c with
  | input => exact hinput
  | output => exact houtput
  | cachedInput => rfl
  | reasoningOutput => rfl
  | total =>
    have htotal : (objectUsage usage).count .total = (numberField usage "total_tokens").getD
        ((usageFieldsFromObject (some usage)).input +
          (usageFieldsFromObject (some usage)).output) := rfl
    rw [htotal, exactCount]
    cases numberField usage "total_tokens" with
    | some total => rfl
    | none =>
      rw [Option.getD_none, Option.map_none, Option.getD_none, Addition.toNat_add hsum, hinput,
        houtput]

theorem forall_additions_iff {P : Addition → Prop} (cs : List Counter) (a b : UsageTotals) :
    (∀ x ∈ UsageTotals.additions cs a b, P x) ↔ ∀ c ∈ cs, P (a.count c, b.count c) := by
  rw [UsageTotals.additions, List.forall_mem_map]

theorem addUsageObject_eq (object : List (String × Value)) (totals : UsageTotals) :
    addUsageObject object totals = totals + objectUsage object := rfl

@[simp] theorem exactUsage_nil (c : Counter) : exactUsage [] c = 0 := rfl

@[simp] theorem exactUsage_cons (object : List (String × Value))
    (objects : List (List (String × Value))) (c : Counter) :
    exactUsage (object :: objects) c = exactCount object c + exactUsage objects c := by
  rw [exactUsage, List.map_cons, List.sum_cons, exactUsage]

/-- **The walk over usage objects does not overflow** exactly where no object does and the exact
sums fit. -/
theorem walkAdditions_fit_iff (totals : UsageTotals) (objects : List (List (String × Value))) :
    (∀ a ∈ walkAdditions totals objects, a.Fits) ↔ ObjectsFit objects ∧
      ∀ c, (totals.count c).toNat + exactUsage objects c < 2 ^ 64 := by
  induction objects generalizing totals with
  | nil =>
    refine iff_of_true (by simp [walkAdditions]) ⟨by simp [ObjectsFit], fun c => ?_⟩
    exact (totals.count c).toNat_lt
  | cons object objects ih =>
    rw [walkAdditions, List.forall_mem_append, List.forall_mem_append, fieldsAdditions_fit_iff,
      forall_additions_iff, ih, addUsageObject_eq, objectsFit_cons]
    constructor
    · rintro ⟨⟨hobject, hadd⟩, hobjects, hrest⟩
      refine ⟨⟨hobject, hobjects⟩, fun c => ?_⟩
      have hc := hrest c
      rw [UsageTotals.count_add, Addition.toNat_add (hadd c (mem_counters c)),
        toNat_objectUsage hobject] at hc
      rw [exactUsage_cons]
      omega
    · rintro ⟨⟨hobject, hobjects⟩, hall⟩
      have hadd (c : Counter) : Addition.Fits (totals.count c, (objectUsage object).count c) := by
        have hc := hall c
        rw [exactUsage_cons] at hc
        show (totals.count c).toNat + ((objectUsage object).count c).toNat < 2 ^ 64
        rw [toNat_objectUsage hobject]
        omega
      refine ⟨⟨hobject, fun c _ => hadd c⟩, hobjects, fun c => ?_⟩
      have hc := hall c
      rw [exactUsage_cons] at hc
      rw [UsageTotals.count_add, Addition.toNat_add (hadd c), toNat_objectUsage hobject]
      omega

theorem toNat_sum_objectUsage {objects : List (List (String × Value))}
    (hobjects : ObjectsFit objects) (c : Counter) (h : exactUsage objects c < 2 ^ 64) :
    (((objects.map objectUsage).sum).count c).toNat = exactUsage objects c := by
  induction objects with
  | nil => simp
  | cons object objects ih =>
    obtain ⟨hobject, hobjects⟩ := objectsFit_cons.mp hobjects
    rw [exactUsage_cons] at h
    have hrest := ih hobjects (by omega)
    have hcount := toNat_objectUsage hobject c
    rw [List.map_cons, List.sum_cons, UsageTotals.count_add, Addition.toNat_add, hcount, hrest,
      exactUsage_cons]
    rw [Addition.Fits, hcount, hrest]
    exact h

/-! ### One JSON value -/

/-- The additions of `apply_data_prologue`: those of the walk, and those of its totals to the
counters of the stream. -/
def prologueAdditions (usage : UsageTotals) (value : Value) : List Addition :=
  walkAdditions {} (usageObjects value) ++
    usage.additions counters (extractUsageObservation value).totals

theorem extractUsageObservation_totals (value : Value) :
    (extractUsageObservation value).totals = ((usageObjects value).map objectUsage).sum :=
  (collectUsage_totals value {}).trans (zero_add _)

/-- **What a value adds to the counters of a stream** fits exactly where no object overflows and the
exact sums fit. -/
theorem prologueAdditions_fit_iff (usage : UsageTotals) (value : Value) :
    (∀ a ∈ prologueAdditions usage value, a.Fits) ↔ ObjectsFit (usageObjects value) ∧
      ∀ c, (usage.count c).toNat + exactUsage (usageObjects value) c < 2 ^ 64 := by
  rw [prologueAdditions, List.forall_mem_append, walkAdditions_fit_iff, forall_additions_iff,
    extractUsageObservation_totals]
  have hzero (c : Counter) : (({} : UsageTotals).count c).toNat = 0 := by
    cases c <;> rfl
  simp only [hzero, Nat.zero_add, and_assoc]
  refine and_congr_right fun hobjects => ?_
  constructor
  · rintro ⟨hsums, hadd⟩ c
    have hc := hadd c (mem_counters c)
    rwa [Addition.Fits, toNat_sum_objectUsage hobjects c (hsums c)] at hc
  · intro hall
    have hsums (c : Counter) : exactUsage (usageObjects value) c < 2 ^ 64 :=
      lt_of_le_of_lt (Nat.le_add_left _ _) (hall c)
    refine ⟨hsums, fun c _ => ?_⟩
    rw [Addition.Fits, toNat_sum_objectUsage hobjects c (hsums c)]
    exact hall c

theorem toNat_prologue {usage : UsageTotals} {value : Value}
    (hobjects : ObjectsFit (usageObjects value)) {c : Counter}
    (h : (usage.count c).toNat + exactUsage (usageObjects value) c < 2 ^ 64) :
    ((usage + (extractUsageObservation value).totals).count c).toNat =
      (usage.count c).toNat + exactUsage (usageObjects value) c := by
  have hsum := toNat_sum_objectUsage hobjects c (lt_of_le_of_lt (Nat.le_add_left _ _) h)
  rw [extractUsageObservation_totals, UsageTotals.count_add, Addition.toNat_add, hsum]
  rw [Addition.Fits, hsum]
  exact h

/-! ### Whole bodies -/

/-- The addition of `anthropic_usage_to_chat_usage`. -/
def messageAddition (usage : Option Value) : Addition :=
  let count := fun field =>
    ((usage.bind Value.asObject).bind fun usage => numberField usage field).getD 0
  (count "input_tokens", count "output_tokens")

/-- The additions of the conversion of a response. -/
def conversionAdditions (backendModel publicModel : Option String) (mode : RequestMode)
    (json : Value) : List Addition :=
  let models := withModels backendModel publicModel
  match mode with
  | .responsesViaChatCompletions | .chatCompletionsViaResponses =>
    fieldsAdditions (((models rewriteResponseModels json).get "usage").bind Value.asObject)
  | .chatCompletionsViaMessages =>
    match models rewriteAnthropicMessagesResponseBodyValue json with
    | .object object => [messageAddition (OrdMap.get "usage" object)]
    | _ => []
  | _ => []

/-- **The additions of `rewrite_response_body`.** -/
def bodyAdditions (c : Codec) (body : Bytes) (contentType : Option String)
    (backendModel publicModel : Option String) (mode : RequestMode) : List Addition :=
  if !isJsonContentType contentType && !looksLikeJson body then []
  else
    match c.fromSlice body with
    | some json =>
      walkAdditions {} (usageObjects json) ++
        conversionAdditions backendModel publicModel mode json
    | none => []

/-- The exact counts of a body fit: those of each usage object, the sums of all of them, and in a
message the sum that its conversion makes. -/
def BodyFits (c : Codec) (body : Bytes) (contentType : Option String) (mode : RequestMode) : Prop :=
  isJsonContentType contentType = true ∨ looksLikeJson body = true →
    ∀ json, c.fromSlice body = some json → ObjectsFit (usageObjects json) ∧
      (∀ counter, exactUsage (usageObjects json) counter < 2 ^ 64) ∧
      (mode = .chatCompletionsViaMessages → (messageAddition (json.get "usage")).Fits)

theorem countField_rewritten (backendModel publicModel : String) (usage : List (String × Value))
    {field : String} (hfield : field ≠ "model") :
    countField (rewriteResponseModelsEntries backendModel publicModel usage) field =
      countField usage field := by
  have hnumber (v : Value) :
      (rewriteResponseModels backendModel publicModel v).asU64 = v.asU64 := by
    cases v <;> rfl
  have hget := get_rewriteResponseModels backendModel publicModel hfield (.object usage)
  rw [rewriteResponseModels, Value.get_object, Value.get_object] at hget
  rw [countField, numberField, hget, countField, numberField]
  cases OrdMap.get field usage with
  | none => rfl
  | some v => exact congrArg (Option.getD · 0) (hnumber v)

theorem exactInput_rewritten (backendModel publicModel : String) (usage : List (String × Value)) :
    exactInput (rewriteResponseModelsEntries backendModel publicModel usage) =
      exactInput usage := by
  rw [exactInput, countField_rewritten _ _ _ (by decide), countField_rewritten _ _ _ (by decide),
    exactInput]

theorem exactOutput_rewritten (backendModel publicModel : String) (usage : List (String × Value)) :
    exactOutput (rewriteResponseModelsEntries backendModel publicModel usage) =
      exactOutput usage := by
  rw [exactOutput, countField_rewritten _ _ _ (by decide), countField_rewritten _ _ _ (by decide),
    exactOutput]

theorem mem_usageObjects_of_get {json : Value} {usage : List (String × Value)}
    (h : json.get "usage" = some (.object usage)) : usage ∈ usageObjects json := by
  cases json with
  | object m =>
    rw [Value.get_object] at h
    rw [usageObjects, h]
    exact List.mem_append_left _ (List.mem_singleton_self usage)
  | _ => cases h

theorem mem_usageObjectsEntries {k : String} {v : Value} {m : List (String × Value)}
    {usage : List (String × Value)} (hv : (k, v) ∈ m) (h : usage ∈ usageObjects v) :
    usage ∈ usageObjectsEntries m := by
  induction m with
  | nil => cases hv
  | cons e m ih =>
    rw [usageObjectsEntries]
    rcases List.mem_cons.mp hv with rfl | hv
    · exact List.mem_append_left _ h
    · exact List.mem_append_right _ (ih hv)

theorem mem_usageObjects_of_field {k : String} {json v : Value} {usage : List (String × Value)}
    (hv : json.get k = some v) (h : usage ∈ usageObjects v) : usage ∈ usageObjects json := by
  cases json with
  | object m =>
    rw [Value.get_object] at hv
    rw [usageObjects]
    exact List.mem_append_right _ (mem_usageObjectsEntries (OrdMap.mem_of_get hv) h)
  | _ => cases hv

/-- The conversion of a body adds the counts of one of its usage objects. -/
theorem fieldsAdditions_fit {json : Value} (hobjects : ObjectsFit (usageObjects json))
    (backendModel publicModel : Option String) :
    ∀ a ∈ fieldsAdditions (((withModels backendModel publicModel rewriteResponseModels json).get
      "usage").bind Value.asObject), a.Fits := by
  have hobject {usage : List (String × Value)} (h : json.get "usage" = some (.object usage)) :
      exactInput usage + exactOutput usage < 2 ^ 64 := hobjects usage (mem_usageObjects_of_get h)
  have hplain : ∀ a ∈ fieldsAdditions ((json.get "usage").bind Value.asObject), a.Fits := by
    cases h : (json.get "usage").bind Value.asObject with
    | none => simp [fieldsAdditions]
    | some usage =>
      obtain ⟨v, hget, hv⟩ := Option.bind_eq_some_iff.mp h
      obtain rfl := Value.asObject_eq_some.mp hv
      exact (fieldsAdditions_fit_iff usage).mpr (hobject hget)
  unfold withModels
  split
  · next backend pub =>
    rw [get_rewriteResponseModels backend pub (by decide)]
    cases hget : json.get "usage" with
    | none => simp [fieldsAdditions]
    | some v =>
      cases v with
      | object usage =>
        rw [Option.map_some, Option.bind_some, rewriteResponseModels, Value.asObject,
          fieldsAdditions_fit_iff, exactInput_rewritten, exactOutput_rewritten]
        exact hobject hget
      | _ => simp [rewriteResponseModels, Value.asObject, fieldsAdditions]
  · exact hplain

/-- The rewriting of a message leaves its usage. -/
theorem messageAddition_rewritten (backendModel publicModel : Option String) (json : Value) :
    (∀ a ∈ conversionAdditions backendModel publicModel .chatCompletionsViaMessages json, a.Fits) ↔
      (messageAddition (json.get "usage")).Fits := by
  unfold conversionAdditions withModels
  cases json with
  | object m =>
    cases backendModel with
    | none => simp
    | some backend =>
      cases publicModel with
      | none => simp
      | some pub =>
        simp [rewriteAnthropicMessagesResponseBodyValue, get_rewriteTopModel_ne]
  | _ =>
    refine iff_of_true ?_ (Addition.fits_zero 0)
    cases backendModel <;> cases publicModel <;>
      simp [rewriteAnthropicMessagesResponseBodyValue]

/-- The conversion of a body overflows only in the sum for a message. -/
theorem conversionAdditions_fit_iff {json : Value} (hobjects : ObjectsFit (usageObjects json))
    (backendModel publicModel : Option String) (mode : RequestMode) :
    (∀ a ∈ conversionAdditions backendModel publicModel mode json, a.Fits) ↔
      (mode = .chatCompletionsViaMessages → (messageAddition (json.get "usage")).Fits) := by
  cases mode with
  | chatCompletionsViaMessages =>
    rw [messageAddition_rewritten]
    exact ⟨fun h _ => h, fun h => h rfl⟩
  | responsesViaChatCompletions =>
    exact iff_of_true (fieldsAdditions_fit hobjects _ _) (by simp)
  | chatCompletionsViaResponses =>
    exact iff_of_true (fieldsAdditions_fit hobjects _ _) (by simp)
  | native => exact iff_of_true (by simp [conversionAdditions]) (by simp)
  | anthropicMessagesNative => exact iff_of_true (by simp [conversionAdditions]) (by simp)

/-- **Reading and converting a body does not overflow** exactly where the exact counts fit. -/
theorem bodyAdditions_fit_iff (c : Codec) (body : Bytes) (contentType : Option String)
    (backendModel publicModel : Option String) (mode : RequestMode) :
    (∀ a ∈ bodyAdditions c body contentType backendModel publicModel mode, a.Fits) ↔
      BodyFits c body contentType mode := by
  unfold bodyAdditions BodyFits
  cases hjson : isJsonContentType contentType || looksLikeJson body with
  | false =>
    obtain ⟨htype, hlooks⟩ := Bool.or_eq_false_iff.mp hjson
    simp [htype, hlooks]
  | true =>
    have hread : (!isJsonContentType contentType && !looksLikeJson body) = false := by
      rw [← Bool.not_or, hjson]
      rfl
    have hguard := Bool.or_eq_true_iff.mp hjson
    rw [if_neg (by rw [hread]; exact Bool.false_ne_true)]
    cases hslice : c.fromSlice body with
    | none => simp
    | some json =>
      dsimp only
      rw [List.forall_mem_append, walkAdditions_fit_iff]
      have hzero (c : Counter) : (({} : UsageTotals).count c).toNat = 0 := by
        cases c <;> rfl
      simp only [hzero, Nat.zero_add]
      constructor
      · rintro ⟨⟨hobjects, hsums⟩, hrest⟩ - json' hjson'
        obtain rfl := Option.some.inj hjson'
        exact ⟨hobjects, hsums, (conversionAdditions_fit_iff hobjects _ _ mode).mp hrest⟩
      · intro h
        obtain ⟨hobjects, hsums, hrest⟩ := h hguard json rfl
        exact ⟨⟨hobjects, hsums⟩, (conversionAdditions_fit_iff hobjects _ _ mode).mpr hrest⟩

end Onair
