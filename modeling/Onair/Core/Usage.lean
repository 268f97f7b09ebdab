import Mathlib.Data.Finset.Insert
import Mathlib.Data.Finset.Lattice.Basic
import Onair.Lib.Json.Value
import Onair.Lib.Text

/-!
# Token usage in upstream JSON

The counters and the walk over a JSON tree of `openai/response.rs`. Token counts are `u64`, whose
additions wrap in a release build.

* `UsageTotals`, `UsageDiagnostics`, `UsageObservation`: what is counted;
* `usageFieldsFromObject`, `collectUsage`, `extractUsageObservation`: reading usage objects at any
  depth;
* `ensureUsageTotalTokens`: filling in a missing `total_tokens`;
* `rewriteResponseModels`: replacing the backend's model name at any depth.
-/

namespace Onair

open Json

/-! ### Counters -/

/-- Token totals. -/
@[ext]
structure UsageTotals where
  input : UInt64 := 0
  cachedInput : UInt64 := 0
  output : UInt64 := 0
  reasoningOutput : UInt64 := 0
  total : UInt64 := 0
  deriving DecidableEq, Repr

namespace UsageTotals

instance : Zero UsageTotals := ⟨{}⟩

instance : Add UsageTotals := ⟨fun a b =>
  { input := a.input + b.input
    cachedInput := a.cachedInput + b.cachedInput
    output := a.output + b.output
    reasoningOutput := a.reasoningOutput + b.reasoningOutput
    total := a.total + b.total }⟩

@[simp] theorem input_zero : (0 : UsageTotals).input = 0 := rfl
@[simp] theorem cachedInput_zero : (0 : UsageTotals).cachedInput = 0 := rfl
@[simp] theorem output_zero : (0 : UsageTotals).output = 0 := rfl
@[simp] theorem reasoningOutput_zero : (0 : UsageTotals).reasoningOutput = 0 := rfl
@[simp] theorem total_zero : (0 : UsageTotals).total = 0 := rfl

@[simp] theorem input_add (a b : UsageTotals) : (a + b).input = a.input + b.input := rfl
@[simp] theorem cachedInput_add (a b : UsageTotals) :
    (a + b).cachedInput = a.cachedInput + b.cachedInput := rfl
@[simp] theorem output_add (a b : UsageTotals) : (a + b).output = a.output + b.output := rfl
@[simp] theorem reasoningOutput_add (a b : UsageTotals) :
    (a + b).reasoningOutput = a.reasoningOutput + b.reasoningOutput := rfl
@[simp] theorem total_add (a b : UsageTotals) : (a + b).total = a.total + b.total := rfl

instance : AddCommMonoid UsageTotals where
  add_assoc a b c := by ext1 <;> simp [UInt64.add_assoc]
  zero_add a := by ext1 <;> simp
  add_zero a := by ext1 <;> simp
  add_comm a b := by ext1 <;> simp [UInt64.add_comm]
  nsmul := nsmulRec

end UsageTotals

/-- What was seen of usage objects and event names. The sets are ordered in the source; nothing
reads their order. -/
@[ext]
structure UsageDiagnostics where
  usageObjectCount : ℕ := 0
  usageKeys : Finset String := ∅
  eventNames : Finset String := ∅
  usageEventNames : Finset String := ∅
  deriving DecidableEq

/-- A label made of the first 80 printable characters, unusual ones replaced by `_`. -/
def safeDiagnosticLabel (value : String) : Option String :=
  let label := String.ofList ((value.toList.filterMap fun c =>
    if c.isAlphanum || c == '-' || c == '_' || c == '.' || c == ':' then some c
    else if 33 ≤ c.toNat && c.toNat ≤ 126 then some '_'
    else none).take 80)
  if label = "" then none else some label

namespace UsageDiagnostics

/-- Count a usage object and note its keys. -/
def observeObject (d : UsageDiagnostics) (object : List (String × Value)) : UsageDiagnostics :=
  { d with
    usageObjectCount := d.usageObjectCount + 1
    usageKeys := d.usageKeys ∪ (object.filterMap fun e => safeDiagnosticLabel e.1).toFinset }

/-- Note the name of an event. -/
def observeEventName (d : UsageDiagnostics) (name : String) : UsageDiagnostics :=
  match safeDiagnosticLabel name with
  | some name => { d with eventNames := insert name d.eventNames }
  | none => d

/-- Note the name of an event that carries usage. -/
def observeUsageEventName (d : UsageDiagnostics) (name : String) : UsageDiagnostics :=
  match safeDiagnosticLabel name with
  | some name => { d with usageEventNames := insert name d.usageEventNames }
  | none => d

/-- Add the observations of `other`. -/
def merge (d other : UsageDiagnostics) : UsageDiagnostics where
  usageObjectCount := d.usageObjectCount + other.usageObjectCount
  usageKeys := d.usageKeys ∪ other.usageKeys
  eventNames := d.eventNames ∪ other.eventNames
  usageEventNames := d.usageEventNames ∪ other.usageEventNames

end UsageDiagnostics

/-- Totals and diagnostics of one JSON value. -/
structure UsageObservation where
  totals : UsageTotals := {}
  diagnostics : UsageDiagnostics := {}
  deriving DecidableEq

/-! ### Reading usage objects -/

/-- A `u64` field. -/
def numberField (object : List (String × Value)) (field : String) : Option UInt64 :=
  (OrdMap.get field object).bind Value.asU64

/-- A `u64` field of an object field. -/
def nestedNumberField (object : List (String × Value)) (parent field : String) : Option UInt64 :=
  ((OrdMap.get parent object).bind Value.asObject).bind fun object => numberField object field

/-- The token counts of one usage object. -/
structure UsageFields where
  input : UInt64 := 0
  output : UInt64 := 0
  cached : UInt64 := 0
  reasoning : UInt64 := 0
  total : UInt64 := 0
  deriving DecidableEq

/-- The counts of a usage object in chat or Responses spelling. -/
def usageFieldsFromObject : Option (List (String × Value)) → UsageFields
  | none => {}
  | some usage =>
    let input := (numberField usage "prompt_tokens").getD 0 +
      (numberField usage "input_tokens").getD 0
    let output := (numberField usage "completion_tokens").getD 0 +
      (numberField usage "output_tokens").getD 0
    { input
      output
      cached := ((nestedNumberField usage "prompt_tokens_details" "cached_tokens").or
        (nestedNumberField usage "input_tokens_details" "cached_tokens")).getD 0
      reasoning := ((nestedNumberField usage "completion_tokens_details" "reasoning_tokens").or
        (nestedNumberField usage "output_tokens_details" "reasoning_tokens")).getD 0
      total := (numberField usage "total_tokens").getD (input + output) }

/-- Add a usage object to the totals. -/
def addUsageObject (object : List (String × Value)) (totals : UsageTotals) : UsageTotals :=
  let fields := usageFieldsFromObject (some object)
  totals + { input := fields.input
             cachedInput := fields.cached
             output := fields.output
             reasoningOutput := fields.reasoning
             total := fields.total }

mutual
/-- Add every object found under a key `usage`, at any depth. -/
def collectUsage : Value → UsageObservation → UsageObservation
  | .object m, o =>
    collectUsageEntries m
      (match (OrdMap.get "usage" m).bind Value.asObject with
      | some usage =>
        { totals := addUsageObject usage o.totals
          diagnostics := o.diagnostics.observeObject usage }
      | none => o)
  | .array vs, o => collectUsageList vs o
  | _, o => o
/-- `collectUsage` over the elements of an array. -/
def collectUsageList : List Value → UsageObservation → UsageObservation
  | [], o => o
  | v :: vs, o => collectUsageList vs (collectUsage v o)
/-- `collectUsage` over the values of an object. -/
def collectUsageEntries : List (String × Value) → UsageObservation → UsageObservation
  | [], o => o
  | (_, v) :: m, o => collectUsageEntries m (collectUsage v o)
end

/-- The usage of a JSON value. -/
def extractUsageObservation (value : Value) : UsageObservation := collectUsage value {}

/-! ### Rewriting a JSON value -/

mutual
/-- Replace `backendModel` by `publicModel` in every field `model`, at any depth. -/
def rewriteResponseModels (backendModel publicModel : String) : Value → Value
  | .object m => .object (rewriteResponseModelsEntries backendModel publicModel m)
  | .array vs => .array (rewriteResponseModelsList backendModel publicModel vs)
  | v => v
/-- `rewriteResponseModels` over the elements of an array. -/
def rewriteResponseModelsList (backendModel publicModel : String) : List Value → List Value
  | [] => []
  | v :: vs => rewriteResponseModels backendModel publicModel v ::
      rewriteResponseModelsList backendModel publicModel vs
/-- `rewriteResponseModels` over the fields of an object. -/
def rewriteResponseModelsEntries (backendModel publicModel : String) :
    List (String × Value) → List (String × Value)
  | [] => []
  | (k, v) :: m =>
    (k, if k = "model" ∧ v.asStr = some backendModel then .string publicModel
      else rewriteResponseModels backendModel publicModel v) ::
      rewriteResponseModelsEntries backendModel publicModel m
end

/-- Fill in `total_tokens` of a usage object from its other counts, if they are there and their sum
is a `u64`. -/
def ensureUsageObjectTotalTokens (usage : List (String × Value)) : List (String × Value) :=
  if (numberField usage "total_tokens").isSome then usage
  else
    let inputTokens := (numberField usage "prompt_tokens").or (numberField usage "input_tokens")
    let outputTokens :=
      (numberField usage "completion_tokens").or (numberField usage "output_tokens")
    match inputTokens, outputTokens with
    | some i, some o =>
      if i.toNat + o.toNat < 2 ^ 64 then
        OrdMap.insert "total_tokens" (.u64 (i + o)) usage
      else usage
    | _, _ => usage

mutual
/-- Fill in `total_tokens` of every usage object, at any depth. The source fills in an object before
it walks through its fields; `ensureUsageTotalTokens_object` below has that order. -/
def ensureUsageTotalTokens : Value → Value
  | .object m => .object (ensureUsageTotalTokensEntries m)
  | .array vs => .array (ensureUsageTotalTokensList vs)
  | v => v
/-- `ensureUsageTotalTokens` over the elements of an array. -/
def ensureUsageTotalTokensList : List Value → List Value
  | [] => []
  | v :: vs => ensureUsageTotalTokens v :: ensureUsageTotalTokensList vs
/-- `ensureUsageTotalTokens` over the fields of an object, the field `usage` filled in. -/
def ensureUsageTotalTokensEntries : List (String × Value) → List (String × Value)
  | [] => []
  | (k, v) :: m =>
    (k, match k == "usage", ensureUsageTotalTokens v with
      | true, .object usage => .object (ensureUsageObjectTotalTokens usage)
      | _, v' => v') :: ensureUsageTotalTokensEntries m
end

/-- One field of an object after `ensureUsageTotalTokens`. -/
def ensureEntry (e : String × Value) : String × Value :=
  (e.1, match e.1 == "usage", ensureUsageTotalTokens e.2 with
    | true, .object usage => .object (ensureUsageObjectTotalTokens usage)
    | _, v => v)

theorem ensureUsageTotalTokensEntries_eq (m : List (String × Value)) :
    ensureUsageTotalTokensEntries m = m.map ensureEntry := by
  induction m with
  | nil => rfl
  | cons e m ih => exact congrArg _ ih

theorem ensureUsageTotalTokensList_eq (vs : List Value) :
    ensureUsageTotalTokensList vs = vs.map ensureUsageTotalTokens := by
  induction vs with
  | nil => rfl
  | cons v vs ih => exact congrArg _ ih

theorem ensureUsageTotalTokens_object_eq (m : List (String × Value)) :
    ensureUsageTotalTokens (.object m) = .object (m.map ensureEntry) :=
  congrArg _ (ensureUsageTotalTokensEntries_eq m)

theorem ensureUsageTotalTokens_array_eq (vs : List Value) :
    ensureUsageTotalTokens (.array vs) = .array (vs.map ensureUsageTotalTokens) :=
  congrArg _ (ensureUsageTotalTokensList_eq vs)

theorem rewriteResponseModelsList_eq (b p : String) (vs : List Value) :
    rewriteResponseModelsList b p vs = vs.map (rewriteResponseModels b p) := by
  induction vs with
  | nil => rfl
  | cons v vs ih => exact congrArg _ ih

theorem rewriteResponseModelsEntries_eq (b p : String) (m : List (String × Value)) :
    rewriteResponseModelsEntries b p m = m.map fun e =>
      (e.1, if e.1 = "model" ∧ e.2.asStr = some b then .string p
        else rewriteResponseModels b p e.2) := by
  induction m with
  | nil => rfl
  | cons e m ih => exact congrArg _ ih

theorem rewriteResponseModels_array (b p : String) (vs : List Value) :
    rewriteResponseModels b p (.array vs) = .array (vs.map (rewriteResponseModels b p)) :=
  congrArg _ (rewriteResponseModelsList_eq b p vs)

theorem rewriteResponseModels_object (b p : String) (m : List (String × Value)) :
    rewriteResponseModels b p (.object m) = .object (m.map fun e =>
      (e.1, if e.1 = "model" ∧ e.2.asStr = some b then .string p
        else rewriteResponseModels b p e.2)) :=
  congrArg _ (rewriteResponseModelsEntries_eq b p m)

theorem asU64_ensureEntry (e : String × Value) : (ensureEntry e).2.asU64 = e.2.asU64 := by
  obtain ⟨k, v⟩ := e
  cases v <;> simp only [ensureEntry, ensureUsageTotalTokens]
  case object m => cases k == "usage" <;> rfl
  all_goals cases k == "usage" <;> rfl

theorem numberField_ensure (m : List (String × Value)) (field : String) :
    numberField (m.map ensureEntry) field = numberField m field := by
  have h := OrdMap.get_map field (fun k v => (ensureEntry (k, v)).2) m
  rw [numberField, numberField, show m.map ensureEntry =
    m.map (fun e => (e.1, (ensureEntry (e.1, e.2)).2)) from rfl, h]
  cases OrdMap.get field m with
  | none => rfl
  | some v => exact asU64_ensureEntry (field, v)

theorem insert_map_ensureEntry (n : UInt64) (m : List (String × Value)) :
    (OrdMap.insert "total_tokens" (.u64 n) m).map ensureEntry =
      OrdMap.insert "total_tokens" (.u64 n) (m.map ensureEntry) := by
  have hn : ensureEntry ("total_tokens", .u64 n) = ("total_tokens", .u64 n) := rfl
  induction m with
  | nil => simp [OrdMap.insert, hn]
  | cons e m ih =>
    obtain ⟨k, v⟩ := e
    have hk : ensureEntry (k, v) = (k, (ensureEntry (k, v)).2) := rfl
    rw [OrdMap.insert, List.map_cons, hk, OrdMap.insert]
    split_ifs
    · rw [List.map_cons, hn]
    · rw [List.map_cons, List.map_cons, hn, hk]
    · rw [List.map_cons, hk, ih]

theorem ensureUsageObjectTotalTokens_map (usage : List (String × Value)) :
    (ensureUsageObjectTotalTokens usage).map ensureEntry =
      ensureUsageObjectTotalTokens (usage.map ensureEntry) := by
  unfold ensureUsageObjectTotalTokens
  simp only [numberField_ensure]
  split_ifs with h
  · rfl
  · rcases (numberField usage "prompt_tokens").or (numberField usage "input_tokens") with _ | i
    · rfl
    rcases (numberField usage "completion_tokens").or (numberField usage "output_tokens") with _ | o
    · rfl
    dsimp only
    split_ifs
    · exact insert_map_ensureEntry _ _
    · rfl

/-- **The order of the source**: an object's own field `usage` is filled in first, then every field
is walked through. -/
theorem ensureUsageTotalTokens_object (m : List (String × Value)) :
    ensureUsageTotalTokens (.object m) = .object ((m.map fun e => (e.1,
      match e.1 == "usage", e.2 with
      | true, .object usage => .object (ensureUsageObjectTotalTokens usage)
      | _, v => v)).map fun e => (e.1, ensureUsageTotalTokens e.2)) := by
  rw [ensureUsageTotalTokens_object_eq, List.map_map]
  congr 1
  refine List.map_congr_left fun e _ => ?_
  obtain ⟨k, v⟩ := e
  simp only [ensureEntry, Function.comp_apply]
  cases k == "usage" with
  | false => rfl
  | true =>
    cases v with
    | object usage =>
      simp only [ensureUsageTotalTokens, ensureUsageTotalTokensEntries_eq,
        ensureUsageObjectTotalTokens_map]
    | _ => rfl

end Onair
