import Onair.Core.MessagesToChat

/-!
# Reading a rewritten value

Before a `data:` frame is converted, its models are rewritten and its totals filled in. Neither
changes what the conversions read.

* `SseObserver.rewritten`: the value a conversion reads;
* `rewriteField`, `get_rewritten`, `asArray_rewritten`, `str_rewritten`: its fields, elements,
  texts and numbers are those of the upstream value;
* `get_rewriteTopModel_ne`, `get_rewriteEvent`, `get_rewriteResponseModels`: the fields that each of
  the rewritings leaves;
* `KeepsReading`: the maps on values that conversions do not see, **among them both rewritings**.
-/

namespace Onair

open Json

namespace SseObserver

variable (o : SseObserver)

/-- The value of a `data:` frame with its models rewritten and its totals filled in. -/
def rewritten (value : Value) : Value := ensureUsageTotalTokens (o.rewriteModels value)

theorem applyDataPrologue_value (value : Value) :
    (o.applyDataPrologue value).2.1 = o.rewritten value := rfl

/-- The models an observer knows decide how it rewrites. -/
theorem rewritten_congr {o o' : SseObserver} (hb : o.backendModel = o'.backendModel)
    (hp : o.publicModel = o'.publicModel) : o.rewritten = o'.rewritten := by
  funext value
  rw [rewritten, rewritten, rewriteModels, rewriteModels, hb, hp]

/-! ### Leaves -/

/-- What a value is, but for what is inside an array or an object. -/
theorem rewritten_cases (v : Value) :
    (o.rewritten v = v ∧ v.asArray = none ∧ v.asObject = none) ∨
      (∃ vs, v = .array vs ∧ o.rewritten v = .array (vs.map o.rewritten)) ∨
      ∃ m m', v = .object m ∧ o.rewritten v = .object m' := by
  cases v with
  | array vs =>
    refine Or.inr (Or.inl ⟨vs, rfl, ?_⟩)
    unfold rewritten rewriteModels
    split <;> simp [rewriteResponseModels, rewriteResponseModelsList_eq, ensureUsageTotalTokens,
      ensureUsageTotalTokensList_eq, Function.comp_def]
  | object m =>
    refine Or.inr (Or.inr ⟨m, ?_⟩)
    unfold rewritten rewriteModels
    split <;> simp [rewriteResponseModels, ensureUsageTotalTokens]
  | _ =>
    refine Or.inl ⟨?_, rfl, rfl⟩
    unfold rewritten rewriteModels
    split <;> simp [rewriteResponseModels, ensureUsageTotalTokens]

/-- What is the same for all arrays and for all objects is the same for a rewritten value. -/
theorem leaf_rewritten {α : Type} {f : Value → α}
    (harray : ∀ vs vs', f (.array vs) = f (.array vs'))
    (hobject : ∀ m m', f (.object m) = f (.object m')) (v : Value) : f (o.rewritten v) = f v := by
  obtain ⟨h, -⟩ | ⟨vs, rfl, h⟩ | ⟨m, m', rfl, h⟩ := o.rewritten_cases v
  · rw [h]
  · rw [h, harray]
  · rw [h, hobject]

@[simp] theorem asStr_rewritten (v : Value) : (o.rewritten v).asStr = v.asStr :=
  o.leaf_rewritten (fun _ _ => rfl) (fun _ _ => rfl) v

@[simp] theorem asU64_rewritten (v : Value) : (o.rewritten v).asU64 = v.asU64 :=
  o.leaf_rewritten (fun _ _ => rfl) (fun _ _ => rfl) v

@[simp] theorem isNull_rewritten (v : Value) : (o.rewritten v).isNull = v.isNull :=
  o.leaf_rewritten (fun _ _ => rfl) (fun _ _ => rfl) v

@[simp] theorem asArray_rewritten (v : Value) :
    (o.rewritten v).asArray = v.asArray.map (List.map o.rewritten) := by
  rcases o.rewritten_cases v with ⟨h, h', -⟩ | ⟨vs, rfl, h⟩ | ⟨m, m', rfl, h⟩
  · rw [h, h']; rfl
  · rw [h]; rfl
  · rw [h]; rfl

/-! ### Fields -/

/-- What becomes of the field of an object; only `model` and `usage` are special. -/
def rewriteField (k : String) (v : Value) : Value :=
  (ensureEntry (k, match o.backendModel, o.publicModel with
    | some backendModel, some publicModel =>
      if k = "model" ∧ v.asStr = some backendModel then .string publicModel
      else rewriteResponseModels backendModel publicModel v
    | _, _ => v)).2

theorem get_rewritten_eq (k : String) (v : Value) :
    (o.rewritten v).get k = (v.get k).map (o.rewriteField k) := by
  rcases o.rewritten_cases v with ⟨h, -, h'⟩ | ⟨vs, rfl, h⟩ | ⟨m, m', rfl, h⟩
  · rw [h]
    cases v <;> simp_all [Value.get, Value.asObject]
  · rw [h]; rfl
  · have hget : ∀ m : List (String × Value), OrdMap.get k (m.map ensureEntry) =
        (OrdMap.get k m).map fun w => (ensureEntry (k, w)).2 :=
      fun m => OrdMap.get_map k (fun k v => (ensureEntry (k, v)).2) m
    have hplain : (ensureUsageTotalTokens (.object m)).get k =
        ((Value.object m).get k).map fun w => (ensureEntry (k, w)).2 := by
      rw [ensureUsageTotalTokens, Value.get_object, ensureUsageTotalTokensEntries_eq, hget,
        Value.get_object]
    unfold rewritten rewriteModels rewriteField
    cases o.backendModel with
    | none => exact hplain
    | some b =>
      cases o.publicModel with
      | none => exact hplain
      | some p =>
        have hmodels := OrdMap.get_map k (fun k v =>
          if k = "model" ∧ v.asStr = some b then .string p else rewriteResponseModels b p v) m
        dsimp only
        rw [rewriteResponseModels, ensureUsageTotalTokens, Value.get_object,
          ensureUsageTotalTokensEntries_eq, hget, rewriteResponseModelsEntries_eq, hmodels,
          Value.get_object, Option.map_map]
        simp only [Function.comp_def]

/-- **A field of a rewritten value is the rewritten field.** -/
theorem get_rewritten {k : String} (hmodel : k ≠ "model") (husage : k ≠ "usage") (v : Value) :
    (o.rewritten v).get k = (v.get k).map o.rewritten := by
  rw [get_rewritten_eq]
  congr 1
  funext w
  have : (k == "usage") = false := by simpa using husage
  unfold rewriteField rewritten rewriteModels
  cases o.backendModel <;> cases o.publicModel <;>
    simp only [ensureEntry, this, hmodel, false_and, if_false]

theorem str_rewritten {k : String} (hmodel : k ≠ "model") (husage : k ≠ "usage") (v : Value) :
    ((o.rewritten v).get k).bind Value.asStr = (v.get k).bind Value.asStr := by
  rw [o.get_rewritten hmodel husage]
  cases v.get k with
  | none => rfl
  | some w => exact o.asStr_rewritten w

end SseObserver

theorem get_rewriteTopModel_ne {backend pub k : String} (hk : k ≠ "model")
    (m : List (String × Value)) :
    OrdMap.get k (rewriteTopModel backend pub m) = OrdMap.get k m := by
  unfold rewriteTopModel
  split_ifs
  · exact OrdMap.get_insert_ne hk _ _
  · rfl

theorem get_rewriteEvent (o : SseObserver) (event : Value) {k : String} (hk : k ≠ "model") :
    (AnthropicMessagesToChatSseNormalizer.rewriteEvent o event).get k = event.get k := by
  unfold AnthropicMessagesToChatSseNormalizer.rewriteEvent
  split
  · exact get_rewriteTopModel_ne hk _
  · rfl

theorem get_rewriteResponseModels (backendModel publicModel : String) {k : String}
    (hk : k ≠ "model") (v : Value) : (rewriteResponseModels backendModel publicModel v).get k =
      (v.get k).map (rewriteResponseModels backendModel publicModel) := by
  cases v with
  | object m =>
    rw [rewriteResponseModels, Value.get_object, Value.get_object, rewriteResponseModelsEntries_eq,
      OrdMap.get_map k fun k v => if k = "model" ∧ v.asStr = some backendModel then
        .string publicModel else rewriteResponseModels backendModel publicModel v]
    simp only [hk, false_and, if_false]
  | _ => simp [rewriteResponseModels, Value.get]

/-! ### Maps on values that conversions do not see -/

/-- A map on values that keeps texts, numbers and arrays, and the fields of an object but for
`model` and `usage`. -/
structure KeepsReading (f : Value → Value) : Prop where
  asStr : ∀ v, (f v).asStr = v.asStr
  isNull : ∀ v, (f v).isNull = v.isNull
  asArray : ∀ v, (f v).asArray = v.asArray.map (List.map f)
  isObject : ∀ v, (f v).asObject.isSome = v.asObject.isSome
  get : ∀ k v, k ≠ "model" → k ≠ "usage" → (f v).get k = (v.get k).map f

theorem SseObserver.keepsReading_rewritten (o : SseObserver) : KeepsReading o.rewritten where
  asStr := o.asStr_rewritten
  isNull := o.isNull_rewritten
  asArray := o.asArray_rewritten
  isObject v := by
    rcases o.rewritten_cases v with ⟨h, -⟩ | ⟨vs, rfl, h⟩ | ⟨m, m', rfl, h⟩ <;> rw [h] <;> rfl
  get _ v hmodel husage := o.get_rewritten hmodel husage v

theorem keepsReading_id : KeepsReading fun v => v where
  asStr _ := rfl
  isNull _ := rfl
  asArray v := by simp
  isObject _ := rfl
  get k v _ _ := by simp

/-- Filling in the totals is rewriting where no model is known. -/
theorem keepsReading_ensureUsageTotalTokens : KeepsReading ensureUsageTotalTokens :=
  SseObserver.keepsReading_rewritten { backendModel := none, publicModel := none }

theorem keepsReading_rewriteResponseModels (backendModel publicModel : String) :
    KeepsReading (rewriteResponseModels backendModel publicModel) where
  asStr v := by cases v <;> simp [rewriteResponseModels, Value.asStr]
  isNull v := by cases v <;> simp [rewriteResponseModels, Value.isNull]
  asArray v := by
    cases v <;> simp [rewriteResponseModels, Value.asArray, rewriteResponseModelsList_eq]
  isObject v := by cases v <;> simp [rewriteResponseModels, Value.asObject]
  get _ v hmodel _ := get_rewriteResponseModels backendModel publicModel hmodel v

namespace KeepsReading

variable {f : Value → Value} (hf : KeepsReading f)

include hf

theorem str {k : String} (hmodel : k ≠ "model") (husage : k ≠ "usage") (v : Value) :
    ((f v).get k).bind Value.asStr = (v.get k).bind Value.asStr := by
  rw [hf.get k v hmodel husage, Option.bind_map]
  exact Option.bind_congr fun w _ => hf.asStr w

theorem str_map {k : String} (hmodel : k ≠ "model") (husage : k ≠ "usage") (w : Option Value) :
    ((w.map f).bind fun v => v.get k).bind Value.asStr =
      (w.bind fun v => v.get k).bind Value.asStr := by
  cases w with
  | none => rfl
  | some v => exact hf.str hmodel husage v

theorem object (m : List (String × Value)) : ∃ m', f (.object m) = .object m' ∧
    ∀ k, k ≠ "model" → k ≠ "usage" → OrdMap.get k m' = (OrdMap.get k m).map f := by
  have hobject := hf.isObject (.object m)
  cases hv : f (.object m) with
  | object m' =>
    refine ⟨m', rfl, fun k hmodel husage => ?_⟩
    have hget := hf.get k (.object m) hmodel husage
    rwa [hv] at hget
  | _ => simp [hv, Value.asObject] at hobject

theorem asObject_none {v : Value} (h : v.asObject = none) : (f v).asObject = none := by
  have hobject := hf.isObject v
  rw [h] at hobject
  simpa using hobject

theorem contentText (content : Value) :
    responsesMessageContentToChatText (f content) = responsesMessageContentToChatText content := by
  have hread : ∀ v : Value, responsesMessageContentToChatText v = v.asStr.getD
      (String.join ((v.asArray.getD []).filterMap fun part =>
        ((part.get "text").bind Value.asStr).or ((part.get "refusal").bind Value.asStr))) := by
    intro v
    cases v <;> rfl
  have hparts : ∀ parts : List Value, (parts.map f).filterMap (fun part =>
        ((part.get "text").bind Value.asStr).or ((part.get "refusal").bind Value.asStr)) =
      parts.filterMap fun part =>
        ((part.get "text").bind Value.asStr).or ((part.get "refusal").bind Value.asStr) := by
    intro parts
    rw [List.filterMap_map]
    refine List.filterMap_congr fun part _ => ?_
    simp only [Function.comp, hf.str (k := "text") (by decide) (by decide),
      hf.str (k := "refusal") (by decide) (by decide)]
  have helements : ((f content).asArray.getD []) = (content.asArray.getD []).map f := by
    rw [hf.asArray]
    cases content.asArray <;> rfl
  rw [hread, hread, hf.asStr, helements, hparts]

theorem itemToMessage (message : String × List ChatToolCall) (item : Value × ℕ) :
    responseItemToChatMessage message (f item.1, item.2) =
      responseItemToChatMessage message item := by
  obtain ⟨item, index⟩ := item
  cases hobject : item.asObject with
  | none =>
    have hnone := hf.asObject_none hobject
    cases item <;> cases hv : f _ <;> simp_all [Value.asObject, responseItemToChatMessage]
  | some m =>
    obtain rfl : item = .object m := by
      cases item <;> simp_all [Value.asObject]
    obtain ⟨m', hm', hget⟩ := hf.object m
    have hstr : ∀ k, k ≠ "model" → k ≠ "usage" →
        (OrdMap.get k m').bind Value.asStr = (OrdMap.get k m).bind Value.asStr := by
      intro k hmodel husage
      rw [hget k hmodel husage, Option.bind_map]
      exact Option.bind_congr fun w _ => hf.asStr w
    have hor : ((OrdMap.get "call_id" m').or (OrdMap.get "id" m')).bind Value.asStr =
        ((OrdMap.get "call_id" m).or (OrdMap.get "id" m)).bind Value.asStr := by
      rw [hget "call_id" (by decide) (by decide), hget "id" (by decide) (by decide)]
      cases OrdMap.get "call_id" m with
      | some w => exact hf.asStr w
      | none =>
        cases OrdMap.get "id" m with
        | some w => exact hf.asStr w
        | none => rfl
    simp only [hm', responseItemToChatMessage, responseFunctionCallToChatToolCall, hor,
      hstr "type" (by decide) (by decide), hstr "role" (by decide) (by decide),
      hstr "name" (by decide) (by decide), hstr "arguments" (by decide) (by decide),
      hget "content" (by decide) (by decide)]
    cases OrdMap.get "content" m with
    | none => rfl
    | some content => simp only [Option.map_some, hf.contentText]

/-- **The output of a response is the same chat message.** -/
theorem outputToMessage (output : Option Value) :
    responseOutputToChatMessage (output.map f) = responseOutputToChatMessage output := by
  have hitems : (output.map f).bind Value.asArray =
      (output.bind Value.asArray).map (List.map f) := by
    rw [Option.bind_map, Option.map_bind]
    exact Option.bind_congr fun w _ => hf.asArray w
  have hfold : ∀ (items : List (Value × ℕ)) (message : String × List ChatToolCall),
      (items.map fun item => (f item.1, item.2)).foldl responseItemToChatMessage message =
        items.foldl responseItemToChatMessage message := by
    intro items message
    rw [List.foldl_map]
    simp only [hf.itemToMessage]
  rw [responseOutputToChatMessage, hitems, responseOutputToChatMessage]
  cases output.bind Value.asArray with
  | none => rfl
  | some items =>
    have hzip : (items.map f).zipIdx = items.zipIdx.map fun item => (f item.1, item.2) := by
      rw [List.zipIdx_map]
      rfl
    simp only [Option.map_some, hzip, hfold]

end KeepsReading

end Onair
