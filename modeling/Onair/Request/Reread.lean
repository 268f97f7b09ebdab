import Onair.Request.Intact

/-!
# The model of a forwarded request

The model a request was admitted for is found by `inspectRequest`; it is replaced by
`rewriteNativeRequestBody` and `rewriteQueryModel`. Here the forwarded request is inspected again.

* `rewriteJsonObject_model`, `rewriteJsonObject_fits`: a rewritten JSON body names the backend's
  model, and can be read;
* `inspectFormField_rewrite`, `inspectMultipartPart_rewrite`: so do the fields of a form and the
  parts of a multipart body;
* `queryField_rewrite`: so does the query;
* `Settled`, `forwarded_model_iff`: **the forwarded request names the backend's model and no other
  unless it is an incomplete multipart body, or one that is taken for a form once rewritten.**
-/

namespace Onair

open Json Text Search

/-! ### JSON bodies -/

mutual
theorem wf_toml : ∀ v : Toml, (tomlValueToJsonValue v).WF
  | .string s => by simp [tomlValueToJsonValue]
  | .integer i => by simp [tomlValueToJsonValue]
  | .float none => by simp [tomlValueToJsonValue]
  | .float (some (_, _, _)) => by simp [tomlValueToJsonValue]
  | .boolean b => by simp [tomlValueToJsonValue]
  | .datetime t => by simp [tomlValueToJsonValue]
  | .array vs => by
    rw [tomlValueToJsonValue, Value.wf_array]
    exact wf_tomlList vs
  | .table m => by
    rw [tomlValueToJsonValue]
    exact Value.wf_obj (wf_tomlTable m)
theorem wf_tomlList : ∀ vs : List Toml, ∀ v ∈ tomlListToJson vs, v.WF
  | [] => by simp [tomlListToJson]
  | v :: vs => by
    rw [tomlListToJson, List.forall_mem_cons]
    exact ⟨wf_toml v, wf_tomlList vs⟩
theorem wf_tomlTable : ∀ m : List (String × Toml), ∀ e ∈ tomlTableToJson m, e.2.WF
  | [] => by simp [tomlTableToJson]
  | (_, v) :: m => by
    rw [tomlTableToJson, List.forall_mem_cons]
    exact ⟨wf_toml v, wf_tomlTable m⟩
end

/-- The extra fields of a route. The reader of the configuration refuses values nested deeper than
80, so every field fits into a JSON body. -/
structure ExtraBody where
  entries : List (String × Toml)
  shallow : ∀ e ∈ entries, (tomlValueToJsonValue e.2).depth < maxDepth

section Objects

variable {d : ℕ} {object : List (String × Value)} (h : Value.Fits (d + 1) (.object object))

include h in
theorem insertAbsent_fits {k : String} {v : Value} (hv : Value.Fits d v) :
    Value.Fits (d + 1) (.object (insertAbsent k v object)) := by
  rw [insertAbsent]
  split
  · exact h
  · exact h.insert k hv

theorem get_insertAbsent_ne {k k' : String} (hk : k ≠ k') (v : Value) :
    OrdMap.get k (insertAbsent k' v object) = OrdMap.get k object := by
  rw [insertAbsent]
  split
  · rfl
  · exact OrdMap.get_insert_ne hk v object

include h in
theorem renameMaxOutputTokens_fits (k : String) :
    Value.Fits (d + 1) (.object (renameMaxOutputTokens k object)) := by
  rw [renameMaxOutputTokens]
  split
  · next v hv => exact insertAbsent_fits (h.erase _) (h.get hv)
  · exact h

theorem get_renameMaxOutputTokens_ne {k field : String} (hk : k ≠ "max_output_tokens")
    (hfield : k ≠ field) :
    OrdMap.get k (renameMaxOutputTokens field object) = OrdMap.get k object := by
  rw [renameMaxOutputTokens]
  split
  · rw [get_insertAbsent_ne hfield, OrdMap.get_erase_ne hk]
  · rfl

include h in
theorem rewriteMaxOutputTokens_fits (policy : ResponsesMaxOutputTokensPolicy) :
    Value.Fits (d + 1) (.object (rewriteNativeResponsesMaxOutputTokens object policy)) := by
  cases policy with
  | preserve => exact h
  | drop => exact h.erase _
  | renameToMaxTokens => exact renameMaxOutputTokens_fits h _
  | renameToMaxCompletionTokens => exact renameMaxOutputTokens_fits h _

theorem get_rewriteMaxOutputTokens_ne {k : String} (hk : k ≠ "max_output_tokens")
    (htokens : k ≠ "max_tokens") (hcompletion : k ≠ "max_completion_tokens")
    (policy : ResponsesMaxOutputTokensPolicy) :
    OrdMap.get k (rewriteNativeResponsesMaxOutputTokens object policy) = OrdMap.get k object := by
  cases policy with
  | preserve => rfl
  | drop => exact OrdMap.get_erase_ne hk object
  | renameToMaxTokens => exact get_renameMaxOutputTokens_ne hk htokens
  | renameToMaxCompletionTokens => exact get_renameMaxOutputTokens_ne hk hcompletion

theorem applyChatStreamUsagePolicy_cases (object : List (String × Value))
    (policy : ChatStreamUsagePolicy) :
    applyChatStreamUsagePolicy object policy = object ∨
      ∃ options, applyChatStreamUsagePolicy object policy =
          OrdMap.insert "stream_options" (.object options) object ∧
        ∀ d, Value.Fits (d + 2) (.object object) → Value.Fits (d + 1) (.object options) := by
  have hnew : ∀ d, Value.Fits (d + 1) (.object [("include_usage", .bool true)]) := fun d =>
    Value.fits_object.mpr ⟨by simp [OrdMap.Sorted], by simp⟩
  rw [applyChatStreamUsagePolicy]
  by_cases h1 : policy = .preserve
  · exact Or.inl (if_pos h1)
  by_cases h2 : (OrdMap.get "stream" object).bind Value.asBool ≠ some true
  · rw [if_neg h1, if_pos h2]
    exact Or.inl rfl
  rw [if_neg h1, if_neg h2]
  dsimp only
  split
  · next options ho =>
    split_ifs
    · exact Or.inr ⟨_, rfl, fun d h => insertAbsent_fits (h.get ho) (by simp)⟩
    · exact Or.inr ⟨_, rfl, fun d h => (h.get ho).insert _ (by simp)⟩
  · split_ifs
    · exact Or.inr ⟨_, rfl, fun d _ => hnew d⟩
    · exact Or.inl rfl
  · exact Or.inr ⟨_, rfl, fun d _ => hnew d⟩

include h in
theorem applyExtraBody_fits {extra : List (String × Toml)}
    (hx : ∀ e ∈ extra, Value.Fits d (tomlValueToJsonValue e.2)) :
    Value.Fits (d + 1) (.object (applyExtraBody object extra)) := by
  induction extra generalizing object with
  | nil => exact h
  | cons e extra ih =>
    rw [applyExtraBody, List.foldl_cons]
    refine ih ?_ fun e' he' => hx e' (List.mem_cons_of_mem _ he')
    split_ifs
    · exact h
    · exact h.insert _ (hx e List.mem_cons_self)

theorem get_applyExtraBody_model (extra : List (String × Toml)) :
    OrdMap.get "model" (applyExtraBody object extra) = OrdMap.get "model" object := by
  induction extra generalizing object with
  | nil => rfl
  | cons e extra ih =>
    rw [applyExtraBody, List.foldl_cons]
    refine ih.trans ?_
    split_ifs with hp
    · rfl
    · refine OrdMap.get_insert_ne ?_ _ object
      intro he
      rw [← he] at hp
      exact hp (by decide)

variable (backend : String) (nativeResponses chatCompletions : Bool)
  (policies : RequestRewritePolicies)

theorem rewriteJsonObject_model (object : List (String × Value)) (extra : List (String × Toml)) :
    OrdMap.get "model" (rewriteJsonObject object backend nativeResponses chatCompletions policies
      extra) = some (.string backend) := by
  have hset := OrdMap.get_insert_self "model" (Value.string backend) object
  rw [rewriteJsonObject, get_applyExtraBody_model]
  generalize OrdMap.insert "model" (Value.string backend) object = object at hset ⊢
  have hstore : OrdMap.get "model" (if nativeResponses && decide (policies.responsesStore =
      .forceFalse) then insertAbsent "store" (.bool false) object else object) =
        some (.string backend) := by
    split_ifs
    · rw [get_insertAbsent_ne (by decide), hset]
    · exact hset
  generalize (if nativeResponses && decide (policies.responsesStore = .forceFalse) then
    insertAbsent "store" (.bool false) object else object) = object at hstore ⊢
  split_ifs
  · rw [get_rewriteMaxOutputTokens_ne (by decide) (by decide) (by decide), hstore]
  · rcases applyChatStreamUsagePolicy_cases object policies.chatStreamUsage with he | ⟨_, he, -⟩
    · rw [he, hstore]
    · rw [he, OrdMap.get_insert_ne (by decide), hstore]
  · exact hstore

theorem rewriteJsonObject_fits {object : List (String × Value)}
    (h : Value.Fits (d + 2) (.object object)) {extra : List (String × Toml)}
    (hx : ∀ e ∈ extra, Value.Fits (d + 1) (tomlValueToJsonValue e.2)) :
    Value.Fits (d + 2) (.object (rewriteJsonObject object backend nativeResponses chatCompletions
      policies extra)) := by
  have hset := h.insert "model" (Value.fits_string _ backend)
  rw [rewriteJsonObject]
  refine applyExtraBody_fits ?_ hx
  generalize OrdMap.insert "model" (Value.string backend) object = object at hset ⊢
  have hstore : Value.Fits (d + 2) (.object (if nativeResponses && decide (policies.responsesStore =
      .forceFalse) then insertAbsent "store" (.bool false) object else object)) := by
    split_ifs
    · exact insertAbsent_fits hset (Value.fits_bool _ _)
    · exact hset
  generalize (if nativeResponses && decide (policies.responsesStore = .forceFalse) then
    insertAbsent "store" (.bool false) object else object) = object at hstore ⊢
  split_ifs
  · exact rewriteMaxOutputTokens_fits hstore _
  · rcases applyChatStreamUsagePolicy_cases object policies.chatStreamUsage with he | ⟨_, he, ho⟩
    · rw [he]
      exact hstore
    · rw [he]
      exact hstore.insert _ (ho d hstore)
  · exact hstore

end Objects

theorem strAt_of_blur {v w : Value} (h : w.blur = v.blur) (k : String) :
    (w.get k).bind Value.asStr = (v.get k).bind Value.asStr := by
  have hb : ∀ u : Value, (u.get k).bind Value.asStr = (u.blur.get k).bind Value.asStr := by
    intro u
    rw [Value.get_blur, Option.bind_map]
    exact congrArg _ (funext fun x => (Value.asStr_blur x).symm)
  rw [hb w, h, ← hb v]

theorem inspectJsonBody_toVec {c : Codec} (hc : c.Lawful) {object : List (String × Value)}
    (h : Value.Fits maxDepth (.object object)) {backend : String}
    (hm : OrdMap.get "model" object = some (.string backend)) (hb : nonBlank backend = true) :
    (inspectJsonBody c (c.toVec (.object object))).model = some backend := by
  obtain ⟨w, hw⟩ := Option.isSome_iff_exists.mp (hc.read_print _ h.1 h.2)
  have hs := strAt_of_blur (hc.blur_read_print _ w h.1 hw) "model"
  rw [Value.get_object, hm] at hs
  rw [inspectJsonBody, hw]
  show ((w.get "model").bind Value.asStr).filter nonBlank = _
  rw [hs]
  simp [hb]

theorem inspectJsonBody_of_not_object {c : Codec} {body : Bytes}
    (h : (c.fromSlice body).bind Value.asObject = none) :
    (inspectJsonBody c body).model = none := by
  rw [inspectJsonBody]
  cases hv : c.fromSlice body with
  | none => rfl
  | some v =>
    rw [hv, Option.bind_some] at h
    cases v <;> simp_all [Value.asObject, inspectJsonValue, Value.get]

/-! ### Forms and queries -/

section Forms

variable {f : Form} {backend : String}

/-- A name that is not blank, with nothing to trim. -/
structure ModelName (backend : String) : Prop where
  nonBlank : nonBlank backend = true
  trimmed : trim backend = backend

theorem inspectFormField_other {e : String × String} (h : e.1 ≠ "model") (shape : RequestShape) :
    (inspectFormField shape e).model = shape.model := by
  obtain ⟨key, value⟩ := e
  simp only at h
  simp only [inspectFormField, h, false_and, if_false]
  split_ifs <;> rfl

theorem foldl_inspectFormField {l : List (String × String)} (h : sawModel l = false)
    (shape : RequestShape) : (l.foldl inspectFormField shape).model = shape.model := by
  induction l generalizing shape with
  | nil => rfl
  | cons e l ih =>
    simp only [sawModel, List.any_cons, Bool.or_eq_false_iff, beq_eq_false_iff_ne] at h
    rw [List.foldl_cons, ih (by simpa [sawModel] using h.2), inspectFormField_other h.1]

theorem foldl_inspectFormField_rewrite (hb : ModelName backend) (l : List (String × String))
    (shape : RequestShape) : ((rewriteFormFields backend l).foldl inspectFormField shape).model =
      if sawModel l then some backend else shape.model := by
  induction l generalizing shape with
  | nil => rfl
  | cons e l ih =>
    have hcons : rewriteFormFields backend (e :: l) =
        (if e.1 = "model" then (e.1, backend) else e) :: rewriteFormFields backend l := rfl
    rw [hcons, List.foldl_cons, ih, sawModel, sawModel, List.any_cons]
    by_cases he : e.1 = "model"
    · rw [if_pos he]
      simp [he, inspectFormField, hb.nonBlank]
    · rw [if_neg he, inspectFormField_other he, beq_eq_false_iff_ne.mpr he, Bool.false_or]

/-- The rewritten query names the backend's model if it named one at all. -/
def queryHasModel (f : Form) (query : Option String) : Bool :=
  (query.map fun q => sawModel (f.parse (asBytes q))).getD false

theorem find?_rewriteFormFields (hb : ModelName backend) (l : List (String × String)) :
    ((rewriteFormFields backend l).find? fun e => e.1 == "model" && nonBlank e.2).map Prod.snd =
      if sawModel l then some backend else none := by
  induction l with
  | nil => rfl
  | cons e l ih =>
    have hcons : rewriteFormFields backend (e :: l) =
        (if e.1 = "model" then (e.1, backend) else e) :: rewriteFormFields backend l := rfl
    rw [hcons, sawModel, List.any_cons]
    by_cases he : e.1 = "model"
    · rw [if_pos he, List.find?_cons_of_pos (by simp [he, hb.nonBlank])]
      simp [he]
    · rw [if_neg he, List.find?_cons_of_neg (by simp [he]), ih, sawModel,
        beq_eq_false_iff_ne.mpr he, Bool.false_or]

theorem queryField_eq_none {query : Option String} (h : queryHasModel f query = false) :
    queryField f query "model" = none := by
  cases query with
  | none => rfl
  | some q =>
    simp only [queryHasModel, sawModel, Option.map_some, Option.getD_some, List.any_eq_false] at h
    simp only [queryField, Option.bind_some, Option.map_eq_none_iff, List.find?_eq_none]
    intro e he
    simp [show ¬ e.1 = "model" by simpa using h e he]

theorem queryField_rewrite (hf : f.Lawful) (hb : ModelName backend) (query : Option String) :
    queryField f (rewriteQueryModel f query (some backend)) "model" =
      if queryHasModel f query then some backend else none := by
  cases query with
  | none => rfl
  | some q =>
    have hq : rewriteQueryModel f (some q) (some backend) =
        some (if sawModel (f.parse (asBytes q)) then
          f.serialize (rewriteFormFields backend (f.parse (asBytes q))) else q) := rfl
    rw [hq]
    by_cases hs : sawModel (f.parse (asBytes q)) = true
    · rw [if_pos hs, queryField, Option.bind_some, hf.parse_serialize, find?_rewriteFormFields hb]
      rfl
    · have hn : queryHasModel f (some q) = false := by simpa [queryHasModel] using hs
      rw [if_neg hs, hn, queryField_eq_none hn]
      rfl

/-! ### A serialized form is read as a form -/

theorem serialize_ne_nil (hf : f.Lawful) {l : List (String × String)} (hl : l ≠ []) :
    asBytes (f.serialize l) ≠ [] := by
  intro h
  have he := hf.mem_serialize l hl
  rw [show f.serialize l = "" from asBytes_injective (by rw [h]; rfl)] at he
  simp at he

theorem mem_serialize (hf : f.Lawful) {l : List (String × String)} {b : UInt8}
    (h : b ∈ asBytes (f.serialize l)) : b ∉ [32, 9, 10, 12, 13, 123, 91] := by
  intro hm
  have hn : b.toNat < 128 := by
    simp only [List.mem_cons, List.not_mem_nil, or_false] at hm
    rcases hm with rfl | rfl | rfl | rfl | rfl | rfl | rfl <;> decide
  have hc := hf.serialize_chars l _ (mem_asBytes h hn)
  simp only [List.mem_cons, List.not_mem_nil, or_false] at hm
  rcases hm with rfl | rfl | rfl | rfl | rfl | rfl | rfl <;> exact absurd hc (by decide)

theorem looksLikeUrlencoded_serialize (hf : f.Lawful) {l : List (String × String)} (hl : l ≠ []) :
    looksLikeUrlencoded (asBytes (f.serialize l)) = true := by
  have h1 := hf.mem_serialize l hl
  have h2 : '\x7b' ∉ (f.serialize l).toList := fun h =>
    absurd (hf.serialize_chars l _ h) (by decide)
  rw [looksLikeUrlencoded, fromUtf8_asBytes]
  simp [h1, h2]

theorem looksLikeJson_serialize (hf : f.Lawful) (l : List (String × String)) :
    looksLikeJson (asBytes (f.serialize l)) = false := by
  rw [looksLikeJson]
  cases hfind : (asBytes (f.serialize l)).find? fun b => !isAsciiWhitespace b with
  | none => rfl
  | some b =>
    have := mem_serialize hf (List.mem_of_find?_eq_some hfind)
    simp only [List.mem_cons, List.not_mem_nil, or_false, not_or] at this
    simp [this]

theorem serialize_not_object {c : Codec} (hc : c.Lawful) (hf : f.Lawful)
    {l : List (String × String)} (hl : l ≠ []) :
    (c.fromSlice (asBytes (f.serialize l))).bind Value.asObject = none := by
  obtain ⟨b, t, ht⟩ := List.exists_cons_of_ne_nil (serialize_ne_nil hf hl)
  have := mem_serialize hf (ht ▸ List.mem_cons_self : b ∈ asBytes (f.serialize l))
  rw [ht]
  refine not_object hc ?_ t
  simp_all

end Forms

/-! ### Multipart bodies -/

/-- The code takes the part for the field `model`. -/
def isModelPart (part : Bytes) : Bool :=
  ((splitMultipartPart part).map fun e => multipartFieldIs e.1 "model").getD false

section Multipart

variable {backend : String}

theorem inspectMultipartPart_other {part : Bytes} (h : isModelPart part = false)
    (shape : RequestShape) : (inspectMultipartPart shape part).model = shape.model := by
  rw [inspectMultipartPart]
  rw [isModelPart] at h
  cases hs : splitMultipartPart part with
  | none => rfl
  | some e =>
    obtain ⟨headers, content⟩ := e
    simp only [hs, Option.map_some, Option.getD_some] at h
    cases ht : fromUtf8 content with
    | none => simp only [ht]
    | some text =>
      simp only [ht, h, Bool.false_and, Bool.false_eq_true, if_false]
      split_ifs <;> rfl

theorem inspectMultipartPart_model {p : Part} (h : multipartFieldIs p.headers "model" = true)
    (hb : ModelName backend) (shape : RequestShape) :
    (inspectMultipartPart shape (p.withContent (asBytes backend)).bytes).model = some backend := by
  rw [inspectMultipartPart, Part.split_bytes]
  simp only [Part.withContent, fromUtf8_asBytes, h, hb.nonBlank, hb.trimmed, Bool.and_self, if_true]
  split_ifs <;> rfl

theorem inspectMultipartPart_rewrite (hb : ModelName backend) (part : Bytes)
    (shape : RequestShape) :
    (inspectMultipartPart shape (rewriteMultipartPart part backend)).model =
      if isModelPart part then some backend else shape.model := by
  by_cases h : isModelPart part = true
  · rw [if_pos h]
    rw [isModelPart] at h
    cases hs : splitMultipartPart part with
    | none => simp [hs] at h
    | some e =>
      obtain ⟨headers, content⟩ := e
      simp only [hs, Option.map_some, Option.getD_some] at h
      obtain ⟨p, rfl, rfl, rfl⟩ := Part.exists_part hs
      rw [Part.rewrite_bytes, if_pos h]
      exact inspectMultipartPart_model h hb shape
  · have hn : isModelPart part = false := by simpa using h
    have hr : rewriteMultipartPart part backend = part := by
      rw [rewriteMultipartPart]
      rw [isModelPart] at hn
      cases hs : splitMultipartPart part with
      | none => rfl
      | some e => simp_all
    rw [if_neg h, hr, inspectMultipartPart_other hn]

theorem foldl_inspectMultipartPart {ps : List Bytes} (h : ps.any isModelPart = false)
    (shape : RequestShape) : (ps.foldl inspectMultipartPart shape).model = shape.model := by
  induction ps generalizing shape with
  | nil => rfl
  | cons p ps ih =>
    rw [List.any_cons, Bool.or_eq_false_iff] at h
    rw [List.foldl_cons, ih h.2, inspectMultipartPart_other h.1]

theorem foldl_inspectMultipartPart_rewrite (hb : ModelName backend) (ps : List Bytes)
    (shape : RequestShape) :
    ((ps.map (rewriteMultipartPart · backend)).foldl inspectMultipartPart shape).model =
      if ps.any isModelPart then some backend else shape.model := by
  induction ps generalizing shape with
  | nil => rfl
  | cons p ps ih =>
    rw [List.map_cons, List.foldl_cons, ih, inspectMultipartPart_rewrite hb, List.any_cons]
    cases isModelPart p <;> simp

/-- A rewritten part is clear of the delimiter if the backend's model brings none in. -/
theorem rewriteMultipartPart_clear {m : Bytes} (hm : 13 ∉ m) (hl : 2 ≤ m.length) {part : Bytes}
    (h : Clear (crlf ++ m) part)
    (hb : isModelPart part = true → ¬ crlf ++ m <:+: crlf ++ asBytes backend) :
    Clear (crlf ++ m) (rewriteMultipartPart part backend) := by
  cases hs : splitMultipartPart part with
  | none =>
    rw [rewriteMultipartPart, hs]
    exact h
  | some e =>
    obtain ⟨headers, content⟩ := e
    obtain ⟨p, rfl, rfl, rfl⟩ := Part.exists_part hs
    rw [Part.rewrite_bytes]
    split_ifs with hi
    · exact Part.withContent_clear hm hl h (hb (by simpa [isModelPart, hs] using hi))
    · exact h

end Multipart

/-! ### Reading a body again -/

/-- The body is taken for a form. -/
def sniffed (contentType : Option String) (body : Bytes) : Bool :=
  isUrlencodedContentType contentType || looksLikeUrlencoded body

section Reading

variable {c : Codec} {f : Form} (hc : c.Lawful) (hf : f.Lawful) {body : Bytes}
  {contentType query : Option String} {backend : String} (hb : ModelName backend)

theorem inspectBody_of_json (hne : body ≠ []) (h : shouldParseJson contentType body = true) :
    inspectBody c f body contentType = inspectJsonBody c body := by
  rw [inspectBody, if_neg (by simpa using hne), if_pos h]

theorem inspectBody_of_not_json (hne : body ≠ []) (h : shouldParseJson contentType body = false) :
    inspectBody c f body contentType =
      if sniffed contentType body && ((inspectUrlencodedBody f body).model.isSome ||
          (inspectUrlencodedBody f body).stream) then inspectUrlencodedBody f body
      else match contentType.bind multipartBoundary with
        | some boundary => inspectMultipartBody body boundary
        | none => inspectJsonBody c body := by
  rw [inspectBody, if_neg (by simpa using hne), if_neg (by simp [h])]
  rfl

include hc in
theorem not_object_of_not_json (h : looksLikeJson body = false) :
    (c.fromSlice body).bind Value.asObject = none := by
  rw [Option.bind_eq_none_iff]
  intro v hv
  cases v with
  | object m =>
    rw [looksLikeJson_of_find (Or.inl rfl) (hc.object_head body m hv)] at h
    cases h
  | _ => rfl

theorem looksLikeJson_of_head {b : UInt8} {t : Bytes} (h : isAsciiWhitespace b = false)
    (hb : b ≠ 123 ∧ b ≠ 91) : looksLikeJson (b :: t) = false := by
  rw [looksLikeJson, List.find?_cons_of_pos (by simp [h])]
  simp [hb]

include hc hf hb in
/-- A form that was rewritten is read with the backend's model, or not at all. -/
theorem inspectBody_form {fields : List (String × String)} (hs : sawModel fields = true) :
    (inspectBody c f (asBytes (f.serialize (rewriteFormFields backend fields))) contentType).model =
      if isJsonContentType contentType then none else some backend := by
  have hl : rewriteFormFields backend fields ≠ [] := by
    rintro h
    rw [rewriteFormFields, List.map_eq_nil_iff] at h
    simp [h, sawModel] at hs
  have hne := serialize_ne_nil hf hl
  have hjs : shouldParseJson contentType (asBytes (f.serialize (rewriteFormFields backend fields)))
      = isJsonContentType contentType := by
    rw [shouldParseJson, looksLikeJson_serialize hf, Bool.or_false]
  by_cases hj : isJsonContentType contentType = true
  · rw [inspectBody_of_json hne (hjs.trans hj), if_pos hj]
    exact inspectJsonBody_of_not_object (serialize_not_object hc hf hl)
  · have hm : (inspectUrlencodedBody f (asBytes (f.serialize (rewriteFormFields backend
        fields)))).model = some backend := by
      rw [inspectUrlencodedBody, hf.parse_serialize, foldl_inspectFormField_rewrite hb, if_pos hs]
    have hsn : sniffed contentType (asBytes (f.serialize (rewriteFormFields backend fields)))
        = true := by
      rw [sniffed, looksLikeUrlencoded_serialize hf hl, Bool.or_true]
    rw [inspectBody_of_not_json hne (hjs.trans (by simpa using hj)), if_pos (by simp [hsn, hm]), hm,
      if_neg hj]

end Reading

/-! ### Complete multipart bodies -/

/-- The body is complete multipart with the given parts: it begins with the opening delimiter, and
gets to a closing one. -/
def Complete (boundary : String) (body : Bytes) (ps : List Bytes) (tail : Bytes) : Prop :=
  ∃ rest, body = asBytes ("--" ++ boundary) ++ (crlf ++ rest) ∧
    Scan (asBytes ("--" ++ boundary)) rest ps (some tail)

/-- The body with the contents of its model parts replaced. -/
def relaid (boundary backend : String) (ps : List Bytes) (tail : Bytes) : Bytes :=
  lay (asBytes ("--" ++ boundary)) (ps.map (rewriteMultipartPart · backend)) (closingBreak tail)

section Complete

variable {boundary : String} {body tail : Bytes} {ps : List Bytes}

theorem Complete.rewrite (h : Complete boundary body ps tail) (backend : String) :
    rewriteMultipartBody body boundary backend = some (relaid boundary backend ps tail) := by
  obtain ⟨rest, rfl, hs⟩ := h
  exact (hs.scanners rfl).2 backend

theorem Complete.parts (h : Complete boundary body ps tail) :
    multipartParts body boundary = ps := by
  obtain ⟨rest, rfl, hs⟩ := h
  exact (hs.scanners rfl).1

theorem rewrite_of_incomplete (h : ∀ ps tail, ¬ Complete boundary body ps tail) (backend : String) :
    rewriteMultipartBody body boundary backend = none := by
  by_cases hp : asBytes ("--" ++ boundary) ++ crlf <+: body
  · obtain ⟨rest, rfl⟩ := hp
    obtain ⟨ps, e, hs⟩ := scan_total (asBytes ("--" ++ boundary)) rest
    rw [List.append_assoc] at h ⊢
    rw [(hs.scanners rfl).2 backend]
    cases e with
    | none => rfl
    | some tail => exact absurd ⟨rest, rfl, hs⟩ (h ps tail)
  · exact (scanners_other rfl hp).2 backend

theorem Complete.relaid_parts (h : Complete boundary body ps tail) (hb : '\r' ∉ boundary.toList)
    {backend : String}
    (hd : ps.any isModelPart = true →
      ¬ asBytes ("\r\n--" ++ boundary) <:+: asBytes ("\r\n" ++ backend)) :
    multipartParts (relaid boundary backend ps tail) boundary =
      ps.map (rewriteMultipartPart · backend) := by
  obtain ⟨rest, -, hs⟩ := h
  have hm : (13 : UInt8) ∉ asBytes ("--" ++ boundary) :=
    MultipartForm.marker_line ⟨boundary, [], false, hb, by simp⟩
  have hl : 2 ≤ (asBytes ("--" ++ boundary)).length := by
    rw [asBytes_append, List.length_append]
    exact Nat.le_add_right 2 _
  have hcl : ∀ q ∈ ps.map (rewriteMultipartPart · backend),
      Clear (crlf ++ asBytes ("--" ++ boundary)) q := by
    intro q hq
    obtain ⟨p, hp, rfl⟩ := List.mem_map.mp hq
    refine rewriteMultipartPart_clear hm hl (hs.clear p hp) fun hmod => ?_
    have := hd (List.any_eq_true.mpr ⟨p, hp, hmod⟩)
    rw [MultipartForm.delimiter_eq, asBytes_append "\r\n"] at this
    exact this
  obtain ⟨p, ps', hps⟩ := List.exists_cons_of_ne_nil hs.layParts_eq.1
  rw [hps, List.map_cons] at hcl
  obtain ⟨rest', hr, hs'⟩ := scan_layParts (closingBreak tail) hcl
  rw [relaid, lay, hps, List.map_cons, hr]
  exact (hs'.scanners rfl).1

theorem relaid_head (boundary backend : String) (ps : List Bytes) (tail : Bytes) :
    ∃ t, relaid boundary backend ps tail = 45 :: t := by
  rw [relaid, lay, asBytes_append]
  exact ⟨_, rfl⟩

theorem Complete.head (h : Complete boundary body ps tail) : ∃ t, body = 45 :: t := by
  obtain ⟨rest, rfl, -⟩ := h
  rw [asBytes_append]
  exact ⟨_, rfl⟩

end Complete

/-! ### When the multipart rewriter is reached -/

/-- The body is taken neither for JSON nor for a form with a model, and has a boundary. -/
structure Reaches (f : Form) (body : Bytes) (contentType : Option String) (boundary : String) :
    Prop where
  nonempty : body ≠ []
  not_json : shouldParseJson contentType body = false
  not_form : sniffed contentType body = true → sawModel (f.parse body) = false
  boundary_eq : contentType.bind multipartBoundary = some boundary

section Forwarded

variable {c : Codec} {f : Form} (hc : c.Lawful) (hf : f.Lawful) {body : Bytes}
  {contentType query : Option String} {backend : String} (hb : ModelName backend)
  {path : String} {policies : RequestRewritePolicies} {extra : ExtraBody}

/-- Inspected again, every request forwarded names the backend's model. -/
def ForwardsModel (c : Codec) (f : Form) (body : Bytes) (contentType query : Option String)
    (backend path : String) (policies : RequestRewritePolicies) (extra : ExtraBody) : Prop :=
  ∀ out, rewriteNativeRequestBody c f body contentType (some backend) path policies extra.entries =
      .ok out →
    (inspectRequest c f out contentType (rewriteQueryModel f query (some backend))).model =
      some backend

include hf hb in
/-- The model is found in the body, or else in the query. -/
theorem reread_iff (out : Bytes) :
    (inspectRequest c f out contentType (rewriteQueryModel f query (some backend))).model =
        some backend ↔
      (inspectBody c f out contentType).model = some backend ∨
        ((inspectBody c f out contentType).model = none ∧ queryHasModel f query = true) := by
  show (inspectBody c f out contentType).model.or _ = _ ↔ _
  rw [queryField_rewrite hf hb]
  cases (inspectBody c f out contentType).model with
  | none => cases queryHasModel f query <;> simp
  | some m => simp

/-- A request whose body names no model has it in the query. -/
theorem queryHasModel_of_found (h : (inspectRequest c f body contentType query).model.isSome = true)
    (hn : (inspectBody c f body contentType).model = none) : queryHasModel f query = true := by
  by_contra hq
  have : (inspectRequest c f body contentType query).model = none := by
    show (inspectBody c f body contentType).model.or _ = _
    rw [hn, queryField_eq_none (by simpa using hq)]
    rfl
  rw [this] at h
  cases h

/-- What is forwarded, in the order in which the kinds of bodies are tried. -/
theorem rewriteNative_ok {out : Bytes} (hne : body ≠ [])
    (h : rewriteNativeRequestBody c f body contentType (some backend) path policies extra.entries =
      .ok out) :
    out = (((if shouldParseJson contentType body then
        rewriteJsonRequestBody c body backend (decide (endpointKind path = .responses))
          (decide (endpointKind path = .chatCompletions)) policies extra.entries else none).or
      (if sniffed contentType body then rewriteUrlencodedRequestBody f body backend else none)).or
      ((contentType.bind multipartBoundary).bind
        (rewriteMultipartBody body · backend))).getD body := by
  have he : body.isEmpty = false := by simpa using hne
  simp only [rewriteNativeRequestBody, he, Bool.false_eq_true, if_false] at h
  by_cases hv : (decide (endpointKind path = .responses) && shouldParseJson contentType body) = true
  · rw [if_pos hv] at h
    cases hr : validateResponsesToolHistory c body with
    | error e =>
      rw [hr] at h
      cases h
    | ok u =>
      rw [hr] at h
      exact (Except.ok.inj h).symm
  · rw [if_neg hv] at h
    exact (Except.ok.inj h).symm

theorem rewriteNative_nil {out : Bytes}
    (h : rewriteNativeRequestBody c f [] contentType (some backend) path policies extra.entries =
      .ok out) : out = [] := by
  simp only [rewriteNativeRequestBody, List.isEmpty_nil, if_true] at h
  by_cases hv : (decide (endpointKind path = .responses) && shouldParseJson contentType []) = true
  · rw [if_pos hv] at h
    cases hr : validateResponsesToolHistory c [] with
    | error e =>
      rw [hr] at h
      cases h
    | ok u =>
      rw [hr] at h
      exact (Except.ok.inj h).symm
  · rw [if_neg hv] at h
    exact (Except.ok.inj h).symm

theorem rewriteUrlencoded_eq_none (backend : String) (h : sniffed contentType body = true →
    sawModel (f.parse body) = false) :
    (if sniffed contentType body then rewriteUrlencodedRequestBody f body backend else none) =
      none := by
  split_ifs with hs
  · rw [rewriteUrlencodedRequestBody, h hs]
    rfl
  · rfl

theorem Reaches.rewrite {boundary : String} (h : Reaches f body contentType boundary) :
    rewriteNativeRequestBody c f body contentType (some backend) path policies extra.entries =
      .ok ((rewriteMultipartBody body boundary backend).getD body) := by
  have he : body.isEmpty = false := by simpa using h.nonempty
  have hform := rewriteUrlencoded_eq_none backend h.not_form
  rw [sniffed] at hform
  simp only [rewriteNativeRequestBody, he, h.not_json, Bool.and_false, Bool.false_eq_true, if_false,
    hform, h.boundary_eq, Option.bind_some, Option.or_none, Option.none_or]
  rfl

/-- What such a body names: nothing if it is a form with the flag `stream`. -/
theorem Reaches.model {boundary : String} (h : Reaches f body contentType boundary) :
    (inspectBody c f body contentType).model =
      if sniffed contentType body && (inspectUrlencodedBody f body).stream then none
      else (inspectMultipartBody body boundary).model := by
  rw [inspectBody_of_not_json h.nonempty h.not_json, h.boundary_eq]
  by_cases hs : sniffed contentType body = true
  · have hm : (inspectUrlencodedBody f body).model = none :=
      foldl_inspectFormField (h.not_form hs) {}
    cases (inspectUrlencodedBody f body).stream <;> simp [hs, hm]
  · simp [hs]

include hc hb in
theorem inspectBody_json {object : List (String × Value)}
    (h : c.fromSlice body = some (.object object)) (n k : Bool) :
    (inspectBody c f (c.toVec (.object (rewriteJsonObject object backend n k policies
      extra.entries))) contentType).model = some backend := by
  have hfit : Value.Fits maxDepth (.object (rewriteJsonObject object backend n k policies
      extra.entries)) := by
    have hr := hc.wf_of_read body _ h
    refine rewriteJsonObject_fits (d := 125) backend n k policies hr fun e he => ?_
    exact ⟨wf_toml e.2, Nat.le_of_lt_succ (extra.shallow e he)⟩
  obtain ⟨t, ht⟩ : ∃ t, c.toVec (.object (rewriteJsonObject object backend n k policies
      extra.entries)) = 123 :: t := by
    have := hc.print_object (rewriteJsonObject object backend n k policies extra.entries)
    exact List.head?_eq_some_iff.mp this
  have hsp : shouldParseJson contentType (c.toVec (.object (rewriteJsonObject object backend n k
      policies extra.entries))) = true := by
    rw [ht, shouldParseJson, looksLikeJson, List.find?_cons_of_pos (by decide)]
    simp
  rw [inspectBody_of_json (by simp [ht]) hsp]
  exact inspectJsonBody_toVec hc hfit (rewriteJsonObject_model _ _ _ _ _ _) hb.nonBlank

theorem rewriteJson_eq_none {n k : Bool}
    (h : rewriteJsonRequestBody c body backend n k policies extra.entries = none) :
    (inspectJsonBody c body).model = none := by
  rw [rewriteJsonRequestBody] at h
  cases ho : (c.fromSlice body).bind Value.asObject with
  | none => exact inspectJsonBody_of_not_object ho
  | some object =>
    simp only [ho] at h
    split_ifs at h with hm
    obtain ⟨v, hv, hvo⟩ := Option.bind_eq_some_iff.mp ho
    obtain rfl := Value.asObject_eq_some.mp hvo
    rw [inspectJsonBody, hv]
    simp [inspectJsonValue, Option.isNone_iff_eq_none.mp hm]

include hc hb in
theorem inspectBody_of_rewriteJson {text : Bytes} {n k : Bool}
    (h : rewriteJsonRequestBody c body backend n k policies extra.entries = some text) :
    (inspectBody c f text contentType).model = some backend := by
  rw [rewriteJsonRequestBody] at h
  split at h
  · cases h
  · next object ho =>
    split_ifs at h
    obtain ⟨v, hv, hvo⟩ := Option.bind_eq_some_iff.mp ho
    obtain rfl := Value.asObject_eq_some.mp hvo
    obtain rfl := Option.some.inj h
    exact inspectBody_json hc hb hv n k

include hc in
/-- A body that is rewritten as multipart is JSON by its content type only, so it names no model. -/
theorem inspectBody_multipart_of_json (hsp : shouldParseJson contentType body = true)
    {boundary : String} {text : Bytes}
    (h : rewriteMultipartBody body boundary backend = some text) :
    (inspectBody c f text contentType).model = none := by
  by_cases hcomp : ∃ ps tail, Complete boundary body ps tail
  · obtain ⟨ps, tail, hcomp⟩ := hcomp
    rw [hcomp.rewrite] at h
    obtain rfl := Option.some.inj h
    obtain ⟨t, ht⟩ := hcomp.head
    obtain ⟨t', ht'⟩ := relaid_head boundary backend ps tail
    have hj : isJsonContentType contentType = true := by
      rw [shouldParseJson, ht, looksLikeJson_of_head (by decide) (by decide), Bool.or_false] at hsp
      exact hsp
    rw [inspectBody_of_json (by simp [ht']) (by simp [shouldParseJson, hj]), ht']
    exact inspectJsonBody_of_not_object (not_object hc (by decide) t')
  · rw [rewrite_of_incomplete (by simpa using hcomp)] at h
    cases h

include hc hf hb in
/-- Where the multipart rewriter is not reached, only the backend's model is forwarded. -/
theorem forwardsModel_of_not_reached
    (hm : (inspectRequest c f body contentType query).model.isSome = true)
    (h : ∀ boundary, ¬ Reaches f body contentType boundary) :
    ForwardsModel c f body contentType query backend path policies extra := by
  intro out hok
  rw [reread_iff hf hb]
  have hq := queryHasModel_of_found hm
  by_cases hne : body = []
  · subst hne
    rw [rewriteNative_nil hok]
    exact Or.inr ⟨rfl, hq rfl⟩
  have hout := rewriteNative_ok hne hok
  by_cases hform : sniffed contentType body = true ∧ sawModel (f.parse body) = true
  · -- a form with a model, unless it is rewritten as JSON
    rw [if_pos hform.1, rewriteUrlencodedRequestBody, if_pos hform.2] at hout
    by_cases hsp : shouldParseJson contentType body = true
    · rw [inspectBody_of_json hne hsp] at hq
      rw [if_pos hsp] at hout
      cases hj : rewriteJsonRequestBody c body backend (decide (endpointKind path = .responses))
          (decide (endpointKind path = .chatCompletions)) policies extra.entries with
      | some text =>
        rw [hj, Option.some_or, Option.some_or, Option.getD_some] at hout
        exact Or.inl (hout ▸ inspectBody_of_rewriteJson hc hb hj)
      | none =>
        rw [hj, Option.none_or, Option.some_or, Option.getD_some] at hout
        rw [hout, inspectBody_form hc hf hb hform.2]
        split_ifs
        · exact Or.inr ⟨rfl, hq (rewriteJson_eq_none hj)⟩
        · exact Or.inl rfl
    · rw [if_neg hsp, Option.none_or, Option.some_or, Option.getD_some] at hout
      rw [shouldParseJson, Bool.or_eq_true, not_or] at hsp
      rw [hout, inspectBody_form hc hf hb hform.2, if_neg hsp.1]
      exact Or.inl rfl
  · have hnf : sniffed contentType body = true → sawModel (f.parse body) = false := by
      simpa using hform
    rw [rewriteUrlencoded_eq_none _ hnf, Option.or_none] at hout
    by_cases hsp : shouldParseJson contentType body = true
    · rw [if_pos hsp] at hout
      cases hj : rewriteJsonRequestBody c body backend (decide (endpointKind path = .responses))
          (decide (endpointKind path = .chatCompletions)) policies extra.entries with
      | some text =>
        rw [hj, Option.some_or, Option.getD_some] at hout
        exact Or.inl (hout ▸ inspectBody_of_rewriteJson hc hb hj)
      | none =>
        have hnone : (inspectBody c f body contentType).model = none := by
          rw [inspectBody_of_json hne hsp]
          exact rewriteJson_eq_none hj
        refine Or.inr ⟨?_, hq hnone⟩
        rw [hj, Option.none_or] at hout
        cases hmp : (contentType.bind multipartBoundary).bind (rewriteMultipartBody body · backend)
          with
        | none =>
          rw [hmp, Option.getD_none] at hout
          rw [hout, hnone]
        | some text =>
          obtain ⟨boundary, -, hr⟩ := Option.bind_eq_some_iff.mp hmp
          rw [hmp, Option.getD_some] at hout
          rw [hout]
          exact inspectBody_multipart_of_json hc hsp hr
    · have hsp' : shouldParseJson contentType body = false := by simpa using hsp
      have hbd : contentType.bind multipartBoundary = none := by
        rw [Option.eq_none_iff_forall_ne_some]
        intro boundary hbd
        exact h boundary ⟨hne, hsp', hnf, hbd⟩
      have hnone : (inspectBody c f body contentType).model = none := by
        rw [inspectBody_of_not_json hne hsp', hbd]
        split_ifs with hs
        · rw [Bool.and_eq_true] at hs
          exact foldl_inspectFormField (hnf hs.1) {}
        · rw [shouldParseJson, Bool.or_eq_false_iff] at hsp'
          exact inspectJsonBody_of_not_object (not_object_of_not_json hc hsp'.2)
      rw [if_neg hsp, hbd, Option.bind_none, Option.none_or, Option.getD_none] at hout
      exact Or.inr ⟨hout ▸ hnone, hq hnone⟩

include hf hb in
/-- An incomplete multipart body is forwarded as it is. -/
theorem forwardsModel_of_incomplete
    (hm : (inspectRequest c f body contentType query).model.isSome = true) {boundary : String}
    (h : Reaches f body contentType boundary)
    (hi : ∀ ps tail, ¬ Complete boundary body ps tail) :
    ForwardsModel c f body contentType query backend path policies extra ↔
      (sniffed contentType body && (inspectUrlencodedBody f body).stream) = true ∨
        (inspectMultipartBody body boundary).model = none ∨
        (inspectMultipartBody body boundary).model = some backend := by
  have hq := queryHasModel_of_found hm
  rw [h.model] at hq
  simp only [ForwardsModel, h.rewrite, rewrite_of_incomplete hi, Option.getD_none, Except.ok.injEq,
    forall_eq', reread_iff hf hb, h.model]
  by_cases hs : (sniffed contentType body && (inspectUrlencodedBody f body).stream) = true
  · rw [if_pos hs] at hq
    simp [hs, hq rfl]
  · rw [if_neg hs] at hq
    rw [if_neg hs]
    constructor
    · rintro (h1 | ⟨h1, -⟩)
      · exact Or.inr (Or.inr h1)
      · exact Or.inr (Or.inl h1)
    · rintro (h1 | h1 | h1)
      · exact absurd h1 hs
      · exact Or.inr ⟨h1, hq h1⟩
      · exact Or.inl h1

include hf hb in
/-- A complete multipart body names the backend's model unless it is taken for a form once
rewritten. -/
theorem forwardsModel_of_complete
    (hm : (inspectRequest c f body contentType query).model.isSome = true) {boundary : String}
    (h : Reaches f body contentType boundary) (hline : '\r' ∉ boundary.toList) {ps : List Bytes}
    {tail : Bytes} (hcomp : Complete boundary body ps tail)
    (hd : ps.any isModelPart = true →
      ¬ asBytes ("\r\n--" ++ boundary) <:+: asBytes ("\r\n" ++ backend)) :
    ForwardsModel c f body contentType query backend path policies extra ↔
      (sniffed contentType (relaid boundary backend ps tail) = true →
        (inspectUrlencodedBody f (relaid boundary backend ps tail)).model = some backend ∨
        (inspectUrlencodedBody f (relaid boundary backend ps tail)).model = none ∧
          ((inspectUrlencodedBody f (relaid boundary backend ps tail)).stream = true →
            queryHasModel f query = true)) := by
  have hq := queryHasModel_of_found hm
  rw [h.model, inspectMultipartBody, hcomp.parts] at hq
  -- what the rewritten parts name
  have hparts : (inspectMultipartBody (relaid boundary backend ps tail) boundary).model =
      if ps.any isModelPart then some backend else none := by
    rw [inspectMultipartBody, hcomp.relaid_parts hline hd, foldl_inspectMultipartPart_rewrite hb]
  have hquery : ps.any isModelPart = false → queryHasModel f query = true := by
    intro hps
    refine hq ?_
    split_ifs
    · rfl
    · exact foldl_inspectMultipartPart hps {}
  obtain ⟨t, ht⟩ := relaid_head boundary backend ps tail
  have hsp : shouldParseJson contentType (relaid boundary backend ps tail) = false := by
    have := h.not_json
    rw [shouldParseJson, Bool.or_eq_false_iff] at this ⊢
    refine ⟨this.1, ?_⟩
    rw [ht]
    exact looksLikeJson_of_head (by decide) (by decide)
  simp only [ForwardsModel, h.rewrite, hcomp.rewrite, Option.getD_some, Except.ok.injEq,
    forall_eq', reread_iff hf hb]
  rw [inspectBody_of_not_json (by simp [ht]) hsp, h.boundary_eq]
  generalize inspectUrlencodedBody f (relaid boundary backend ps tail) = form
  by_cases hs : (sniffed contentType (relaid boundary backend ps tail) &&
      (form.model.isSome || form.stream)) = true
  · -- taken for a form
    rw [if_pos hs]
    rw [Bool.and_eq_true, Bool.or_eq_true] at hs
    constructor
    · rintro (h1 | ⟨h1, h2⟩) -
      · exact Or.inl h1
      · exact Or.inr ⟨h1, fun _ => h2⟩
    · intro h1
      rcases h1 hs.1 with h2 | ⟨h2, h3⟩
      · exact Or.inl h2
      · refine Or.inr ⟨h2, h3 (hs.2.resolve_left ?_)⟩
        simp [h2]
  · rw [if_neg hs]
    simp only [hparts]
    constructor
    · intro _ h1
      rw [h1, Bool.true_and, Bool.or_eq_true, not_or] at hs
      exact Or.inr ⟨by simpa using hs.1, fun h2 => absurd h2 hs.2⟩
    · intro _
      cases hps : ps.any isModelPart with
      | true => exact Or.inl rfl
      | false => exact Or.inr ⟨rfl, hquery hps⟩

end Forwarded

/-! ### The condition -/

/-- Where the multipart rewriter is reached: an incomplete body names no model or the backend's
already; the backend's model brings no delimiter into a complete one, and the rewritten text, if it
is taken for a form, is a form that names the backend's model, or none where one is not needed. -/
structure Settled (f : Form) (body : Bytes) (contentType query : Option String)
    (backend : String) : Prop where
  incomplete : ∀ boundary, Reaches f body contentType boundary →
    (∀ ps tail, ¬ Complete boundary body ps tail) →
      (sniffed contentType body && (inspectUrlencodedBody f body).stream) = true ∨
        (inspectMultipartBody body boundary).model = none ∨
        (inspectMultipartBody body boundary).model = some backend
  undelimited : ∀ boundary ps tail, Reaches f body contentType boundary →
    Complete boundary body ps tail → ps.any isModelPart = true →
      ¬ asBytes ("\r\n--" ++ boundary) <:+: asBytes ("\r\n" ++ backend)
  reread : ∀ boundary ps tail, Reaches f body contentType boundary →
    Complete boundary body ps tail →
      sniffed contentType (relaid boundary backend ps tail) = true →
        (inspectUrlencodedBody f (relaid boundary backend ps tail)).model = some backend ∨
        (inspectUrlencodedBody f (relaid boundary backend ps tail)).model = none ∧
          ((inspectUrlencodedBody f (relaid boundary backend ps tail)).stream = true →
            queryHasModel f query = true)

theorem Reaches.line {f : Form} {body : Bytes} {contentType : Option String} {boundary : String}
    (h : Reaches f body contentType boundary)
    (ht : ∀ t, contentType = some t → '\r' ∉ t.toList) : '\r' ∉ boundary.toList := by
  obtain ⟨t, rfl, hbd⟩ := Option.bind_eq_some_iff.mp h.boundary_eq
  exact fun hm => ht t rfl (mem_multipartBoundary hbd hm)

/-- **The forwarded request names the backend's model and no other if it is `Settled`,** and, for a
model name that cannot bring a delimiter in, only then. -/
theorem forwarded_model_iff {c : Codec} {f : Form} (hc : c.Lawful) (hf : f.Lawful) {body : Bytes}
    {contentType query : Option String} {backend : String} (hb : ModelName backend)
    (ht : ∀ t, contentType = some t → '\r' ∉ t.toList)
    (hm : (inspectRequest c f body contentType query).model.isSome = true) (path : String)
    (policies : RequestRewritePolicies) (extra : ExtraBody) :
    (Settled f body contentType query backend →
        ForwardsModel c f body contentType query backend path policies extra) ∧
      ((∀ boundary, contentType.bind multipartBoundary = some boundary →
          ¬ asBytes ("\r\n--" ++ boundary) <:+: asBytes ("\r\n" ++ backend)) →
        ForwardsModel c f body contentType query backend path policies extra →
        Settled f body contentType query backend) := by
  constructor
  · intro h
    by_cases hr : ∃ boundary, Reaches f body contentType boundary
    · obtain ⟨boundary, hr⟩ := hr
      by_cases hcomp : ∃ ps tail, Complete boundary body ps tail
      · obtain ⟨ps, tail, hcomp⟩ := hcomp
        exact (forwardsModel_of_complete hf hb hm hr (hr.line ht) hcomp
          (h.undelimited boundary ps tail hr hcomp)).mpr (h.reread boundary ps tail hr hcomp)
      · have hi : ∀ ps tail, ¬ Complete boundary body ps tail := by simpa using hcomp
        exact (forwardsModel_of_incomplete hf hb hm hr hi).mpr (h.incomplete boundary hr hi)
    · exact forwardsModel_of_not_reached hc hf hb hm (by simpa using hr)
  · intro hd h
    refine ⟨fun boundary hr hi => ?_, fun boundary ps tail hr _ _ => hd boundary hr.boundary_eq,
      fun boundary ps tail hr hcomp => ?_⟩
    · exact (forwardsModel_of_incomplete hf hb hm hr hi).mp h
    · exact (forwardsModel_of_complete hf hb hm hr (hr.line ht) hcomp
        fun _ => hd boundary hr.boundary_eq).mp h

/-! ### Two uploads -/

theorem MultipartForm.complete (w : MultipartForm) (h : w.parts ≠ []) :
    Complete w.boundary w.bytes (w.parts.map Part.bytes) w.tail := by
  obtain ⟨p, ps, hps⟩ := List.exists_cons_of_ne_nil h
  have hcl := w.clear
  rw [hps, List.map_cons] at hcl
  obtain ⟨rest, hr, hs⟩ := scan_layParts w.tail hcl
  refine ⟨rest, ?_, ?_⟩
  · rw [MultipartForm.bytes, lay, hps, List.map_cons, hr]
    rfl
  · rw [hps, List.map_cons]
    exact hs

/-- No extra fields. -/
def ExtraBody.none : ExtraBody := ⟨[], by simp⟩

theorem multipartBoundary_xyz :
    (some "multipart/form-data; boundary=xyz").bind multipartBoundary = some "xyz" := by
  decide +kernel

theorem complete_upload : Complete "xyz" upload.bytes (upload.parts.map Part.bytes) upload.tail :=
  upload.complete (by simp [upload])

/-- The upload is no JSON, and read as a form it has neither a model nor a flag. -/
theorem read_upload : upload.bytes ≠ [] ∧
    shouldParseJson (some "multipart/form-data; boundary=xyz") upload.bytes = false ∧
    sawModel (Form.reference.parse upload.bytes) = false ∧
    (inspectUrlencodedBody Form.reference upload.bytes).stream = false := by
  simp only [MultipartForm.bytes, upload, modelField, plainFile, asBytes_eq_data]
  decide +kernel

theorem reaches_upload : Reaches Form.reference upload.bytes
    (some "multipart/form-data; boundary=xyz") "xyz" := by
  obtain ⟨hne, hjson, hmodel, -⟩ := read_upload
  exact ⟨hne, hjson, fun _ => hmodel, multipartBoundary_xyz⟩

theorem model_upload : (inspectRequest reference Form.reference upload.bytes
    (some "multipart/form-data; boundary=xyz") none).model.isSome = true := by
  have hparts : (inspectMultipartBody upload.bytes "xyz").model = some "whisper" := by
    rw [inspectMultipartBody, complete_upload.parts]
    simp only [upload, modelField, plainFile, asBytes_eq_data, List.map_cons, List.foldl_cons,
      inspectMultipartPart, multipartFieldIs_eq_chars]
    decide +kernel
  have hmodel := reaches_upload.model (c := reference)
  rw [read_upload.2.2.2, Bool.and_false, if_neg Bool.false_ne_true, hparts] at hmodel
  rw [inspectRequest, hmodel]
  rfl

/-- Rewritten, the upload names no model when it is read as a form. -/
theorem model_relaid_upload : ∀ relaidUpload,
    relaidUpload = relaid "xyz" "backend" (upload.parts.map Part.bytes) upload.tail →
      (inspectUrlencodedBody Form.reference relaidUpload).model = none ∧
        (inspectUrlencodedBody Form.reference relaidUpload).stream = false := by
  rintro _ rfl
  simp only [relaid, rewriteMultipartPart, upload, modelField, plainFile, asBytes_eq_data,
    List.map_cons, List.map_nil, multipartFieldIs_eq_chars]
  decide +kernel

/-- A complete upload names the backend's model. -/
theorem forwarded_model_upload :
    Settled Form.reference upload.bytes (some "multipart/form-data; boundary=xyz") none "backend" ∧
      ForwardsModel reference Form.reference upload.bytes
        (some "multipart/form-data; boundary=xyz") none "backend" "/v1/audio/transcriptions" {}
        .none := by
  have hbd : ∀ boundary, Reaches Form.reference upload.bytes
      (some "multipart/form-data; boundary=xyz") boundary → boundary = "xyz" := by
    intro boundary hr
    have h2 := hr.boundary_eq
    rw [multipartBoundary_xyz] at h2
    exact (Option.some.inj h2).symm
  have hs : Settled Form.reference upload.bytes (some "multipart/form-data; boundary=xyz") none
      "backend" := by
    refine ⟨fun boundary hr hi => ?_, fun boundary ps tail hr _ _ => ?_,
      fun boundary ps tail hr hcomp _ => ?_⟩
    · obtain rfl := hbd boundary hr
      exact absurd complete_upload (hi _ _)
    · obtain rfl := hbd boundary hr
      decide +kernel
    · obtain rfl := hbd boundary hr
      have hrelaid := hcomp.rewrite "backend"
      rw [complete_upload.rewrite, Option.some_inj] at hrelaid
      obtain ⟨hmodel, hstream⟩ := model_relaid_upload _ hrelaid.symm
      exact Or.inr ⟨hmodel, fun h => absurd (hstream.symm.trans h) Bool.false_ne_true⟩
  refine ⟨hs, (forwarded_model_iff reference_lawful Form.reference_lawful ⟨by decide, by decide⟩ ?_
    model_upload "/v1/audio/transcriptions" {} .none).1 hs⟩
  rintro t ⟨⟩
  decide

/-- An upload that stops before its closing delimiter. -/
def cutUpload : Bytes :=
  asBytes "--xyz\r\nContent-Disposition: form-data; name=\"model\"\r\n\r\nwhisper\r\n--xyz\r\n"

/-- Its bytes, as they are evaluated. -/
theorem cutUpload_eq : cutUpload = (String.toByteArray
    "--xyz\r\nContent-Disposition: form-data; name=\"model\"\r\n\r\nwhisper\r\n--xyz\r\n"
    ).data.toList :=
  asBytes_eq_data _

/-- The cut upload is no JSON and no form; the multipart scanner finds its model, the rewriter
gives up. -/
theorem read_cutUpload : cutUpload ≠ [] ∧
    shouldParseJson (some "multipart/form-data; boundary=xyz") cutUpload = false ∧
    sawModel (Form.reference.parse cutUpload) = false ∧
    (inspectUrlencodedBody Form.reference cutUpload).stream = false ∧
    (inspectMultipartBody cutUpload "xyz").model = some "whisper" ∧
    rewriteMultipartBody cutUpload "xyz" "backend" = none := by
  rw [cutUpload_eq]
  decide +kernel

theorem reaches_cutUpload : Reaches Form.reference cutUpload
    (some "multipart/form-data; boundary=xyz") "xyz" := by
  obtain ⟨hne, hjson, hmodel, -⟩ := read_cutUpload
  exact ⟨hne, hjson, fun _ => hmodel, multipartBoundary_xyz⟩

theorem model_cutUpload : (inspectRequest reference Form.reference cutUpload
    (some "multipart/form-data; boundary=xyz") none).model = some "whisper" := by
  obtain ⟨-, -, -, hform, hparts, -⟩ := read_cutUpload
  have hmodel := reaches_cutUpload.model (c := reference)
  rw [hform, Bool.and_false, if_neg Bool.false_ne_true, hparts] at hmodel
  rw [inspectRequest, hmodel]
  rfl

/-- An upload that stops before its closing delimiter is admitted for the client's model and
forwarded with it. -/
theorem forwarded_model_cut_upload :
    (inspectRequest reference Form.reference cutUpload (some "multipart/form-data; boundary=xyz")
        none).model = some "whisper" ∧
      ModelName "backend" ∧
      ¬ ForwardsModel reference Form.reference cutUpload
        (some "multipart/form-data; boundary=xyz") none "backend" "/v1/audio/transcriptions" {}
        .none := by
  refine ⟨model_cutUpload, ⟨by decide, by decide⟩, fun h => ?_⟩
  obtain ⟨-, -, -, -, -, hcut⟩ := read_cutUpload
  have hsent := h cutUpload (by rw [reaches_cutUpload.rewrite, hcut, Option.getD_none])
  rw [show rewriteQueryModel Form.reference none (some "backend") = none from rfl,
    model_cutUpload] at hsent
  exact absurd hsent (by decide)

end Onair
