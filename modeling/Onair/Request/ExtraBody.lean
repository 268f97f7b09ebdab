import Onair.Request.Modes
import Onair.Request.Reread

/-!
# The extra fields of a route

A route may set fields of the bodies that are forwarded, but for the fields that are protected.

* `get_applyExtraBody`: what becomes of a field;
* `Overlaid`: what should become of every field;
* `SetsExtra`, `Redundant`: the extra fields are set, or make no difference;
* **`extraBody_iff`**: every field is what it should be, if and only if one of these is so.
-/

namespace Onair

open Json Text Fallible

/-! ### Setting fields -/

/-- The value that a route sets a field to. -/
def extraValue (extraBody : List (String × Toml)) (k : String) : Option Value :=
  if protectedUpstreamKeys.elem k then none
  else (OrdMap.get k extraBody).map tomlValueToJsonValue

/-- **What should be forwarded**: every field is as the route sets it, or else as it is without
extra fields. -/
def Overlaid (extraBody : List (String × Toml)) (base out : List (String × Value)) : Prop :=
  ∀ k, OrdMap.get k out = (extraValue extraBody k).or (OrdMap.get k base)

/-- **What becomes of a field.** -/
theorem overlaid_applyExtraBody {extraBody : List (String × Toml)} (h : OrdMap.Sorted extraBody)
    (object : List (String × Value)) :
    Overlaid extraBody object (applyExtraBody object extraBody) := by
  intro k
  unfold applyExtraBody
  induction extraBody generalizing object with
  | nil => simp [extraValue]
  | cons e extraBody ih =>
    have hsorted := List.pairwise_cons.mp h
    have hrest : OrdMap.get e.1 extraBody = none :=
      OrdMap.get_eq_none_iff.mpr fun e' he' => (hsorted.1 e' he').ne'
    rw [List.foldl_cons, ih hsorted.2]
    obtain ⟨k', v⟩ := e
    unfold extraValue
    by_cases hprotected : protectedUpstreamKeys.elem k' = true
    · rw [if_pos hprotected, OrdMap.get_cons]
      split_ifs with hk heq
      · rfl
      · exact absurd (heq ▸ hprotected) hk
      · rfl
    · rw [if_neg hprotected, OrdMap.get_cons, OrdMap.get_insert]
      by_cases heq : k = k'
      · rw [if_pos heq, if_pos heq, heq, if_neg hprotected, if_neg hprotected, hrest]
        rfl
      · rw [if_neg heq, if_neg heq]

/-! ### Bodies whose extra fields are set -/

/-- The mode is a conversion, or the body has a model and the route has one to put in its place. -/
def SetsExtra (args : RewriteArgs) (object : List (String × Value)) : Prop :=
  match args.requestMode with
  | .anthropicMessagesNative => False
  | .native => args.backendModel.isSome = true ∧ (OrdMap.get "model" object).isSome = true
  | _ => True

/-- The extra fields are in the body already. -/
def Redundant (extraBody : List (String × Toml)) (object : List (String × Value)) : Prop :=
  ∀ k v, extraValue extraBody k = some v → OrdMap.get k object = some v

/-- The body has a content type by which it is a form, and as a form it has a model. -/
def SentAsForm (f : Form) (args : RewriteArgs) : Prop :=
  args.requestMode = .native ∧ args.backendModel.isSome = true ∧
    isUrlencodedContentType args.contentType = true ∧ sawModel (f.parse args.body) = true

/-- **The extra fields of the route are set**, and nothing else is changed by them. -/
def ExtraBodyApplied (c : Codec) (f : Form) (args : RewriteArgs) : Prop :=
  ∃ base out m m', forwardedBody c f { args with extraBody := [] } = .ok base ∧
    forwardedBody c f args = .ok out ∧ base.json c = some m ∧ out.json c = some m' ∧
    Overlaid args.extraBody m m'

section

variable {c : Codec} {f : Form} {args : RewriteArgs} {m : List (String × Value)}

theorem shouldParseJson_of_object (hc : c.Lawful) (h : c.fromSlice args.body = some (.object m)) :
    shouldParseJson args.contentType args.body = true := by
  rw [shouldParseJson, looksLikeJson_of_find (Or.inl rfl) (hc.object_head _ _ h), Bool.or_true]

theorem rewriteMultipartBody_of_object (hc : c.Lawful)
    (h : c.fromSlice args.body = some (.object m)) (boundary backend : String) :
    rewriteMultipartBody args.body boundary backend = none := by
  refine (scanners_other rfl ?_).2 backend
  rintro ⟨rest, hrest⟩
  have hdash : asBytes ("--" ++ boundary) = 45 :: (45 :: asBytes boundary) := by
    rw [asBytes_append]
    rfl
  rw [hdash, List.cons_append, List.cons_append] at hrest
  have hnone := not_object hc (b := 45) (by decide) (45 :: asBytes boundary ++ crlf ++ rest)
  rw [hrest, h] at hnone
  exact nomatch hnone

theorem looksLikeUrlencoded_of_object (hc : c.Lawful)
    (h : c.fromSlice args.body = some (.object m)) : looksLikeUrlencoded args.body = false := by
  unfold looksLikeUrlencoded
  cases hs : fromUtf8 args.body with
  | none => rfl
  | some s =>
    have hmem : (123 : UInt8) ∈ asBytes s := by
      rw [← fromUtf8_eq_some.mp hs]
      exact List.mem_of_find?_eq_some (hc.object_head _ _ h)
    have hbrace : '\x7b' ∈ s.toList := mem_asBytes hmem (by decide)
    simp [hbrace]

theorem nativeObject_eq (hc : c.Lawful) (hbody : c.fromSlice args.body = some (.object m)) :
    nativeObject c args = if (OrdMap.get "model" m).isSome then some m else none := by
  rw [nativeObject, if_pos (shouldParseJson_of_object hc hbody), hbody]
  rfl

theorem isEmpty_of_object (hc : c.Lawful) (hbody : c.fromSlice args.body = some (.object m)) :
    args.body.isEmpty = false := by
  have hhead := hc.object_head _ _ hbody
  cases hb : args.body with
  | nil =>
    rw [hb] at hhead
    exact nomatch hhead
  | cons b t => rfl

theorem rewriteJsonObject_extraBody (m : List (String × Value)) (backendModel : String)
    (responses chat : Bool) (policies : RequestRewritePolicies)
    (extraBody : List (String × Toml)) :
    rewriteJsonObject m backendModel responses chat policies extraBody =
      applyExtraBody (rewriteJsonObject m backendModel responses chat policies []) extraBody := by
  unfold rewriteJsonObject
  rfl

/-- A body with a model that is replaced is sent as JSON. -/
theorem nativeBody_of_model (args : RewriteArgs) (hc : c.Lawful)
    (hbody : c.fromSlice args.body = some (.object m)) {backendModel : String}
    (hbackend : args.backendModel = some backendModel)
    (hmodel : (OrdMap.get "model" m).isSome = true) :
    nativeBody c f args = .object (rewriteJsonObject m backendModel
      (decide (endpointKind args.upstreamPath = .responses))
      (decide (endpointKind args.upstreamPath = .chatCompletions)) args.policies.native
      args.extraBody) := by
  have hnative : nativeObject c args = some m := by
    rw [nativeObject_eq hc hbody, if_pos hmodel]
  simp only [nativeBody, hbackend, isEmpty_of_object hc hbody, hnative, Bool.false_eq_true,
    if_false]

/-- A body without a model that is replaced is sent as a form, or as it is. -/
theorem nativeBody_of_no_model (args : RewriteArgs) (hc : c.Lawful)
    (hbody : c.fromSlice args.body = some (.object m)) {backendModel : String}
    (hbackend : args.backendModel = some backendModel)
    (hmodel : (OrdMap.get "model" m).isSome = false) :
    nativeBody c f args = .bytes
      ((if isUrlencodedContentType args.contentType = true then
        rewriteUrlencodedRequestBody f args.body backendModel else none).getD args.body) := by
  have hnative : nativeObject c args = none := by
    rw [nativeObject_eq hc hbody, if_neg (by simp [hmodel])]
  have hmultipart : ((args.contentType.bind multipartBoundary).bind fun boundary =>
      rewriteMultipartBody args.body boundary backendModel) = none :=
    Option.bind_eq_none_iff.mpr fun boundary _ =>
      rewriteMultipartBody_of_object hc hbody boundary backendModel
  simp only [nativeBody, hbackend, isEmpty_of_object hc hbody, hnative, hmultipart,
    looksLikeUrlencoded_of_object hc hbody, Bool.or_false, Option.or_none, Bool.false_eq_true,
    if_false]

/-- What is forwarded depends on the extra fields only where they are set. -/
theorem forwardedBody_setsExtra (hc : c.Lawful) (hbody : c.fromSlice args.body = some (.object m))
    {out : ForwardedBody} (h : forwardedBody c f args = .ok out) (hsets : SetsExtra args m) :
    ∃ base, ∀ extraBody, forwardedBody c f { args with extraBody } =
      .ok (.object (applyExtraBody base extraBody)) := by
  obtain ⟨hvalid, h⟩ := forwardedBody_eq_ok.mp h
  unfold SetsExtra at hsets
  simp only [forwardedBody_eq_ok]
  cases hmode : args.requestMode with
  | anthropicMessagesNative =>
    rw [hmode] at hsets
    exact hsets.elim
  | native =>
    rw [hmode] at hsets
    obtain ⟨backendModel, hbackend⟩ := Option.isSome_iff_exists.mp hsets.1
    refine ⟨rewriteJsonObject m backendModel
      (decide (endpointKind args.upstreamPath = .responses))
      (decide (endpointKind args.upstreamPath = .chatCompletions)) args.policies.native [],
      fun extraBody => ⟨hvalid, ?_⟩⟩
    exact (nativeBody_of_model { args with extraBody } hc hbody hbackend hsets.2).trans
      (congrArg ForwardedBody.object (rewriteJsonObject_extraBody _ _ _ _ _ extraBody))
  | responsesViaChatCompletions | chatCompletionsViaResponses | chatCompletionsViaMessages =>
    rw [hmode] at h
    obtain ⟨object, hobject, base, hbase, -⟩ := h
    exact ⟨base, fun extraBody => ⟨hvalid, object, hobject, base, hbase, rfl⟩⟩

theorem get_anthropicMessagesFields {backendModel : Option String} {anthropicMaxTokens : Option ℕ}
    {fields : List (String × Value)}
    (h : anthropicMessagesFields m backendModel anthropicMaxTokens = .ok fields) {k : String}
    (hk : protectedUpstreamKeys.elem k = false) : OrdMap.get k fields = OrdMap.get k m := by
  have hmodel : k ≠ "model" := by
    rintro rfl
    exact absurd hk (by decide)
  have htokens : k ≠ "max_tokens" := by
    rintro rfl
    exact absurd hk (by decide)
  obtain ⟨m', hget, h⟩ : ∃ m', OrdMap.get k m' = OrdMap.get k m ∧
      anthropicMessagesFields m' none anthropicMaxTokens = .ok fields := by
    cases backendModel with
    | none => exact ⟨m, rfl, h⟩
    | some model =>
      exact ⟨OrdMap.insert "model" (.string model) m, OrdMap.get_insert_ne hmodel _ _, h⟩
  rw [← hget]
  unfold anthropicMessagesFields at h
  dsimp only at h
  split at h
  · obtain rfl := Except.ok.inj h
    rfl
  · obtain rfl := Except.ok.inj h
    exact OrdMap.get_insert_ne htokens _ _
  · exact nomatch h

/-- Elsewhere it does not depend on them. -/
theorem forwardedBody_not_setsExtra (hc : c.Lawful) (hf : f.Lawful)
    (hbody : c.fromSlice args.body = some (.object m)) {out : ForwardedBody}
    (h : forwardedBody c f args = .ok out) (hsets : ¬SetsExtra args m) :
    (∀ extraBody, forwardedBody c f { args with extraBody } = .ok out) ∧
      (SentAsForm f args → out.json c = none) ∧
      (¬SentAsForm f args → ∃ m', out.json c = some m' ∧
        ∀ k, protectedUpstreamKeys.elem k = false → OrdMap.get k m' = OrdMap.get k m) := by
  obtain ⟨hvalid, h⟩ := forwardedBody_eq_ok.mp h
  unfold SetsExtra at hsets
  simp only [forwardedBody_eq_ok]
  cases hmode : args.requestMode with
  | anthropicMessagesNative =>
    rw [hmode] at h
    obtain ⟨object, hobject, fields, hfields, rfl⟩ := h
    have heq : object = m := by
      have hread := readMessagesObject_eq_ok hobject
      rw [hbody] at hread
      exact (Value.object.inj (Option.some.inj hread)).symm
    refine ⟨fun extraBody => ⟨hvalid, object, hobject, fields, hfields, rfl⟩,
      fun hform => (nomatch hmode.symm.trans hform.1), fun _ => ⟨fields, rfl, fun k hk => ?_⟩⟩
    rw [get_anthropicMessagesFields hfields hk, heq]
  | native =>
    rw [hmode] at h hsets
    have hsame : (ForwardedBody.bytes args.body).json c = some m := by
      rw [ForwardedBody.json, hbody]
      rfl
    obtain hbackend | ⟨backendModel, hbackend⟩ := Option.eq_none_or_eq_some args.backendModel
    · have hout : out = .bytes args.body := by
        rw [← h, nativeBody, hbackend]
      refine ⟨fun extraBody => ⟨hvalid, ?_⟩, fun hform => ?_, fun _ => ⟨m, ?_, fun k _ => rfl⟩⟩
      · simp only [hout, nativeBody, hbackend]
      · rw [SentAsForm, hbackend] at hform
        exact nomatch hform.2.1
      · rw [hout, hsame]
    · have hmodel : (OrdMap.get "model" m).isSome = false := by
        simpa [hbackend] using hsets
      have hout := nativeBody_of_no_model (f := f) args hc hbody hbackend hmodel
      refine ⟨fun extraBody => ⟨hvalid, ?_⟩, fun hform => ?_, fun hnot => ⟨m, ?_, fun k _ => rfl⟩⟩
      · rw [← h, hout]
        exact nativeBody_of_no_model { args with extraBody } hc hbody hbackend hmodel
      · have hfields : rewriteFormFields backendModel (f.parse args.body) ≠ [] := by
          intro hnil
          rw [rewriteFormFields, List.map_eq_nil_iff] at hnil
          exact absurd hform.2.2.2 (by simp [hnil, sawModel])
        rw [← h, hout, if_pos hform.2.2.1, rewriteUrlencodedRequestBody,
          if_pos hform.2.2.2]
        exact serialize_not_object hc hf hfields
      · rw [← h, hout]
        by_cases htype : isUrlencodedContentType args.contentType = true
        · rw [if_pos htype, rewriteUrlencodedRequestBody, if_neg, Option.getD_none, hsame]
          exact fun hsaw => hnot ⟨hmode, by rw [hbackend]; rfl, htype, hsaw⟩
        · rw [if_neg htype, Option.getD_none, hsame]
  | responsesViaChatCompletions | chatCompletionsViaResponses | chatCompletionsViaMessages =>
    rw [hmode] at hsets
    exact absurd trivial hsets

end

theorem overlaid_self_iff {extraBody : List (String × Toml)} {m m' : List (String × Value)}
    (h : ∀ k, protectedUpstreamKeys.elem k = false → OrdMap.get k m' = OrdMap.get k m) :
    Overlaid extraBody m' m' ↔ Redundant extraBody m := by
  have hkey : ∀ {k v}, extraValue extraBody k = some v → OrdMap.get k m' = OrdMap.get k m := by
    intro k v hv
    refine h k (Bool.eq_false_iff.mpr fun hprotected => ?_)
    rw [extraValue, if_pos hprotected] at hv
    exact nomatch hv
  constructor
  · intro hover k v hv
    rw [← hkey hv, hover k, hv, Option.some_or]
  · intro hred k
    cases hv : extraValue extraBody k with
    | none => rw [Option.none_or]
    | some v => rw [Option.some_or, hkey hv, hred k v hv]

/-- Where the extra fields are not set, they have to be there. -/
theorem extraBodyApplied_iff_redundant {c : Codec} (hc : c.Lawful) {f : Form} (hf : f.Lawful)
    {args : RewriteArgs} {object : List (String × Value)}
    (hbody : c.fromSlice args.body = some (.object object)) {out : ForwardedBody}
    (hout : forwardedBody c f args = .ok out) (hsets : ¬SetsExtra args object) :
    ExtraBodyApplied c f args ↔ Redundant args.extraBody object ∧ ¬SentAsForm f args := by
  obtain ⟨hall, hform, hjson⟩ := forwardedBody_not_setsExtra hc hf hbody hout hsets
  constructor
  · rintro ⟨base, out', m, m', hbase, hout', hm, hm', hover⟩
    obtain rfl := Except.ok.inj ((hall []).symm.trans hbase)
    obtain rfl := Except.ok.inj (hout.symm.trans hout')
    have hnot : ¬SentAsForm f args := fun h => nomatch (hform h).symm.trans hm
    obtain ⟨m₁, hm₁, hkeys⟩ := hjson hnot
    obtain rfl := Option.some.inj (hm₁.symm.trans hm)
    obtain rfl := Option.some.inj (hm₁.symm.trans hm')
    exact ⟨(overlaid_self_iff hkeys).mp hover, hnot⟩
  · rintro ⟨hred, hnot⟩
    obtain ⟨m', hm', hkeys⟩ := hjson hnot
    exact ⟨out, out, m', m', hall [], hout, hm', hm', (overlaid_self_iff hkeys).mpr hred⟩

theorem forwardedBody_of_accepted {c : Codec} {f : Form} {args : RewriteArgs} {bytes : Bytes}
    (h : rewriteRequestBodyForModeWithPolicies c f args = .ok bytes) :
    ∃ out, forwardedBody c f args = .ok out ∧ out.text c = bytes := by
  rw [rewriteRequestBody_eq] at h
  cases hout : forwardedBody c f args with
  | ok out =>
    rw [hout] at h
    exact ⟨out, rfl, Except.ok.inj h⟩
  | error e =>
    rw [hout] at h
    exact nomatch h

/-- **The extra fields of a route are set, if and only if** the request is converted, or is
forwarded as it came with a model that is replaced, or the extra fields are in the body already. -/
theorem extraBody_iff {c : Codec} (hc : c.Lawful) {f : Form} (hf : f.Lawful) (args : RewriteArgs)
    (hsorted : OrdMap.Sorted args.extraBody) {object : List (String × Value)}
    (hbody : c.fromSlice args.body = some (.object object)) {bytes : Bytes}
    (haccepted : rewriteRequestBodyForModeWithPolicies c f args = .ok bytes) :
    ExtraBodyApplied c f args ↔
      SetsExtra args object ∨ Redundant args.extraBody object ∧ ¬SentAsForm f args := by
  obtain ⟨out, hout, -⟩ := forwardedBody_of_accepted haccepted
  by_cases hsets : SetsExtra args object
  · obtain ⟨base, hall⟩ := forwardedBody_setsExtra hc hbody hout hsets
    exact iff_of_true ⟨_, _, _, _, hall [], hall args.extraBody, rfl, rfl,
      overlaid_applyExtraBody hsorted base⟩ (Or.inl hsets)
  · rw [or_iff_right hsets]
    exact extraBodyApplied_iff_redundant hc hf hbody hout hsets

/-- A request with a model, for a route that switches something on. -/
def sampleArgs (mode : RequestMode) (path : String) : RewriteArgs where
  body := asBytes "\x7b\"max_tokens\":9,\"messages\":[],\"model\":\"public\"\x7d"
  contentType := some "application/json"
  backendModel := some "backend"
  upstreamPath := path
  requestMode := mode
  policies := {}
  anthropicMaxTokens := none
  extraBody := [("model", .string "other"), ("reasoning_split", .boolean true)]
  routeLabel := "public"

/-- The fields of the sample. -/
def sampleFields : List (String × Value) :=
  [("max_tokens", .u64 9), ("messages", .array []), ("model", .string "public")]

theorem fromSlice_sampleArgs (mode : RequestMode) (path : String) :
    reference.fromSlice (sampleArgs mode path).body = some (.object sampleFields) := by
  have hbody : (sampleArgs mode path).body = (sampleArgs .native "").body := rfl
  rw [hbody]
  decide +kernel

/-- The extra fields of a converted request are set. -/
theorem extraBody_iff_sample : ExtraBodyApplied reference Form.reference
    (sampleArgs .chatCompletionsViaMessages "/v1/chat/completions") := by
  obtain ⟨bytes, haccepted⟩ := Fallible.exists_ok_of_isOk
    (x := rewriteRequestBodyForModeWithPolicies reference Form.reference
      (sampleArgs .chatCompletionsViaMessages "/v1/chat/completions")) (by decide +kernel)
  have hsorted : OrdMap.Sorted
      (sampleArgs .chatCompletionsViaMessages "/v1/chat/completions").extraBody := by
    unfold OrdMap.Sorted
    decide +kernel
  exact (extraBody_iff reference_lawful Form.reference_lawful _ hsorted
    (fromSlice_sampleArgs _ _) haccepted).mpr (Or.inl trivial)

/-- The extra fields of a request for a message are not set. -/
theorem not_extraBodyApplied_sample :
    (∃ bytes, rewriteRequestBodyForModeWithPolicies reference Form.reference
      (sampleArgs .anthropicMessagesNative "/v1/messages") = .ok bytes) ∧
    ¬ExtraBodyApplied reference Form.reference
      (sampleArgs .anthropicMessagesNative "/v1/messages") := by
  have haccepted := Fallible.exists_ok_of_isOk
    (x := rewriteRequestBodyForModeWithPolicies reference Form.reference
      (sampleArgs .anthropicMessagesNative "/v1/messages")) (by decide +kernel)
  refine ⟨haccepted, fun h => ?_⟩
  obtain ⟨bytes, hbytes⟩ := haccepted
  obtain ⟨out, hout, -⟩ := forwardedBody_of_accepted hbytes
  have hred := ((extraBodyApplied_iff_redundant reference_lawful Form.reference_lawful
    (fromSlice_sampleArgs _ _) hout id).mp h).1
  have hfield := hred "reasoning_split" (.bool true) (by decide +kernel)
  revert hfield
  decide +kernel

end Onair
