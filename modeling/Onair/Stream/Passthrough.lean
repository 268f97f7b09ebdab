import Mathlib.Data.List.ReduceOption
import Onair.Core.Hidden
import Onair.Responses.Usage
import Onair.Stream.DataLines

/-!
# What a pass-through stream leaves as it is

In the two modes that convert nothing, the stream of the backend is sent on line by line.

* `Passthrough`: the normalizer of a pass-through mode, with what it may change;
* `Kept`: a value in which only model names and totals of usage objects have changed;
* `LineKept`: what becomes of a line;
* `handleFrame_kept`: one line at a time;
* **`passthrough_lines`**: the lines that are sent are those of the backend, one by one and in
  order, but for hidden usage chunks.
-/

namespace Onair

open Json Text Lines

/-! ### Values -/

/-- A pass-through mode: the native one, or that for Anthropic messages. -/
structure Passthrough where
  native : Bool
  backendModel : Option String
  publicModel : Option String
  emitUsageToClient : Bool

namespace Passthrough

/-- The mode of the requests. -/
def mode (p : Passthrough) : RequestMode :=
  if p.native then .native else .anthropicMessagesNative

/-- The usage of this value is hidden from the client. -/
def Hides (p : Passthrough) (value : Value) : Prop :=
  p.native = true ∧ p.emitUsageToClient = false ∧ usageObjects value ≠ []

end Passthrough

mutual
/-- **A value that is kept**, but for model names and totals of usage objects. -/
inductive Kept (p : Passthrough) : Value → Value → Prop
  | same (value : Value) : Kept p value value
  | array {vs ws : List Value} (h : KeptList p vs ws) : Kept p (.array vs) (.array ws)
  | object {m m' : List (String × Value)} (h : KeptFields p m m') : Kept p (.object m) (.object m')
/-- Elements that are kept, one by one. -/
inductive KeptList (p : Passthrough) : List Value → List Value → Prop
  | nil : KeptList p [] []
  | cons {v w : Value} {vs ws : List Value} (h : Kept p v w) (hs : KeptList p vs ws) :
      KeptList p (v :: vs) (w :: ws)
/-- Fields that are kept, one by one. -/
inductive KeptFields (p : Passthrough) :
    List (String × Value) → List (String × Value) → Prop
  | nil : KeptFields p [] []
  | cons {e e' : String × Value} {m m' : List (String × Value)} (h : KeptField p e e')
      (hs : KeptFields p m m') : KeptFields p (e :: m) (e' :: m')
/-- A field that is kept: the name of the backend's model may become the public one, and in the
native mode a usage object without a total may get one. -/
inductive KeptField (p : Passthrough) : String × Value → String × Value → Prop
  | keep {k : String} {v w : Value} (h : Kept p v w) : KeptField p (k, v) (k, w)
  | model {backend pub : String} (hbackend : p.backendModel = some backend)
      (hpublic : p.publicModel = some pub) :
      KeptField p ("model", .string backend) ("model", .string pub)
  | total {usage usage' : List (String × Value)} {total : UInt64} (hnative : p.native = true)
      (h : Kept p (.object usage) (.object usage'))
      (hmissing : (OrdMap.get "total_tokens" usage).bind Value.asU64 = none) :
      KeptField p ("usage", .object usage)
        ("usage", .object (OrdMap.insert "total_tokens" (.u64 total) usage'))
end

section

variable {p : Passthrough}

theorem keptList_map {vs : List Value} {f : Value → Value} (h : ∀ v ∈ vs, Kept p v (f v)) :
    KeptList p vs (vs.map f) := by
  induction vs with
  | nil => exact .nil
  | cons v vs ih =>
    rw [List.forall_mem_cons] at h
    exact .cons h.1 (ih h.2)

theorem keptFields_map {m : List (String × Value)} {f : String × Value → String × Value}
    (h : ∀ e ∈ m, KeptField p e (f e)) : KeptFields p m (m.map f) := by
  induction m with
  | nil => exact .nil
  | cons e m ih =>
    rw [List.forall_mem_cons] at h
    exact .cons h.1 (ih h.2)

theorem Kept.asU64 {v w : Value} (h : Kept p v w) : v.asU64 = w.asU64 := by
  cases h with
  | same => rfl
  | array => rfl
  | object => rfl

theorem KeptFields.numberField {m m' : List (String × Value)} (h : KeptFields p m m')
    (k : String) : numberField m k = numberField m' k := by
  unfold Onair.numberField
  induction m generalizing m' with
  | nil =>
    cases h
    rfl
  | cons e m ih =>
    cases h with
    | cons he hs =>
      have hrest := ih hs
      cases he with
      | keep hv =>
        rw [OrdMap.get_cons, OrdMap.get_cons]
        split_ifs
        · rw [Option.bind_some, Option.bind_some, hv.asU64]
        · exact hrest
      | model =>
        rw [OrdMap.get_cons, OrdMap.get_cons]
        split_ifs
        · rfl
        · exact hrest
      | total =>
        rw [OrdMap.get_cons, OrdMap.get_cons]
        split_ifs
        · rfl
        · exact hrest

/-! ### The native mode -/

theorem ensureUsageObjectTotalTokens_cases (usage : List (String × Value)) :
    ensureUsageObjectTotalTokens usage = usage ∨
      numberField usage "total_tokens" = none ∧ ∃ total, ensureUsageObjectTotalTokens usage =
        OrdMap.insert "total_tokens" (.u64 total) usage := by
  unfold ensureUsageObjectTotalTokens
  split_ifs with htotal
  · exact Or.inl rfl
  · have hmissing : numberField usage "total_tokens" = none := by simpa using htotal
    dsimp only
    split
    · split_ifs
      · exact Or.inr ⟨hmissing, _, rfl⟩
      · exact Or.inl rfl
    · exact Or.inl rfl

theorem keptField_ensure (hnative : p.native = true) {k : String} {v w : Value}
    (h : Kept p v (ensureUsageTotalTokens w)) : KeptField p (k, v) (ensureEntry (k, w)) := by
  unfold ensureEntry
  dsimp only
  split
  · rename_i usage hkey husage
    obtain rfl : k = "usage" := by simpa using hkey
    rw [husage] at h
    obtain hsame | ⟨hmissing, total, hinsert⟩ := ensureUsageObjectTotalTokens_cases usage
    · rw [hsame]
      exact .keep h
    · rw [hinsert]
      cases h with
      | same => exact .total hnative (.same _) hmissing
      | object hfields =>
        refine .total hnative (.object hfields) ?_
        exact (hfields.numberField "total_tokens").trans hmissing
  · exact .keep h

theorem kept_leaf (o : SseObserver) {v : Value} (harray : v.asArray = none)
    (hobject : v.asObject = none) : Kept p v (o.rewritten v) := by
  obtain ⟨h, -⟩ | ⟨_, rfl, -⟩ | ⟨_, _, rfl, -⟩ := o.rewritten_cases v
  · rw [h]
    exact .same v
  · exact nomatch harray
  · exact nomatch hobject

theorem rewritten_object (o : SseObserver) (m : List (String × Value)) :
    o.rewritten (.object m) = .object (m.map fun e => (e.1, o.rewriteField e.1 e.2)) := by
  unfold SseObserver.rewritten SseObserver.rewriteModels SseObserver.rewriteField
  cases o.backendModel with
  | none => simp [ensureUsageTotalTokens, ensureUsageTotalTokensEntries_eq, ensureEntry]
  | some backend =>
    cases o.publicModel with
    | none => simp [ensureUsageTotalTokens, ensureUsageTotalTokensEntries_eq, ensureEntry]
    | some pub =>
      simp [rewriteResponseModels, rewriteResponseModelsEntries_eq, ensureUsageTotalTokens,
        ensureUsageTotalTokensEntries_eq, ensureEntry]

theorem keptField_rewriteField (hnative : p.native = true) {o : SseObserver}
    (hbackend : o.backendModel = p.backendModel) (hpublic : o.publicModel = p.publicModel)
    {k : String} {v : Value} (h : Kept p v (o.rewritten v)) :
    KeptField p (k, v) (k, o.rewriteField k v) := by
  unfold SseObserver.rewritten SseObserver.rewriteModels at h
  unfold SseObserver.rewriteField
  rw [hbackend, hpublic] at h ⊢
  cases hb : p.backendModel with
  | none =>
    rw [hb] at h
    exact keptField_ensure hnative h
  | some backend =>
    cases hp : p.publicModel with
    | none =>
      rw [hb, hp] at h
      exact keptField_ensure hnative h
    | some pub =>
      rw [hb, hp] at h
      dsimp only at h ⊢
      split_ifs with hmodel
      · obtain ⟨rfl, hname⟩ := hmodel
        obtain rfl := Value.asStr_eq_some.mp hname
        exact .model hb hp
      · exact keptField_ensure hnative h

/-- **A rewritten value is kept.** -/
theorem kept_rewritten (hnative : p.native = true) {o : SseObserver}
    (hbackend : o.backendModel = p.backendModel) (hpublic : o.publicModel = p.publicModel)
    (v : Value) : Kept p v (o.rewritten v) := by
  induction v using Value.induct with
  | array vs ih =>
    obtain ⟨-, h, -⟩ | ⟨_, heq, h⟩ | ⟨_, _, heq, -⟩ := o.rewritten_cases (.array vs)
    · exact nomatch h
    · obtain rfl := Value.array.inj heq
      rw [h]
      exact .array (keptList_map ih)
    · exact nomatch heq
  | object m ih =>
    rw [rewritten_object]
    exact .object (keptFields_map fun e he =>
      keptField_rewriteField hnative hbackend hpublic (ih e he))
  | null => exact kept_leaf o rfl rfl
  | bool b => exact kept_leaf o rfl rfl
  | number n => exact kept_leaf o rfl rfl
  | string s => exact kept_leaf o rfl rfl

theorem collectUsage_count (v : Value) (o : UsageObservation) :
    (collectUsage v o).diagnostics.usageObjectCount =
      o.diagnostics.usageObjectCount + (usageObjects v).length := by
  rw [collectUsage_eq]
  induction usageObjects v generalizing o with
  | nil => rfl
  | cons object objects ih =>
    rw [List.foldl_cons, ih, List.length_cons, Nat.add_comm objects.length, ← Nat.add_assoc]
    rfl

theorem count_pos_iff (v : Value) :
    0 < (extractUsageObservation v).diagnostics.usageObjectCount ↔ usageObjects v ≠ [] := by
  rw [extractUsageObservation, collectUsage_count, ← List.length_pos_iff]
  exact iff_of_eq (congrArg _ (Nat.zero_add _))

/-- A chunk with nothing but usage is one when it is rewritten, and only then. -/
theorem chatUsageOnlyChunk_rewritten (o : SseObserver) (v : Value) :
    chatUsageOnlyChunk (o.rewritten v) = chatUsageOnlyChunk v := by
  unfold chatUsageOnlyChunk
  rw [o.get_rewritten_eq "usage", Option.isSome_map,
    o.get_rewritten (k := "choices") (by decide) (by decide)]
  cases v.get "choices" with
  | none => rfl
  | some choices =>
    rw [Option.map_some, Option.bind_some, Option.bind_some, o.asArray_rewritten]
    cases choices.asArray with
    | none => rfl
    | some vs => cases vs <;> rfl

/-! ### The mode for Anthropic messages -/

theorem keptFields_refl (m : List (String × Value)) : KeptFields p m m := by
  induction m with
  | nil => exact .nil
  | cons e m ih => exact .cons (.keep (.same e.2)) ih

theorem KeptField.key {e e' : String × Value} (h : KeptField p e e') : e.1 = e'.1 := by
  cases h with
  | keep => rfl
  | model => rfl
  | total => rfl

theorem KeptFields.insert {m m' : List (String × Value)} (h : KeptFields p m m')
    (hsorted : OrdMap.Sorted m) {k : String} {v w : Value} (hget : OrdMap.get k m = some v)
    (hfield : KeptField p (k, v) (k, w)) : KeptFields p m (OrdMap.insert k w m') := by
  induction m generalizing m' with
  | nil => exact nomatch hget
  | cons e m ih =>
    cases h with
    | @cons _ e' _ m' he hs =>
      obtain ⟨hlt, hrest⟩ := List.pairwise_cons.mp hsorted
      obtain ⟨k', v'⟩ := e
      obtain ⟨k'', w'⟩ := e'
      obtain rfl : k' = k'' := he.key
      rw [OrdMap.get_cons] at hget
      rw [OrdMap.insert]
      by_cases hk : k = k'
      · subst hk
        rw [if_pos rfl] at hget ⊢
        obtain rfl := Option.some.inj hget
        exact .cons hfield hs
      · rw [if_neg hk] at hget ⊢
        have hbelow : k' < k := hlt _ (OrdMap.mem_of_get hget)
        rw [if_neg hbelow.asymm]
        exact .cons he (ih hs hrest hget)

theorem keptFields_rewriteTopModel {backend pub : String} (hbackend : p.backendModel = some backend)
    (hpublic : p.publicModel = some pub) {m : List (String × Value)} (hsorted : OrdMap.Sorted m) :
    KeptFields p m (rewriteTopModel backend pub m) := by
  unfold rewriteTopModel
  split_ifs with hmodel
  · obtain ⟨v, hget, hname⟩ := Option.bind_eq_some_iff.mp hmodel
    obtain rfl := Value.asStr_eq_some.mp hname
    exact (keptFields_refl m).insert hsorted hget (.model hbackend hpublic)
  · exact keptFields_refl m

/-- **A value whose model is rewritten is kept.** -/
theorem kept_rewriteModel {n : AnthropicSseNormalizer} (hbackend : n.backendModel = p.backendModel)
    (hpublic : n.publicModel = p.publicModel) {v : Value} (hv : v.WF) :
    Kept p v (n.rewriteModel v) := by
  unfold AnthropicSseNormalizer.rewriteModel
  split
  · rename_i backend pub m hb hp
    rw [hbackend] at hb
    rw [hpublic] at hp
    obtain ⟨hsorted, hfields⟩ := (Value.wf_object m).mp hv
    have htop := keptFields_rewriteTopModel hb hp hsorted
    dsimp only
    rw [get_rewriteTopModel_ne (by decide)]
    split
    · rename_i message hmessage
      obtain ⟨w, hget, hobject⟩ := Option.bind_eq_some_iff.mp hmessage
      obtain rfl := Value.asObject_eq_some.mp hobject
      have hwf : (Value.object message).WF := hfields _ (OrdMap.mem_of_get hget)
      refine .object (htop.insert hsorted hget (.keep (.object ?_)))
      exact keptFields_rewriteTopModel hb hp ((Value.wf_object message).mp hwf).1
    · exact .object htop
  · exact .same _

/-! ### What is renamed -/

/-- **The backend's model is not named**: in the native mode nowhere, in the other mode not where
an event of an Anthropic stream names its model. -/
def Renamed (p : Passthrough) (value : Value) : Prop :=
  ∀ backend pub, p.backendModel = some backend → p.publicModel = some pub → backend ≠ pub →
    if p.native then namesModel backend value = false
    else value.get "model" ≠ some (.string backend) ∧
      (value.get "message").bind (Value.get · "model") ≠ some (.string backend)

theorem renamed_rewritten (hnative : p.native = true) {o : SseObserver}
    (hbackend : o.backendModel = p.backendModel) (hpublic : o.publicModel = p.publicModel)
    (v : Value) : Renamed p (o.rewritten v) := by
  intro backend pub hb hp hne
  rw [if_pos hnative]
  unfold SseObserver.rewritten SseObserver.rewriteModels
  rw [hbackend, hpublic, hb, hp]
  exact namesModel_ensure (namesModel_rewrite hne v)

theorem get_rewriteTopModel_model {backend pub : String} (hne : backend ≠ pub)
    (m : List (String × Value)) :
    OrdMap.get "model" (rewriteTopModel backend pub m) ≠ some (.string backend) := by
  unfold rewriteTopModel
  split_ifs with hmodel
  · rw [OrdMap.get_insert_self]
    simpa using hne.symm
  · intro hget
    rw [hget] at hmodel
    exact hmodel rfl

theorem renamed_rewriteModel (hnative : p.native = false) {n : AnthropicSseNormalizer}
    (hbackend : n.backendModel = p.backendModel) (hpublic : n.publicModel = p.publicModel)
    (v : Value) : Renamed p (n.rewriteModel v) := by
  intro backend pub hb hp hne
  rw [if_neg (by simp [hnative])]
  unfold AnthropicSseNormalizer.rewriteModel
  rw [hbackend, hpublic, hb, hp]
  cases v with
  | object m =>
    dsimp only
    rw [get_rewriteTopModel_ne (by decide)]
    cases hmessage : (OrdMap.get "message" m).bind Value.asObject with
    | none =>
      refine ⟨get_rewriteTopModel_model hne m, ?_⟩
      rw [Value.get_object, get_rewriteTopModel_ne (by decide)]
      intro hget
      obtain ⟨message, hm, hmodel⟩ := Option.bind_eq_some_iff.mp hget
      rw [hm] at hmessage
      cases message with
      | object message => exact nomatch hmessage
      | _ => exact absurd hmodel (by simp [Value.get])
    | some message =>
      refine ⟨?_, ?_⟩
      · rw [Value.get_object, OrdMap.get_insert_ne (by decide)]
        exact get_rewriteTopModel_model hne m
      · rw [Value.get_object, OrdMap.get_insert_self, Option.bind_some, Value.get_object]
        exact get_rewriteTopModel_model hne message
  | _ => simp [Value.get]

/-! ### Depth -/

theorem fits_rewritten (o : SseObserver) {d : ℕ} {v : Value} (h : v.Fits d) :
    (o.rewritten v).Fits d := by
  unfold SseObserver.rewritten SseObserver.rewriteModels
  split
  · exact fits_ensure (fits_rewrite _ _ h)
  · exact fits_ensure h

theorem fits_removeUsageField {d : ℕ} {v : Value} (h : v.Fits (d + 1)) :
    (removeUsageField v).Fits (d + 1) := by
  cases v with
  | object m => exact h.erase "usage"
  | _ => exact h

theorem fits_rewriteTopModel (backend pub : String) {d : ℕ} {m : List (String × Value)}
    (h : (Value.object m).Fits (d + 1)) :
    (Value.object (rewriteTopModel backend pub m)).Fits (d + 1) := by
  unfold rewriteTopModel
  split_ifs
  · exact h.insert _ (Value.fits_string d _)
  · exact h

theorem fits_rewriteModel (n : AnthropicSseNormalizer) {d : ℕ} {v : Value} (h : v.Fits (d + 2)) :
    (n.rewriteModel v).Fits (d + 2) := by
  unfold AnthropicSseNormalizer.rewriteModel
  split
  · rename_i backend pub m hb hp
    have htop := fits_rewriteTopModel backend pub h
    dsimp only
    split
    · rename_i message hmessage
      obtain ⟨w, hget, hobject⟩ := Option.bind_eq_some_iff.mp hmessage
      obtain rfl := Value.asObject_eq_some.mp hobject
      exact htop.insert _ (fits_rewriteTopModel backend pub (htop.get hget))
    · exact htop
  · exact h

end

/-! ### Lines -/

/-- A line that was written in place of another: it carries a value, with the same blank after the
colon and the same line ending. -/
structure Written (c : Codec) (line : Bytes) (space : Bool) (value : Value) (written : Bytes) :
    Prop where
  bytes : written = writtenLine c space value (lineSuffix line)
  suffix : lineSuffix written = lineSuffix line
  reads : ∃ read, JsonLine c written space read ∧ read.blur = value.blur

/-- **What becomes of a line**: a line without JSON is sent as it came; one with JSON is sent with a
value that is kept, without its usage if that is hidden, unless it is a chunk with nothing but
usage. -/
inductive LineKept (c : Codec) (p : Passthrough) (line : Bytes) : Option Bytes → Prop
  | raw (h : ∀ space value, ¬JsonLine c line space value) : LineKept c p line (some line)
  | json {space : Bool} {value kept : Value} {written : Bytes} (h : JsonLine c line space value)
      (hshown : ¬p.Hides value) (hkept : Kept p value kept) (hrenamed : Renamed p kept)
      (hwritten : Written c line space kept written) : LineKept c p line (some written)
  | hidden {space : Bool} {value kept : Value} {written : Bytes} (h : JsonLine c line space value)
      (hhides : p.Hides value) (hchunk : chatUsageOnlyChunk value = false)
      (hkept : Kept p value kept) (hrenamed : Renamed p kept)
      (hwritten : Written c line space (removeUsageField kept) written) :
      LineKept c p line (some written)
  | dropped {space : Bool} {value : Value} (h : JsonLine c line space value)
      (hhides : p.Hides value) (hchunk : chatUsageOnlyChunk value = true) :
      LineKept c p line none

section

variable {c : Codec} {p : Passthrough}

theorem written_line (hc : c.LawfulLine) {space : Bool} {value : Value}
    (hvalue : value.Fits maxDepth) (line : Bytes) :
    Written c line space value
      (outBytes c [.dataLine space value (lineSuffix line)]) := by
  obtain ⟨hsuffix, hread⟩ := jsonLine_written hc space hvalue line
  have hbytes : outBytes c [.dataLine space value (lineSuffix line)] =
      writtenLine c space value (lineSuffix line) := by
    simp [SseOut.bytes, writtenLine, blank]
  rw [hbytes]
  exact ⟨rfl, hsuffix, hread⟩

theorem JsonLine.fits (hc : c.Lawful) {line : Bytes} {space : Bool} {value : Value}
    (h : JsonLine c line space value) : value.Fits maxDepth := by
  obtain ⟨data, -, -, hvalue, -⟩ := h
  exact hc.wf_of_read data value hvalue

theorem lineKept_raw {line : Bytes} (h : ∀ value space line', parseSseLine c line ≠
    .data value space line') : LineKept c p line (some line) :=
  .raw fun space value hline => h value space line (parseSseLine_eq_data.mpr hline)

theorem SseFrame.data_or (f : SseFrame) : (∃ value space, f = .data value space f.line) ∨
    ∀ value space line, f ≠ .data value space line := by
  cases f with
  | data value space line => exact Or.inl ⟨value, space, rfl⟩
  | _ => exact Or.inr nofun

/-- The normalizer knows the models of the mode, and whether usage is sent. -/
def Passthrough.Observes (p : Passthrough) (n : SseNormalizer) : Prop :=
  n.observer.backendModel = p.backendModel ∧ n.observer.publicModel = p.publicModel ∧
    n.emitUsageToClient = p.emitUsageToClient

theorem hides_iff (hnative : p.native = true) (value : Value) :
    (!p.emitUsageToClient &&
      decide ((extractUsageObservation value).diagnostics.usageObjectCount > 0)) = true ↔
        p.Hides value := by
  rw [Bool.and_eq_true, Bool.not_eq_true', decide_eq_true_iff, gt_iff_lt, count_pos_iff,
    Passthrough.Hides, and_iff_right hnative]

/-- **A line in the native mode.** -/
theorem native_kept (hc : c.LawfulLine) (hnative : p.native = true) {n : SseNormalizer}
    (hn : p.Observes n) (line : Bytes) :
    p.Observes (n.handleFrame (parseSseLine c line)).1 ∧
      ∃ sent, LineKept c p line sent ∧
        outBytes c (n.handleFrame (parseSseLine c line)).2 = sent.getD [] := by
  obtain ⟨hbackend, hpublic, hemit⟩ := hn
  obtain ⟨value, space, hdata⟩ | hraw := (parseSseLine c line).data_or
  · rw [parseSseLine_line] at hdata
    have hjson := parseSseLine_eq_data.mp hdata
    have hfits := hjson.fits hc.toLawful
    have hkept := kept_rewritten hnative hbackend hpublic value
    have hrenamed := renamed_rewritten hnative hbackend hpublic value
    have hrewritten := fits_rewritten n.observer hfits
    have hhides := hides_iff hnative value
    rw [hdata, SseNormalizer.handleFrame, SseNormalizer.handleData]
    dsimp only
    rw [hemit, n.observer.applyDataPrologue_value, chatUsageOnlyChunk_rewritten]
    split_ifs with hhidden hchunk
    · exact ⟨⟨hbackend, hpublic, rfl⟩, none, .dropped hjson (hhides.mp hhidden) hchunk, rfl⟩
    · exact ⟨⟨hbackend, hpublic, rfl⟩, _, .hidden hjson (hhides.mp hhidden)
        (Bool.eq_false_iff.mpr hchunk) hkept hrenamed
        (written_line hc (fits_removeUsageField hrewritten) line), rfl⟩
    · exact ⟨⟨hbackend, hpublic, rfl⟩, _, .json hjson (fun h => hhidden (hhides.mpr h)) hkept
        hrenamed (written_line hc hrewritten line), rfl⟩
  · have hline := parseSseLine_line c line
    have hkept : LineKept c p line (some line) := lineKept_raw hraw
    revert hline hraw
    cases parseSseLine c line with
    | data value space line' => exact fun hraw _ => absurd rfl (hraw value space line')
    | _ =>
      rintro - rfl
      exact ⟨⟨hbackend, hpublic, hemit⟩, _, hkept, List.append_nil _⟩

/-- **A line in the mode for Anthropic messages.** -/
theorem anthropic_kept (hc : c.LawfulLine) (hnative : p.native = false)
    {n : AnthropicSseNormalizer}
    (hn : n.backendModel = p.backendModel ∧ n.publicModel = p.publicModel) (line : Bytes) :
    ((n.handleFrame (parseSseLine c line)).1.backendModel = p.backendModel ∧
      (n.handleFrame (parseSseLine c line)).1.publicModel = p.publicModel) ∧
      ∃ sent, LineKept c p line sent ∧
        outBytes c (n.handleFrame (parseSseLine c line)).2 = sent.getD [] := by
  obtain ⟨hbackend, hpublic⟩ := hn
  obtain ⟨value, space, hdata⟩ | hraw := (parseSseLine c line).data_or
  · rw [parseSseLine_line] at hdata
    have hjson := parseSseLine_eq_data.mp hdata
    have hfits := hjson.fits hc.toLawful
    have hshown : ¬p.Hides value := fun h => by simp [hnative, Passthrough.Hides] at h
    rw [hdata, AnthropicSseNormalizer.handleFrame]
    exact ⟨⟨hbackend, hpublic⟩, _, .json hjson hshown
      (kept_rewriteModel hbackend hpublic hfits.1)
      (renamed_rewriteModel hnative hbackend hpublic value)
      (written_line hc (fits_rewriteModel n hfits) line), rfl⟩
  · have hline := parseSseLine_line c line
    have hkept : LineKept c p line (some line) := lineKept_raw hraw
    revert hline hraw
    cases parseSseLine c line with
    | data value space line' => exact fun hraw _ => absurd rfl (hraw value space line')
    | _ =>
      rintro - rfl
      exact ⟨⟨hbackend, hpublic⟩, _, hkept, List.append_nil _⟩

/-! ### Streams -/

/-- **Every line of a run is kept.** -/
theorem run_kept {σ : Type} {handle : σ → SseFrame → σ × List SseOut} {I : σ → Prop}
    (hstep : ∀ s line, I s → I (handle s (parseSseLine c line)).1 ∧
      ∃ sent, LineKept c p line sent ∧
        outBytes c (handle s (parseSseLine c line)).2 = sent.getD [])
    (lines : List Bytes) {s : σ} (hs : I s) :
    ∃ sent, List.Forall₂ (LineKept c p) lines sent ∧
      outBytes c (Mealy.run handle s (lines.map (parseSseLine c))).2 =
        sent.reduceOption.flatten := by
  induction lines generalizing s with
  | nil => exact ⟨[], .nil, rfl⟩
  | cons line lines ih =>
    obtain ⟨hnext, sent, hkept, hsent⟩ := hstep s line hs
    obtain ⟨rest, hrest, hout⟩ := ih hnext
    refine ⟨sent :: rest, .cons hkept hrest, ?_⟩
    rw [List.map_cons, Mealy.run_cons, outBytes_append, hsent, hout]
    cases sent with
    | none => rw [List.reduceOption_cons_of_none]; rfl
    | some line => rw [List.reduceOption_cons_of_some]; rfl

theorem lineSuffix_isLine {line : Bytes} (h : IsLine line) :
    ∃ cr, nl ∉ cr ∧ lineSuffix line = cr ++ [nl] := by
  obtain ⟨a, -, rfl⟩ := h
  have hnewline : stripSuffix (asBytes "\n") (a ++ [nl]) = some a := stripSuffix_eq_some.mpr rfl
  unfold lineSuffix
  rw [hnewline]
  dsimp only [Option.getD_some]
  rw [if_pos Option.isSome_some]
  split_ifs
  · exact ⟨asBytes "\r", by decide, rfl⟩
  · exact ⟨[], by decide, rfl⟩

theorem Written.isLine (hc : c.Lawful) {line sent : Bytes} {space : Bool} {value : Value}
    (h : Written c line space value sent) :
    (IsLine line → IsLine sent) ∧ (nl ∉ line → sent ≠ [] ∧ nl ∉ sent) := by
  obtain ⟨rfl, -, -⟩ := h
  have hbody : nl ∉ asBytes "data:" ++ blank space ++ c.toVec value := by
    intro hmem
    obtain hmem | hmem := List.mem_append.mp hmem
    · revert hmem
      cases space <;> decide
    · exact (hc.print_no_break value).1 hmem
  unfold writtenLine
  constructor
  · intro hline
    obtain ⟨cr, hcr, hsuffix⟩ := lineSuffix_isLine hline
    refine ⟨asBytes "data:" ++ blank space ++ c.toVec value ++ cr, ?_, ?_⟩
    · rw [List.mem_append, not_or]
      exact ⟨hbody, hcr⟩
    · rw [hsuffix, List.append_assoc _ cr]
  · intro hnl
    refine ⟨by simp [asBytes], ?_⟩
    rw [List.mem_append, not_or]
    refine ⟨hbody, fun hmem => hnl ?_⟩
    rw [← lineContent_append_lineSuffix line]
    exact List.mem_append_right _ hmem

theorem LineKept.isLine (hc : c.Lawful) {line sent : Bytes} (h : LineKept c p line (some sent)) :
    (IsLine line → IsLine sent) ∧ (line ≠ [] ∧ nl ∉ line → sent ≠ [] ∧ nl ∉ sent) := by
  cases h with
  | raw => exact ⟨id, id⟩
  | json _ _ _ _ hwritten =>
    exact ⟨(hwritten.isLine hc).1, fun hline => (hwritten.isLine hc).2 hline.2⟩
  | hidden _ _ _ _ _ hwritten =>
    exact ⟨(hwritten.isLine hc).1, fun hline => (hwritten.isLine hc).2 hline.2⟩

theorem areLines_kept (hc : c.Lawful) {lines : List Bytes} {sent : List (Option Bytes)}
    (h : List.Forall₂ (LineKept c p) lines sent) (hlines : AreLines lines) :
    AreLines sent.reduceOption := by
  induction h with
  | nil => trivial
  | @cons line sent lines rest hkept hrest ih =>
    cases lines with
    | nil =>
      cases hrest
      cases sent with
      | none => trivial
      | some sent => exact hlines.imp (hkept.isLine hc).1 (hkept.isLine hc).2
    | cons line' lines =>
      have htail := ih hlines.2
      cases sent with
      | none => exact htail
      | some sent =>
        rw [List.reduceOption_cons_of_some]
        exact areLines_cons_of_isLine ((hkept.isLine hc).1 hlines.1) htail

/-- What a pass-through mode sends for a stream, however it is cut into chunks. -/
theorem outBytes_passthrough (hc : c.LawfulLine) (p : Passthrough) (chunks : List Bytes) :
    ∃ sent, List.Forall₂ (LineKept c p) (cutLines chunks.flatten) sent ∧
      outBytes c ((SseStrategy.new p.mode p.backendModel p.publicModel
        p.emitUsageToClient).runAll c chunks).2 = sent.reduceOption.flatten := by
  rw [SseStrategy.runAll_eq, frames_eq_cutLines]
  unfold Passthrough.mode
  split_ifs with hnative
  · have hstep : ∀ (s : SseNormalizer) line, p.Observes s → _ := fun s line hs =>
      native_kept hc hnative hs line
    obtain ⟨sent, hkept, hout⟩ := run_kept hstep (cutLines chunks.flatten) (s := {
      observer := { backendModel := p.backendModel, publicModel := p.publicModel }
      emitUsageToClient := p.emitUsageToClient }) ⟨rfl, rfl, rfl⟩
    refine ⟨sent, hkept, hout ▸ ?_⟩
    simp only [SseStrategy.new, SseStrategy.handleAll, SseNormalizer.finishTail, List.append_nil]
  · have hstep : ∀ (s : AnthropicSseNormalizer) line,
        (s.backendModel = p.backendModel ∧ s.publicModel = p.publicModel) → _ :=
      fun s line hs => anthropic_kept hc (Bool.eq_false_iff.mpr hnative) hs line
    obtain ⟨sent, hkept, hout⟩ := run_kept hstep (cutLines chunks.flatten) (s := {
        backendModel := p.backendModel, publicModel := p.publicModel }) ⟨rfl, rfl⟩
    refine ⟨sent, hkept, hout ▸ ?_⟩
    simp only [SseStrategy.new, SseStrategy.handleAll, AnthropicSseNormalizer.finishTail,
      List.append_nil]

/-- **The lines that are sent are those of the backend**, one by one and in order, each of them
kept. -/
theorem passthrough_lines (hc : c.LawfulLine) (p : Passthrough) (chunks : List Bytes) :
    ∃ sent, List.Forall₂ (LineKept c p) (cutLines chunks.flatten) sent ∧
      cutLines (outBytes c ((SseStrategy.new p.mode p.backendModel p.publicModel
        p.emitUsageToClient).runAll c chunks).2) = sent.reduceOption := by
  obtain ⟨sent, hkept, hout⟩ := outBytes_passthrough hc p chunks
  refine ⟨sent, hkept, ?_⟩
  rw [hout]
  exact cutLines_of_areLines (areLines_kept hc.toLawful hkept (areLines_cutLines _))

/-- A comment, a chunk with a model and a hidden usage chunk. -/
def sampleStream : List Bytes :=
  [asBytes ": ok\r\ndata:\x7b\"model\":\"m\"\x7d\n",
    asBytes "data: \x7b\"choices\":[],\"usage\":\x7b\x7d\x7d"]

/-- The native mode, with usage hidden. -/
def samplePassthrough : Passthrough where
  native := true
  backendModel := some "m"
  publicModel := some "p"
  emitUsageToClient := false

/-- The lines of the sample are sent, the last of them dropped. -/
theorem passthrough_lines_sample :
    (∃ sent, List.Forall₂ (LineKept reference samplePassthrough)
      (cutLines sampleStream.flatten) sent ∧
        cutLines (outBytes reference ((SseStrategy.new .native (some "m") (some "p")
          false).runAll reference sampleStream).2) = sent.reduceOption) ∧
    outBytes reference ((SseStrategy.new .native (some "m") (some "p")
      false).runAll reference sampleStream).2 =
        asBytes ": ok\r\ndata:\x7b\"model\":\"p\"\x7d\n" :=
  ⟨passthrough_lines reference_lawfulLine samplePassthrough sampleStream, by decide +kernel⟩

end

end Onair
