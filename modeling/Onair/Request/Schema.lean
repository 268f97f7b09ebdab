import Onair.Lib.Json.Paths
import Onair.Lib.Json.Size
import Onair.Request.ToChat

/-!
# The schemas of tools, sanitized

What is left in the schema of a tool's parameters after it has been sanitized.

* `Offends`, `CleanNode`: a keyword that llama.cpp does not understand, and fields without one;
* `placeAt`, `ReachesFixpoint`: where a path leads to a schema; no schema has such a keyword, and
  there is nothing left to do;
* `sanitize_induct`: induction along the recursion of the code;
* `Visited`, `MergesCleanly`: the objects that the code comes by, and what a collapsed choice
  brings into them;
* `sanitized_fixpoint_iff`: the fixpoint is reached exactly where no choice brings a keyword that
  had been removed before.
-/

namespace Onair

open Json

/-! ### Keywords that are not understood -/

/-- The type that a list of types allows beside null. -/
def nullableType (v : Value) : Option String :=
  match v.asArray.bind (·.mapM Value.asStr) with
  | some types =>
    match types.filter (· ≠ "null") with
    | [nonNull] => if types.elem "null" then some nonNull else none
    | _ => none
  | none => none

/-- The fields of the object that a choice allows beside null. -/
def nullableChoice (v : Value) : Option (List (String × Value)) :=
  match v with
  | .array items =>
    match items.filter fun item => !isNullSchema item with
    | [.object replacement] => if items.any isNullSchema then some replacement else none
    | _ => none
  | _ => none

/-- The keyword is not understood with this value. -/
def Offends (k : String) (v : Value) : Prop :=
  k = "default" ∨ (k = "type" ∧ nullableType v ≠ none) ∨
    ((k = "anyOf" ∨ k = "oneOf") ∧ nullableChoice v ≠ none)

instance (k : String) (v : Value) : Decidable (Offends k v) :=
  inferInstanceAs (Decidable (_ ∨ _))

/-- Fields that are all understood. -/
def CleanNode (m : List (String × Value)) : Prop := ∀ e ∈ m, ¬Offends e.1 e.2

/-- All objects of the tree have fields that are understood. -/
inductive CleanEverywhere : Value → Prop where
  | object {m : List (String × Value)} (node : CleanNode m)
      (fields : ∀ e ∈ m, CleanEverywhere e.2) : CleanEverywhere (.object m)
  | array {vs : List Value} (elements : ∀ v ∈ vs, CleanEverywhere v) : CleanEverywhere (.array vs)
  | scalar {v : Value} (hobject : v.asObject = none) (harray : v.asArray = none) :
      CleanEverywhere v

/-! ### The places of schemas -/

/-- What a value in the tree of a schema is: a schema, or an array of schemas; a map from names that
a user has chosen to schemas; the alternatives of a choice; or a literal. -/
inductive Place where
  | schema
  | names
  | branches
  | literal
  deriving DecidableEq, Repr

/-- The keywords whose fields are named by the user. -/
def nameMaps : List String :=
  ["properties", "patternProperties", "$defs", "definitions", "dependentSchemas"]

/-- The keywords of a choice. -/
def choices : List String := ["anyOf", "oneOf"]

/-- The keywords whose values are literals. -/
def literals : List String := ["required", "enum", "const", "default", "examples"]

/-- What the value of a keyword is. -/
def placeOf (k : String) : Place :=
  if k ∈ nameMaps then .names
  else if k ∈ choices then .branches
  else if k ∈ literals then .literal
  else .schema

/-- The place one step further. -/
def Place.next : Place → Step → Place
  | .schema, .key k => placeOf k
  | .schema, .index _ | .branches, .index _ | .names, .key _ => .schema
  | .names, .index _ | .branches, .key _ | .literal, _ => .literal

/-- The place that a path leads to. -/
def placeAt (p : List Step) : Place := p.foldl Place.next .schema

/-- Nothing is left that is not understood, at any place of a schema, and sanitizing once more
changes nothing. -/
def ReachesFixpoint (schema : Value) : Prop :=
  (∀ p m, placeAt p = .schema →
    (sanitizeLlamacppToolSchema schema).lookup p = some (.object m) → CleanNode m) ∧
  sanitizeLlamacppToolSchema (sanitizeLlamacppToolSchema schema) =
    sanitizeLlamacppToolSchema schema

/-! ### The recursion of the code -/

@[simp] theorem sanitize_object (m : List (String × Value)) :
    sanitizeLlamacppToolSchema (.object m) =
      .object ((sanitizeFields m).map fun e => (e.1, sanitizeLlamacppToolSchema e.2)) := by
  have hfields (d : ℕ) (h : (Value.object m).depth ≤ d + 1) : Shallow d (sanitizeFields m) :=
    Shallow.sanitizeFields (Value.depth_object_le.mp h)
  rw [← sanitizeToDepth_eq (Nat.le_succ _)]
  simp only [sanitizeToDepth, Value.object.injEq]
  refine List.map_congr_left fun e he => ?_
  rw [sanitizeToDepth_eq (hfields _ (Nat.le_succ _) e he)]

@[simp] theorem sanitize_array (vs : List Value) :
    sanitizeLlamacppToolSchema (.array vs) = .array (vs.map sanitizeLlamacppToolSchema) := by
  rw [← sanitizeToDepth_eq (Nat.le_succ _)]
  simp only [sanitizeToDepth, Value.array.injEq]
  refine List.map_congr_left fun v hv => ?_
  rw [sanitizeToDepth_eq (Value.depth_array_le.mp (Nat.le_succ _) v hv)]

theorem sanitize_scalar {v : Value} (hobject : v.asObject = none) (harray : v.asArray = none) :
    sanitizeLlamacppToolSchema v = v := by
  cases v with
  | object m => exact nomatch hobject
  | array vs => exact nomatch harray
  | _ => rfl

/-- Induction along the recursion of the code, which goes on with the fields that are left. -/
theorem sanitize_induct {P : Value → Prop}
    (scalar : ∀ v : Value, v.asObject = none → v.asArray = none → P v)
    (array : ∀ vs, (∀ v ∈ vs, P v) → P (.array vs))
    (object : ∀ m, (∀ e ∈ sanitizeFields m, P e.2) → P (.object m)) (v : Value) : P v := by
  have hdepth : ∀ d v, Value.depth v ≤ d → P v := by
    intro d
    induction d with
    | zero =>
      intro v hv
      cases v with
      | array vs => simp [Value.depth] at hv
      | object m => simp [Value.depth] at hv
      | _ => exact scalar _ rfl rfl
    | succ d ih =>
      intro v hv
      cases v with
      | array vs => exact array vs fun v hmem => ih v (Value.depth_array_le.mp hv v hmem)
      | object m =>
        have hfields : Shallow d (sanitizeFields m) :=
          Shallow.sanitizeFields (Value.depth_object_le.mp hv)
        exact object m fun e he => ih e.2 (hfields e he)
      | _ => exact scalar _ rfl rfl
  exact hdepth _ v le_rfl

/-! ### One object -/

theorem collapseNullableTypeArray_eq (m : List (String × Value)) :
    collapseNullableTypeArray m =
      match (OrdMap.get "type" m).bind nullableType with
      | some nonNull => OrdMap.insert "type" (.string nonNull) m
      | none => m := by
  unfold collapseNullableTypeArray nullableType
  cases OrdMap.get "type" m with
  | none => rfl
  | some v =>
    simp only [Option.bind_some]
    cases v.asArray.bind (·.mapM Value.asStr) with
    | none => rfl
    | some types =>
      dsimp only
      rcases types.filter (· ≠ "null") with _ | ⟨nonNull, _ | ⟨other, rest⟩⟩
      · rfl
      · dsimp only
        split_ifs <;> rfl
      · rfl

theorem collapseType_of_none {m : List (String × Value)}
    (h : ∀ v, OrdMap.get "type" m = some v → nullableType v = none) :
    collapseNullableTypeArray m = m := by
  have hnone : (OrdMap.get "type" m).bind nullableType = none := Option.bind_eq_none_iff.mpr h
  rw [collapseNullableTypeArray_eq, hnone]

theorem get_collapseType_ne {k : String} (hk : k ≠ "type") (m : List (String × Value)) :
    OrdMap.get k (collapseNullableTypeArray m) = OrdMap.get k m := by
  rw [collapseNullableTypeArray_eq]
  cases (OrdMap.get "type" m).bind nullableType with
  | none => rfl
  | some nonNull => exact OrdMap.get_insert_ne hk _ m

/-- The fields that a collapsed choice brings: those that are not there. -/
def broughtBy (key : String) (m : List (String × Value)) : List (String × Value) :=
  match (OrdMap.get key m).bind nullableChoice with
  | some replacement => replacement.filter fun e => (OrdMap.get e.1 (OrdMap.erase key m)).isNone
  | none => []

theorem collapseNullableSchemaArray_eq (key : String) (m : List (String × Value)) :
    collapseNullableSchemaArray key m =
      match (OrdMap.get key m).bind nullableChoice with
      | some replacement =>
        replacement.foldl (fun object e => insertAbsent e.1 e.2 object) (OrdMap.erase key m)
      | none => m := by
  unfold collapseNullableSchemaArray nullableChoice
  cases OrdMap.get key m with
  | none => rfl
  | some v =>
    cases v with
    | array items =>
      simp only [Option.bind_some]
      rcases items.filter fun item => !isNullSchema item with _ | ⟨item, _ | ⟨other, rest⟩⟩
      · rfl
      · cases item with
        | object replacement =>
          dsimp only
          split_ifs <;> rfl
        | _ => rfl
      · cases item <;> rfl
    | _ => rfl

theorem collapse_of_none {key : String} {m : List (String × Value)}
    (h : ∀ v, OrdMap.get key m = some v → nullableChoice v = none) :
    collapseNullableSchemaArray key m = m := by
  have hnone : (OrdMap.get key m).bind nullableChoice = none := Option.bind_eq_none_iff.mpr h
  rw [collapseNullableSchemaArray_eq, hnone]

theorem foldl_insertAbsent_perm {m r : List (String × Value)} (hm : OrdMap.Sorted m)
    (hr : OrdMap.Sorted r) :
    OrdMap.Sorted (r.foldl (fun object e => insertAbsent e.1 e.2 object) m) ∧
      (r.foldl (fun object e => insertAbsent e.1 e.2 object) m).Perm
        (m ++ r.filter fun e => (OrdMap.get e.1 m).isNone) := by
  induction r generalizing m with
  | nil => exact ⟨hm, by simp⟩
  | cons e r ih =>
    obtain ⟨hhead, htail⟩ := List.pairwise_cons.mp hr
    rw [List.foldl_cons]
    cases hget : OrdMap.get e.1 m with
    | some v =>
      have hsame : insertAbsent e.1 e.2 m = m := by rw [insertAbsent, hget]
      rw [hsame, List.filter_cons_of_neg (by simp [hget])]
      exact ih hm htail
    | none =>
      have hput : insertAbsent e.1 e.2 m = OrdMap.insert e.1 e.2 m := by rw [insertAbsent, hget]
      obtain ⟨hsorted, hperm⟩ := ih (OrdMap.sorted_insert hm e.1 e.2) htail
      rw [hput, List.filter_cons_of_pos (by simp [hget])]
      refine ⟨hsorted, hperm.trans ?_⟩
      have hinsert : (OrdMap.insert e.1 e.2 m).Perm (e :: m) := by
        have hp := OrdMap.perm_insert hm e.1 e.2
        rwa [OrdMap.erase_of_not_mem (OrdMap.get_eq_none_iff.mp hget)] at hp
      -- no later field has the key of this one
      have hfilter : (r.filter fun f => (OrdMap.get f.1 (OrdMap.insert e.1 e.2 m)).isNone) =
          r.filter fun f => (OrdMap.get f.1 m).isNone :=
        List.filter_congr fun f hf => by rw [OrdMap.get_insert_ne (hhead f hf).ne']
      rw [hfilter]
      exact (hinsert.append_right _).trans List.perm_middle.symm

theorem get_foldl_insertAbsent (k : String) (r m : List (String × Value)) :
    OrdMap.get k (r.foldl (fun object e => insertAbsent e.1 e.2 object) m) =
      (OrdMap.get k m).or (OrdMap.get k r) := by
  induction r generalizing m with
  | nil => simp
  | cons e r ih =>
    rw [List.foldl_cons, ih, OrdMap.get_cons, insertAbsent]
    cases hget : OrdMap.get e.1 m with
    | some v =>
      by_cases hk : k = e.1
      · subst hk
        simp [hget]
      · simp [hk]
    | none =>
      rw [OrdMap.get_insert]
      by_cases hk : k = e.1
      · subst hk
        simp [hget]
      · simp [hk]

/-- The object of a choice is the only element that is not null. -/
theorem nullableChoice_eq_some {v : Value} {r : List (String × Value)}
    (h : nullableChoice v = some r) : ∃ items, v = .array items ∧
      (items.filter fun item => !isNullSchema item) = [.object r] := by
  unfold nullableChoice at h
  split at h
  · next items =>
    split at h
    · next replacement hfilter =>
      split_ifs at h
      cases h
      exact ⟨items, rfl, hfilter⟩
    · cases h
  · cases h

theorem nullableChoice_mem {v : Value} {r : List (String × Value)}
    (h : nullableChoice v = some r) :
    ∃ items, v = .array items ∧ Value.object r ∈ items ∧ isNullSchema (.object r) = false := by
  obtain ⟨items, hv, hfilter⟩ := nullableChoice_eq_some h
  have hmem : Value.object r ∈ items.filter fun item => !isNullSchema item :=
    hfilter ▸ List.mem_singleton_self _
  exact ⟨items, hv, List.mem_of_mem_filter hmem, by simpa using (List.mem_filter.mp hmem).2⟩

section

variable {m : List (String × Value)} (hm : (Value.object m).WF)

include hm

theorem wf_nullableChoice {key : String} {r : List (String × Value)}
    (h : (OrdMap.get key m).bind nullableChoice = some r) : (Value.object r).WF := by
  obtain ⟨v, hget, hchoice⟩ := Option.bind_eq_some_iff.mp h
  obtain ⟨items, rfl, hmem, -⟩ := nullableChoice_mem hchoice
  have harray : (Value.array items).WF :=
    ((Value.wf_object m).mp hm).2 _ (OrdMap.mem_of_get hget)
  exact (Value.wf_array items).mp harray _ hmem

/-- **A collapsed choice** leaves the other fields and brings those that were not there. -/
theorem collapse_perm {key : String} {r : List (String × Value)}
    (h : (OrdMap.get key m).bind nullableChoice = some r) :
    OrdMap.Sorted (collapseNullableSchemaArray key m) ∧
      (collapseNullableSchemaArray key m).Perm (OrdMap.erase key m ++ broughtBy key m) := by
  have hsorted : OrdMap.Sorted m := ((Value.wf_object m).mp hm).1
  have hr : OrdMap.Sorted r := ((Value.wf_object r).mp (wf_nullableChoice hm h)).1
  rw [collapseNullableSchemaArray_eq, broughtBy, h]
  exact foldl_insertAbsent_perm (OrdMap.sorted_erase hsorted key) hr

theorem mem_collapse {key : String} {e : String × Value} :
    e ∈ collapseNullableSchemaArray key m ↔
      (e ∈ m ∧ (e.1 = key → nullableChoice e.2 = none)) ∨ e ∈ broughtBy key m := by
  have hsorted : OrdMap.Sorted m := ((Value.wf_object m).mp hm).1
  have hat (hmem : e ∈ m) (hkey : e.1 = key) :
      (OrdMap.get key m).bind nullableChoice = nullableChoice e.2 := by
    have hentry : (key, e.2) ∈ m := by
      rw [← hkey]
      exact hmem
    rw [(OrdMap.get_eq_some_iff hsorted).mpr hentry, Option.bind_some]
  cases h : (OrdMap.get key m).bind nullableChoice with
  | none =>
    rw [collapseNullableSchemaArray_eq, broughtBy, h]
    simp only [List.not_mem_nil, or_false, iff_self_and]
    exact fun hmem hkey => (hat hmem hkey).symm.trans h
  | some r =>
    rw [(collapse_perm hm h).2.mem_iff, List.mem_append, OrdMap.erase, List.mem_filter]
    refine or_congr_left (and_congr_right fun hmem => ?_)
    have hne (hkey : e.1 = key) : nullableChoice e.2 ≠ none := by
      rw [← hat hmem hkey, h]
      exact Option.some_ne_none r
    simp only [ne_eq, decide_eq_true_eq]
    exact ⟨fun hkey heq => absurd heq hkey, fun himp hkey => hne hkey (himp hkey)⟩

theorem wf_collapse (key : String) :
    (Value.object (collapseNullableSchemaArray key m)).WF := by
  cases h : (OrdMap.get key m).bind nullableChoice with
  | none => rwa [collapseNullableSchemaArray_eq, h]
  | some r =>
    refine (Value.wf_object _).mpr ⟨(collapse_perm hm h).1, fun e he => ?_⟩
    obtain ⟨hmem, -⟩ | hbrought := (mem_collapse hm).mp he
    · exact ((Value.wf_object m).mp hm).2 e hmem
    · rw [broughtBy, h] at hbrought
      exact ((Value.wf_object r).mp (wf_nullableChoice hm h)).2 e (List.mem_of_mem_filter hbrought)

theorem wf_erase (k : String) : (Value.object (OrdMap.erase k m)).WF := by
  obtain ⟨hsorted, hfields⟩ := (Value.wf_object m).mp hm
  exact (Value.wf_object _).mpr
    ⟨OrdMap.sorted_erase hsorted k, fun e he => hfields e (List.mem_of_mem_filter he)⟩

theorem wf_collapseType : (Value.object (collapseNullableTypeArray m)).WF := by
  obtain ⟨hsorted, hfields⟩ := (Value.wf_object m).mp hm
  rw [collapseNullableTypeArray_eq]
  cases (OrdMap.get "type" m).bind nullableType with
  | none => exact hm
  | some nonNull =>
    refine (Value.wf_object _).mpr ⟨OrdMap.sorted_insert hsorted _ _, fun e he => ?_⟩
    obtain rfl | he := OrdMap.mem_insert he
    · exact Value.wf_string nonNull
    · exact hfields e he

theorem wf_sanitizeFields : (Value.object (sanitizeFields m)).WF :=
  wf_collapse (wf_collapse (wf_collapseType (wf_erase hm "default")) "anyOf") "oneOf"

end

theorem wf_sanitize {v : Value} (hv : v.WF) : (sanitizeLlamacppToolSchema v).WF := by
  induction v using sanitize_induct with
  | scalar v hobject harray => rwa [sanitize_scalar hobject harray]
  | array vs ih =>
    rw [sanitize_array, Value.wf_array]
    intro w hw
    obtain ⟨v, hmem, rfl⟩ := List.mem_map.mp hw
    exact ih v hmem ((Value.wf_array vs).mp hv v hmem)
  | object m ih =>
    obtain ⟨hsorted, hfields⟩ := (Value.wf_object _).mp (wf_sanitizeFields hv)
    rw [sanitize_object, Value.wf_object]
    refine ⟨OrdMap.sorted_map hsorted fun _ => sanitizeLlamacppToolSchema, fun e he => ?_⟩
    obtain ⟨e', hmem, rfl⟩ := List.mem_map.mp he
    exact ih e' hmem (hfields e' hmem)

/-! ### What sanitizing the values does not change -/

@[simp] theorem asStr_sanitize (v : Value) : (sanitizeLlamacppToolSchema v).asStr = v.asStr := by
  cases v with
  | object m => rw [sanitize_object]; rfl
  | array vs => rw [sanitize_array]; rfl
  | _ => rw [sanitize_scalar rfl rfl]

/-- The type is null and nothing else. -/
def IsNullType (type : Option Value) : Bool :=
  match type with
  | some (.string typeName) => typeName == "null"
  | some (.array types) => types.all fun typeName => typeName.asStr == some "null"
  | _ => false

theorem isNullSchema_eq (v : Value) : isNullSchema v = IsNullType (v.get "type") := rfl

theorem isNullType_map (type : Option Value) :
    IsNullType (type.map sanitizeLlamacppToolSchema) = IsNullType type := by
  cases type with
  | none => rfl
  | some v =>
    cases v with
    | object m => rw [Option.map_some, sanitize_object]; rfl
    | array vs =>
      rw [Option.map_some, sanitize_array, IsNullType, IsNullType, List.all_map]
      simp [Function.comp_def]
    | _ => rw [Option.map_some, sanitize_scalar rfl rfl]

theorem mapM_asStr_eq_some {vs : List Value} {types : List String}
    (h : vs.mapM Value.asStr = some types) : vs = types.map Value.string := by
  induction vs generalizing types with
  | nil =>
    rw [List.mapM_nil] at h
    cases h
    rfl
  | cons v vs ih =>
    rw [List.mapM_cons] at h
    obtain ⟨name, hname, h⟩ := Option.bind_eq_some_iff.mp h
    obtain ⟨names, hnames, h⟩ := Option.bind_eq_some_iff.mp h
    cases h
    rw [Value.asStr_eq_some.mp hname, ih hnames, List.map_cons]

theorem isNullType_of_nullable {v : Value} {nonNull : String} (h : nullableType v = some nonNull) :
    nonNull ≠ "null" ∧ IsNullType (some v) = false := by
  unfold nullableType at h
  split at h
  · next types htypes =>
    split at h
    · next name hfilter =>
      split_ifs at h
      cases h
      have hmem : nonNull ∈ types.filter (· ≠ "null") := hfilter ▸ List.mem_singleton_self _
      obtain ⟨hmem, hne⟩ := List.mem_filter.mp hmem
      have hne : nonNull ≠ "null" := of_decide_eq_true hne
      obtain ⟨vs, hvs, hnames⟩ := Option.bind_eq_some_iff.mp htypes
      rw [Value.asArray_eq_some.mp hvs, mapM_asStr_eq_some hnames, IsNullType, List.all_eq_false]
      exact ⟨hne, .string nonNull, List.mem_map_of_mem hmem, by simpa using hne⟩
    · cases h
  · cases h

theorem isNullType_collapseType (m : List (String × Value)) :
    IsNullType (OrdMap.get "type" (collapseNullableTypeArray m)) =
      IsNullType (OrdMap.get "type" m) := by
  rw [collapseNullableTypeArray_eq]
  cases h : (OrdMap.get "type" m).bind nullableType with
  | none => rfl
  | some nonNull =>
    obtain ⟨v, hget, hv⟩ := Option.bind_eq_some_iff.mp h
    obtain ⟨hne, hnull⟩ := isNullType_of_nullable hv
    rw [OrdMap.get_insert_self, hget, hnull]
    simpa [IsNullType] using hne

theorem isNullType_collapse {key : String} (hkey : key ≠ "type") (m : List (String × Value)) :
    IsNullType (OrdMap.get "type" (collapseNullableSchemaArray key m)) =
      IsNullType (OrdMap.get "type" m) := by
  rw [collapseNullableSchemaArray_eq]
  cases h : (OrdMap.get key m).bind nullableChoice with
  | none => rfl
  | some r =>
    obtain ⟨v, -, hv⟩ := Option.bind_eq_some_iff.mp h
    obtain ⟨items, -, -, hnull⟩ := nullableChoice_mem hv
    rw [get_foldl_insertAbsent, OrdMap.get_erase_ne hkey.symm]
    cases htype : OrdMap.get "type" m with
    | some type => rfl
    | none => exact hnull

/-- The schemas of null stay the same schemas. -/
@[simp] theorem isNullSchema_sanitize (v : Value) :
    isNullSchema (sanitizeLlamacppToolSchema v) = isNullSchema v := by
  cases v with
  | object m =>
    rw [sanitize_object, isNullSchema_eq, isNullSchema_eq, Value.get_object, Value.get_object,
      OrdMap.get_map "type" fun _ => sanitizeLlamacppToolSchema, isNullType_map, sanitizeFields,
      isNullType_collapse (by decide), isNullType_collapse (by decide), isNullType_collapseType,
      OrdMap.get_erase_ne (by decide)]
  | array vs => rw [sanitize_array]; rfl
  | _ => rw [sanitize_scalar rfl rfl]

theorem nullableType_sanitize (v : Value) :
    nullableType (sanitizeLlamacppToolSchema v) = nullableType v := by
  cases v with
  | object m => rw [sanitize_object]; rfl
  | array vs =>
    have hnames : (vs.map sanitizeLlamacppToolSchema).mapM Value.asStr = vs.mapM Value.asStr := by
      rw [List.mapM_map]
      exact congrArg (List.mapM · vs) (funext asStr_sanitize)
    rw [sanitize_array, nullableType, nullableType, Value.asArray, Value.asArray,
      Option.bind_some, Option.bind_some, hnames]
  | _ => rw [sanitize_scalar rfl rfl]

theorem nullableChoice_sanitize (v : Value) :
    nullableChoice (sanitizeLlamacppToolSchema v) = none ↔ nullableChoice v = none := by
  cases v with
  | object m => rw [sanitize_object]; rfl
  | array vs =>
    have hfilter : ((vs.map sanitizeLlamacppToolSchema).filter fun item => !isNullSchema item) =
        (vs.filter fun item => !isNullSchema item).map sanitizeLlamacppToolSchema := by
      rw [List.filter_map]
      simp [Function.comp_def]
    have hany : (vs.map sanitizeLlamacppToolSchema).any isNullSchema = vs.any isNullSchema := by
      simp [List.any_map, Function.comp_def]
    rw [sanitize_array, nullableChoice, nullableChoice, hfilter, hany]
    rcases vs.filter fun item => !isNullSchema item with _ | ⟨item, _ | ⟨other, rest⟩⟩
    · rfl
    · cases item with
      | object m =>
        rw [List.map_singleton, sanitize_object]
        dsimp only
        split_ifs <;> simp
      | array vs => rw [List.map_singleton, sanitize_array]
      | _ => rw [List.map_singleton, sanitize_scalar rfl rfl]
    · simp
  | _ => rw [sanitize_scalar rfl rfl]

/-- Sanitizing the value of a keyword changes nothing about whether it is understood. -/
theorem offends_sanitize (k : String) (v : Value) :
    Offends k (sanitizeLlamacppToolSchema v) ↔ Offends k v := by
  rw [Offends, Offends, nullableType_sanitize, ne_eq, ne_eq, nullableChoice_sanitize]

theorem cleanNode_map (m : List (String × Value)) :
    CleanNode (m.map fun e => (e.1, sanitizeLlamacppToolSchema e.2)) ↔ CleanNode m := by
  rw [CleanNode, CleanNode, List.forall_mem_map]
  exact forall₂_congr fun e _ => not_congr (offends_sanitize e.1 e.2)

/-! ### What sanitizing an object takes away -/

section

variable {m : List (String × Value)} (hm : (Value.object m).WF)

include hm

theorem size_collapse_lt {key : String} {v : Value} (hget : OrdMap.get key m = some v)
    (h : nullableChoice v ≠ none) :
    Value.sizeEntries (collapseNullableSchemaArray key m) < Value.sizeEntries m := by
  obtain ⟨r, hr⟩ := Option.ne_none_iff_exists'.mp h
  have hbind : (OrdMap.get key m).bind nullableChoice = some r := by rw [hget, Option.bind_some, hr]
  obtain ⟨items, hv, hmem, -⟩ := nullableChoice_mem hr
  have hobject : (Value.object r).size < v.size := hv ▸ Value.size_lt_of_mem hmem
  have hbrought : Value.sizeEntries (broughtBy key m) ≤ Value.sizeEntries r := by
    rw [broughtBy, hbind]
    exact Value.sizeEntries_filter_le _ r
  have hparts := Value.sizeEntries_perm (collapse_perm hm hbind).2
  rw [Value.sizeEntries_append] at hparts
  have hwhole := Value.sizeEntries_erase ((Value.wf_object m).mp hm).1 hget
  rw [Value.size_object] at hobject
  omega

theorem size_collapse_le (key : String) :
    Value.sizeEntries (collapseNullableSchemaArray key m) ≤ Value.sizeEntries m := by
  cases h : (OrdMap.get key m).bind nullableChoice with
  | none => rw [collapseNullableSchemaArray_eq, h]
  | some r =>
    obtain ⟨v, hget, hv⟩ := Option.bind_eq_some_iff.mp h
    exact (size_collapse_lt hm hget (hv ▸ Option.some_ne_none r)).le

theorem size_collapseType_lt {v : Value} (hget : OrdMap.get "type" m = some v)
    (h : nullableType v ≠ none) :
    Value.sizeEntries (collapseNullableTypeArray m) < Value.sizeEntries m := by
  obtain ⟨nonNull, hv⟩ := Option.ne_none_iff_exists'.mp h
  have hsorted : OrdMap.Sorted m := ((Value.wf_object m).mp hm).1
  -- a list of types is longer than one of its types
  have hsize : 1 < v.size := by
    obtain ⟨-, hnull⟩ := isNullType_of_nullable hv
    cases v with
    | array vs =>
      obtain ⟨w, hw, -⟩ := List.all_eq_false.mp hnull
      exact lt_of_le_of_lt (Value.size_pos w) (Value.size_lt_of_mem hw)
    | _ => exact nomatch hv
  have hwhole := Value.sizeEntries_erase hsorted hget
  rw [collapseNullableTypeArray_eq, hget, Option.bind_some, hv]
  dsimp only
  rw [Value.sizeEntries_insert hsorted, Value.size_string]
  omega

theorem size_collapseType_le :
    Value.sizeEntries (collapseNullableTypeArray m) ≤ Value.sizeEntries m := by
  cases h : (OrdMap.get "type" m).bind nullableType with
  | none => rw [collapseNullableTypeArray_eq, h]
  | some nonNull =>
    obtain ⟨v, hget, hv⟩ := Option.bind_eq_some_iff.mp h
    exact (size_collapseType_lt hm hget (hv ▸ Option.some_ne_none nonNull)).le

theorem size_sanitizeFields_le :
    Value.sizeEntries (sanitizeFields m) ≤ Value.sizeEntries m := by
  have herase := wf_erase hm "default"
  have htype := wf_collapseType herase
  calc Value.sizeEntries (sanitizeFields m)
    _ ≤ Value.sizeEntries (collapseNullableSchemaArray "anyOf"
          (collapseNullableTypeArray (OrdMap.erase "default" m))) :=
      size_collapse_le (wf_collapse htype "anyOf") "oneOf"
    _ ≤ Value.sizeEntries (collapseNullableTypeArray (OrdMap.erase "default" m)) :=
      size_collapse_le htype "anyOf"
    _ ≤ Value.sizeEntries (OrdMap.erase "default" m) := size_collapseType_le herase
    _ ≤ Value.sizeEntries m := Value.sizeEntries_filter_le _ m

/-- Where a field is not understood, something is taken away. -/
theorem size_sanitizeFields_lt (h : ¬CleanNode m) :
    Value.sizeEntries (sanitizeFields m) < Value.sizeEntries m := by
  have hsorted : OrdMap.Sorted m := ((Value.wf_object m).mp hm).1
  have herase := wf_erase hm "default"
  have htype := wf_collapseType herase
  have hany := wf_collapse htype "anyOf"
  have h₁ := Value.sizeEntries_filter_le (fun e => e.1 ≠ "default") m
  have h₂ := size_collapseType_le herase
  have h₃ := size_collapse_le htype "anyOf"
  have h₄ := size_collapse_le hany "oneOf"
  rw [← OrdMap.erase] at h₁
  rw [sanitizeFields]
  rw [CleanNode] at h
  push Not at h
  obtain ⟨⟨k, v⟩, hmem, hoffends⟩ := h
  have hget : OrdMap.get k m = some v := (OrdMap.get_eq_some_iff hsorted).mpr hmem
  obtain rfl | ⟨rfl, hnullable⟩ | ⟨hk, hchoice⟩ := hoffends
  · have hlost := Value.sizeEntries_erase hsorted hget
    have hpos := v.size_pos
    omega
  · have hlost := size_collapseType_lt herase (hget ▸ OrdMap.get_erase_ne (by decide) m) hnullable
    omega
  · have hget₂ : OrdMap.get k (collapseNullableTypeArray (OrdMap.erase "default" m)) = some v := by
      obtain rfl | rfl := hk <;>
        rw [get_collapseType_ne (by decide), OrdMap.get_erase_ne (by decide), hget]
    obtain rfl | rfl := hk
    · have hlost := size_collapse_lt htype hget₂ hchoice
      omega
    · by_cases hfirst : ∃ w, OrdMap.get "anyOf"
          (collapseNullableTypeArray (OrdMap.erase "default" m)) = some w ∧ nullableChoice w ≠ none
      · obtain ⟨w, hw, hchoice⟩ := hfirst
        have hlost := size_collapse_lt htype hw hchoice
        omega
      · -- the first choice stays, and with it the second
        have hsame : collapseNullableSchemaArray "anyOf"
            (collapseNullableTypeArray (OrdMap.erase "default" m)) =
              collapseNullableTypeArray (OrdMap.erase "default" m) :=
          collapse_of_none fun w hw => by_contra fun hne => hfirst ⟨w, hw, hne⟩
        have hlost := size_collapse_lt htype hget₂ hchoice
        rw [hsame]
        omega

/-- **An object is left alone exactly where all its fields are understood.** -/
theorem sanitizeFields_eq_self_iff : sanitizeFields m = m ↔ CleanNode m := by
  have hsorted : OrdMap.Sorted m := ((Value.wf_object m).mp hm).1
  constructor
  · intro h
    by_contra hclean
    have hlost := size_sanitizeFields_lt hm hclean
    rw [h] at hlost
    exact lt_irrefl _ hlost
  · intro hclean
    have hfield {k : String} {v : Value} (hget : OrdMap.get k m = some v) : ¬Offends k v :=
      hclean (k, v) (OrdMap.mem_of_get hget)
    have hdefault : OrdMap.erase "default" m = m :=
      OrdMap.erase_of_not_mem fun e he hk => hclean e he (Or.inl hk)
    rw [sanitizeFields, hdefault,
      collapseType_of_none fun v hv => by_contra fun h => hfield hv (Or.inr (Or.inl ⟨rfl, h⟩)),
      collapse_of_none fun v hv =>
        by_contra fun h => hfield hv (Or.inr (Or.inr ⟨Or.inl rfl, h⟩)),
      collapse_of_none fun v hv =>
        by_contra fun h => hfield hv (Or.inr (Or.inr ⟨Or.inr rfl, h⟩))]

end

theorem size_sanitize_le {v : Value} (hv : v.WF) :
    (sanitizeLlamacppToolSchema v).size ≤ v.size := by
  induction v using sanitize_induct with
  | scalar v hobject harray => rw [sanitize_scalar hobject harray]
  | array vs ih =>
    rw [sanitize_array, Value.size_array, Value.size_array, List.map_map]
    exact Nat.succ_le_succ (List.sum_le_sum fun v hmem =>
      ih v hmem ((Value.wf_array vs).mp hv v hmem))
  | object m ih =>
    have hfields := ((Value.wf_object _).mp (wf_sanitizeFields hv)).2
    rw [sanitize_object, Value.size_object, Value.size_object]
    exact Nat.succ_le_succ ((Value.sizeEntries_map_le fun e he => ih e he (hfields e he)).trans
      (size_sanitizeFields_le hv))

/-! ### The fixpoint -/

theorem map_eq_self_iff {α : Type} {f : α → α} {l : List α} :
    l.map f = l ↔ ∀ x ∈ l, f x = x := by
  constructor
  · intro h
    exact List.map_inj_left.mp (h.trans (List.map_id l).symm)
  · intro h
    exact (List.map_congr_left h).trans (List.map_id l)

theorem CleanEverywhere.sanitize_eq {v : Value} (h : CleanEverywhere v) (hv : v.WF) :
    sanitizeLlamacppToolSchema v = v := by
  induction h with
  | scalar hobject harray => exact sanitize_scalar hobject harray
  | @array vs _ ih =>
    rw [sanitize_array]
    exact congrArg Value.array (map_eq_self_iff.mpr fun v hmem =>
      ih v hmem ((Value.wf_array vs).mp hv v hmem))
  | @object m node _ ih =>
    rw [sanitize_object, (sanitizeFields_eq_self_iff hv).mpr node]
    refine congrArg Value.object (map_eq_self_iff.mpr fun e hmem => ?_)
    rw [ih e hmem (((Value.wf_object m).mp hv).2 e hmem)]

/-- **Only values whose objects are all understood are left alone.** -/
theorem cleanEverywhere_iff {v : Value} (hv : v.WF) :
    CleanEverywhere v ↔ sanitizeLlamacppToolSchema v = v := by
  refine ⟨fun h => h.sanitize_eq hv, fun h => ?_⟩
  induction v using Value.induct with
  | array vs ih =>
    rw [sanitize_array, Value.array.injEq] at h
    refine .array fun v hmem => ih v hmem ((Value.wf_array vs).mp hv v hmem) ?_
    exact map_eq_self_iff.mp h v hmem
  | object m ih =>
    rw [sanitize_object, Value.object.injEq] at h
    have hfields := ((Value.wf_object _).mp (wf_sanitizeFields hv)).2
    have hsize : Value.sizeEntries m ≤ Value.sizeEntries (sanitizeFields m) := by
      conv_lhs => rw [← h]
      exact Value.sizeEntries_map_le fun e he => size_sanitize_le (hfields e he)
    have hnode : CleanNode m :=
      by_contra fun hclean => (size_sanitizeFields_lt hv hclean).not_ge hsize
    rw [(sanitizeFields_eq_self_iff hv).mpr hnode] at h
    refine .object hnode fun e hmem => ih e hmem (((Value.wf_object m).mp hv).2 e hmem) ?_
    exact congrArg Prod.snd (map_eq_self_iff.mp h e hmem)
  | _ => exact .scalar rfl rfl

theorem CleanEverywhere.lookup {v w : Value} (h : CleanEverywhere v) {p : List Step}
    (hp : v.lookup p = some w) : CleanEverywhere w := by
  induction p generalizing v with
  | nil =>
    cases hp
    exact h
  | cons s p ih =>
    obtain ⟨u, hu, hw⟩ := Option.bind_eq_some_iff.mp hp
    refine ih ?_ hw
    cases h with
    | @object m _ fields =>
      cases s with
      | key k => exact fields _ (OrdMap.mem_of_get hu)
      | index i => exact nomatch hu
    | @array vs elements =>
      cases s with
      | key k => exact nomatch hu
      | index i => exact elements u (List.mem_of_getElem? hu)
    | scalar hobject harray =>
      cases v with
      | object m => exact nomatch hobject
      | array vs => exact nomatch harray
      | _ => cases s <;> exact nomatch hu

theorem CleanEverywhere.node {m : List (String × Value)} (h : CleanEverywhere (.object m)) :
    CleanNode m := by
  cases h with
  | object node _ => exact node
  | scalar hobject _ => exact nomatch hobject

/-- The code comes by an object with these fields. -/
inductive Visited : Value → List (String × Value) → Prop where
  | here (m : List (String × Value)) : Visited (.object m) m
  | field {m m' : List (String × Value)} {e : String × Value} (he : e ∈ sanitizeFields m)
      (h : Visited e.2 m') : Visited (.object m) m'
  | element {vs : List Value} {v : Value} {m' : List (String × Value)} (hv : v ∈ vs)
      (h : Visited v m') : Visited (.array vs) m'

/-- The choices of an object that are collapsed bring no field that is not understood, unless it
is collapsed after them. -/
structure MergesCleanly (m : List (String × Value)) : Prop where
  anyOf : ∀ e ∈ broughtBy "anyOf" (collapseNullableTypeArray (OrdMap.erase "default" m)),
    Offends e.1 e.2 → e.1 = "oneOf"
  oneOf : ∀ e ∈ broughtBy "oneOf" (collapseNullableSchemaArray "anyOf"
    (collapseNullableTypeArray (OrdMap.erase "default" m))), ¬Offends e.1 e.2

section

variable {m : List (String × Value)} (hm : (Value.object m).WF)

include hm

/-- Before the choices are collapsed, they are all that may not be understood. -/
theorem offends_first {e : String × Value}
    (he : e ∈ collapseNullableTypeArray (OrdMap.erase "default" m)) (h : Offends e.1 e.2) :
    (e.1 = "anyOf" ∨ e.1 = "oneOf") ∧ nullableChoice e.2 ≠ none := by
  have herase := wf_erase hm "default"
  have hget := (OrdMap.get_eq_some_iff ((Value.wf_object _).mp (wf_collapseType herase)).1).mpr he
  obtain hdefault | ⟨htype, hnullable⟩ | hchoice := h
  · rw [hdefault, get_collapseType_ne (by decide), OrdMap.get_erase_self] at hget
    exact nomatch hget
  · rw [htype, collapseNullableTypeArray_eq] at hget
    cases hbind : (OrdMap.get "type" (OrdMap.erase "default" m)).bind nullableType with
    | none =>
      rw [hbind] at hget
      exact absurd (Option.bind_eq_none_iff.mp hbind e.2 hget) hnullable
    | some nonNull =>
      rw [hbind] at hget
      have hvalue : Value.string nonNull = e.2 :=
        Option.some.inj ((OrdMap.get_insert_self _ _ _).symm.trans hget)
      rw [← hvalue] at hnullable
      exact absurd rfl hnullable
  · exact hchoice

/-- **An object is understood once it is sanitized exactly where nothing else is brought in.** -/
theorem cleanNode_sanitizeFields_iff : CleanNode (sanitizeFields m) ↔ MergesCleanly m := by
  have htype := wf_collapseType (wf_erase hm "default")
  have hany := wf_collapse htype "anyOf"
  constructor
  · intro h
    refine ⟨fun e he hoffends => by_contra fun hne => ?_, fun e he => ?_⟩
    · have hmem := (mem_collapse htype).mpr (Or.inr he)
      exact h e ((mem_collapse hany).mpr (Or.inl ⟨hmem, fun hk => absurd hk hne⟩)) hoffends
    · exact h e ((mem_collapse hany).mpr (Or.inr he))
  · intro h e he hoffends
    obtain ⟨he, hone⟩ | he := (mem_collapse hany).mp he
    · have hstays (hk : e.1 ≠ "oneOf") : False := by
        obtain ⟨he, hstays⟩ | he := (mem_collapse htype).mp he
        · obtain ⟨hkey, hchoice⟩ := offends_first hm he hoffends
          exact hchoice (hstays (hkey.resolve_right hk))
        · exact hk (h.anyOf e he hoffends)
      by_cases hk : e.1 = "oneOf"
      · obtain hdefault | ⟨htype, -⟩ | ⟨-, hchoice⟩ := hoffends
        · rw [hk] at hdefault
          exact absurd hdefault (by decide)
        · rw [hk] at htype
          exact absurd htype (by decide)
        · exact hchoice (hone hk)
      · exact hstays hk
    · exact h.oneOf e he hoffends

end

theorem cleanEverywhere_sanitize_iff {v : Value} (hv : v.WF) :
    CleanEverywhere (sanitizeLlamacppToolSchema v) ↔ ∀ m, Visited v m → MergesCleanly m := by
  induction v using sanitize_induct with
  | scalar v hobject harray =>
    rw [sanitize_scalar hobject harray]
    refine ⟨fun _ m hm => ?_, fun _ => .scalar hobject harray⟩
    cases hm with
    | element => exact nomatch harray
    | _ => exact nomatch hobject
  | array vs ih =>
    have helements := (Value.wf_array vs).mp hv
    rw [sanitize_array]
    constructor
    · intro h m hm
      cases h with
      | array elements =>
        cases hm with
        | element hmem hm =>
          exact (ih _ hmem (helements _ hmem)).mp (elements _ (List.mem_map_of_mem hmem)) m hm
      | scalar _ harray => exact nomatch harray
    · intro h
      refine .array fun w hw => ?_
      obtain ⟨v, hmem, rfl⟩ := List.mem_map.mp hw
      exact (ih v hmem (helements v hmem)).mpr fun m hm => h m (.element hmem hm)
  | object m ih =>
    have hfields := ((Value.wf_object _).mp (wf_sanitizeFields hv)).2
    rw [sanitize_object]
    constructor
    · intro h m' hm'
      have hnode := (cleanNode_sanitizeFields_iff hv).mp ((cleanNode_map _).mp h.node)
      cases h with
      | object _ fields =>
        cases hm' with
        | here => exact hnode
        | field he hm' =>
          exact (ih _ he (hfields _ he)).mp (fields _ (List.mem_map_of_mem he)) m' hm'
      | scalar hobject _ => exact nomatch hobject
    · intro h
      refine .object ((cleanNode_map _).mpr ((cleanNode_sanitizeFields_iff hv).mpr (h m (.here m))))
        fun e he => ?_
      obtain ⟨e', hmem, rfl⟩ := List.mem_map.mp he
      exact (ih e' hmem (hfields e' hmem)).mpr fun m' hm' => h m' (.field hmem hm')

/-- **Sanitizing reaches a fixpoint that is understood** exactly where no collapsed choice brings
a field that had been removed or collapsed before. -/
theorem sanitized_fixpoint_iff {schema : Value} (hschema : schema.WF) :
    ReachesFixpoint schema ↔ ∀ m, Visited schema m → MergesCleanly m := by
  rw [← cleanEverywhere_sanitize_iff hschema]
  have hwf := wf_sanitize hschema
  constructor
  · intro h
    exact (cleanEverywhere_iff hwf).mpr h.2
  · intro h
    exact ⟨fun p m _ hp => (h.lookup hp).node, (cleanEverywhere_iff hwf).mp h⟩

/-- A number that may be null, by a choice. -/
def sampleNullable : Value :=
  .obj [("anyOf", .array [.obj [("type", .string "integer")], .obj [("type", .string "null")]]),
    ("default", .u64 10)]

/-- The choice is collapsed, and brings the type. -/
theorem sanitized_fixpoint_iff_sample : ReachesFixpoint sampleNullable := by
  have hwf : sampleNullable.WF := Value.wf_obj (by simp [Value.wf_obj])
  refine (sanitized_fixpoint_iff hwf).mpr fun m hm => ?_
  cases hm with
  | here => exact ⟨by decide +kernel, by decide +kernel⟩
  | field he hm =>
    have hfields : sanitizeFields (OrdMap.ofList [("anyOf", .array
        [.obj [("type", .string "integer")], .obj [("type", .string "null")]]),
          ("default", .u64 10)]) = [("type", .string "integer")] := by
      decide +kernel
    rw [hfields] at he
    obtain rfl := List.mem_singleton.mp he
    exact nomatch hm

/-- A choice beside null that has a default. -/
def sampleChoice : Value :=
  .obj [("anyOf", .array [.obj [("type", .string "null")],
    .obj [("type", .string "string"), ("default", .string "x")]])]

/-- The default of an object is brought in after the defaults have been removed. -/
theorem not_reachesFixpoint_sampleChoice : ¬ReachesFixpoint sampleChoice := by
  intro h
  have hnode : CleanNode [("default", .string "x"), ("type", .string "string")] :=
    h.1 [] _ rfl (by decide +kernel)
  exact hnode ("default", .string "x") (by simp) (Or.inl rfl)

end Onair
