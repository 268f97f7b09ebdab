import Onair.Core.Buffered
import Onair.Lib.Json.Lines

/-!
# Names of models in a value

* `namesModel`: some object in a value has the field `model` with a given name;
* `namesModel_rewrite`, `rewriteResponseModels_of_not_names`: what the rewriting of models changes;
* `namesModel_ensure`, `namesModel_blur`: filling in totals, printing and reading show no name;
* `fits_rewrite`, `fits_ensure`: rewriting keeps a value as deep as it is;
* `Template`, `Template.fill`, `rewrite_fill`: **values with places for the name of a model**.
-/

namespace Onair

open Json

/-! ### Names in a value -/

mutual
/-- Some object in the value has the field `model` with the given name. -/
def namesModel (name : String) : Value → Bool
  | .array vs => namesModelList name vs
  | .object m => namesModelEntries name m
  | _ => false
/-- `namesModel` for some element of an array. -/
def namesModelList (name : String) : List Value → Bool
  | [] => false
  | v :: vs => namesModel name v || namesModelList name vs
/-- `namesModel` for some field of an object, or its field `model` has the name. -/
def namesModelEntries (name : String) : List (String × Value) → Bool
  | [] => false
  | (k, v) :: m =>
    (k == "model" && v.asStr == some name) || namesModel name v || namesModelEntries name m
end

/-- The field is `model` with the given name, or names it further down. -/
def fieldNames (name : String) (e : String × Value) : Bool :=
  (e.1 == "model" && e.2.asStr == some name) || namesModel name e.2

@[simp] theorem namesModel_array (name : String) (vs : List Value) :
    namesModel name (.array vs) = vs.any (namesModel name) := by
  induction vs with
  | nil => rfl
  | cons v vs ih => exact congrArg (namesModel name v || ·) ih

@[simp] theorem namesModel_object (name : String) (m : List (String × Value)) :
    namesModel name (.object m) = m.any (fieldNames name) := by
  induction m with
  | nil => rfl
  | cons e m ih => exact congrArg (fieldNames name e || ·) ih

@[simp] theorem namesModel_null (name : String) : namesModel name .null = false := rfl

@[simp] theorem namesModel_string (name s : String) : namesModel name (.string s) = false := rfl

@[simp] theorem namesModel_number (name : String) (n : Number) :
    namesModel name (.number n) = false := rfl

@[simp] theorem namesModel_u64 (name : String) (n : UInt64) :
    namesModel name (.u64 n) = false := namesModel_number name _

theorem namesModel_leaf {name : String} {v : Value} (harray : v.asArray = none)
    (hobject : v.asObject = none) : namesModel name v = false := by
  cases v with
  | array vs => cases harray
  | object m => cases hobject
  | _ => rfl

theorem fieldNames_eq (name : String) (e : String × Value) :
    fieldNames name e = ((e.1 == "model" && e.2.asStr == some name) || namesModel name e.2) := rfl

theorem fieldNames_of_ne {name k : String} (h : k ≠ "model") (v : Value) :
    fieldNames name (k, v) = namesModel name v := by
  rw [fieldNames_eq, beq_false_of_ne h, Bool.false_and, Bool.false_or]

theorem fieldNames_of_get {name k : String} {m : List (String × Value)} {v : Value}
    (h : OrdMap.get k m = some v) (hv : fieldNames name (k, v) = true) :
    namesModel name (.object m) = true := by
  rw [namesModel_object, List.any_eq_true]
  exact ⟨(k, v), OrdMap.mem_of_get h, hv⟩

theorem namesModel_obj {name : String} {l : List (String × Value)}
    (h : ∀ e ∈ l, fieldNames name e = false) : namesModel name (.obj l) = false := by
  rw [Value.obj, namesModel_object, List.any_eq_false]
  exact fun e he => Bool.eq_false_iff.mp (h e (OrdMap.mem_ofList he))

theorem namesModel_count (name : String) {k : String} (hk : k ≠ "model") (n : UInt64) :
    namesModel name (.obj [(k, .u64 n)]) = false := by
  refine namesModel_obj ?_
  rw [List.forall_mem_singleton, fieldNames_of_ne hk, namesModel_u64]

theorem namesModel_chatUsage (name : String) (usage : ChatUsage) :
    namesModel name usage.toValue = false := by
  cases usage with
  | detailed fields =>
    refine namesModel_obj ?_
    simp [fieldNames_eq, namesModel_count name (k := "cached_tokens") (by decide),
      namesModel_count name (k := "reasoning_tokens") (by decide)]
  | plain prompt completion total => exact namesModel_obj (by simp [fieldNames_eq])

/-! ### Rewriting -/

section Rewriting

variable {backendModel publicModel : String}

/-- **No rewritten value names the backend model.** -/
theorem namesModel_rewrite (hne : backendModel ≠ publicModel) (v : Value) :
    namesModel backendModel (rewriteResponseModels backendModel publicModel v) = false := by
  induction v using Value.induct with
  | array vs ih =>
    rw [rewriteResponseModels_array, namesModel_array, List.any_map,
      List.any_eq_false]
    intro v hv
    simp [ih v hv]
  | object m ih =>
    rw [rewriteResponseModels_object, namesModel_object, List.any_map,
      List.any_eq_false]
    intro e he
    have hv := ih e he
    by_cases hmodel : e.1 = "model" ∧ e.2.asStr = some backendModel
    · simp [fieldNames_eq, hmodel, hne.symm]
    · have hstr := (keepsReading_rewriteResponseModels backendModel publicModel).asStr e.2
      simp only [Function.comp_apply, if_neg hmodel, fieldNames_eq, hv, hstr]
      simpa using hmodel
  | _ => rfl

/-- A value that does not name the backend model is not changed. -/
theorem rewriteResponseModels_of_not_names {v : Value} (h : namesModel backendModel v = false) :
    rewriteResponseModels backendModel publicModel v = v := by
  induction v using Value.induct with
  | array vs ih =>
    rw [namesModel_array, List.any_eq_false] at h
    rw [rewriteResponseModels_array,
      List.map_congr_left fun v hv => ih v hv (Bool.eq_false_iff.mpr (h v hv)), List.map_id']
  | object m ih =>
    rw [namesModel_object, List.any_eq_false] at h
    rw [rewriteResponseModels_object]
    refine congrArg _ ((List.map_congr_left fun e he => ?_).trans (List.map_id m))
    have hfield := h e he
    simp only [fieldNames_eq, Bool.or_eq_true, Bool.and_eq_true, beq_iff_eq, not_or] at hfield
    rw [if_neg hfield.1, ih e he (Bool.eq_false_iff.mpr hfield.2), id]
  | _ => rfl

end Rewriting

/-! ### Filling in totals, printing and reading -/

theorem namesModel_ensureUsageObject {name : String} {usage : List (String × Value)}
    (h : namesModel name (.object usage) = false) :
    namesModel name (.object (ensureUsageObjectTotalTokens usage)) = false := by
  have hinsert (n : UInt64) :
      namesModel name (.object (OrdMap.insert "total_tokens" (.u64 n) usage)) = false := by
    rw [namesModel_object, List.any_eq_false] at h ⊢
    intro e he
    obtain rfl | he := OrdMap.mem_insert he
    · simp [fieldNames_eq]
    · exact h e he
  unfold ensureUsageObjectTotalTokens
  split_ifs
  · exact h
  · dsimp only
    split
    · split_ifs
      · exact hinsert _
      · exact h
    · exact h

/-- **Filling in the totals adds no name.** -/
theorem namesModel_ensure {name : String} {v : Value} (h : namesModel name v = false) :
    namesModel name (ensureUsageTotalTokens v) = false := by
  induction v using Value.induct with
  | array vs ih =>
    rw [namesModel_array, List.any_eq_false] at h
    rw [ensureUsageTotalTokens_array_eq, namesModel_array, List.any_map,
      List.any_eq_false]
    intro v hv
    simp [ih v hv (Bool.eq_false_iff.mpr (h v hv))]
  | object m ih =>
    rw [namesModel_object, List.any_eq_false] at h
    rw [ensureUsageTotalTokens_object_eq, namesModel_object, List.any_map,
      List.any_eq_false]
    intro e he
    have hfield := h e he
    simp only [fieldNames_eq, Bool.or_eq_true, Bool.and_eq_true, beq_iff_eq, not_or] at hfield
    have hv := ih e he (Bool.eq_false_iff.mpr hfield.2)
    have hnames : namesModel name (ensureEntry e).2 = false := by
      unfold ensureEntry
      dsimp only
      split
      · rename_i usage husage
        rw [husage] at hv
        exact namesModel_ensureUsageObject hv
      · exact hv
    have hstr : (ensureEntry e).1 = "model" → (ensureEntry e).2.asStr = e.2.asStr := by
      intro hmodel
      have husage : (e.1 == "usage") = false := by
        rw [show e.1 = "model" from hmodel]
        rfl
      rw [ensureEntry, husage]
      exact keepsReading_ensureUsageTotalTokens.asStr e.2
    simp only [Function.comp_apply, fieldNames_eq, hnames, Bool.or_false, Bool.and_eq_true,
      beq_iff_eq]
    exact fun hmodel => hfield.1 ⟨hmodel.1, (hstr hmodel.1).symm.trans hmodel.2⟩
  | _ => rfl

/-- Names do not depend on floating point numbers. -/
theorem namesModel_blur (name : String) (v : Value) :
    namesModel name v.blur = namesModel name v := by
  induction v using Value.induct with
  | array vs ih =>
    rw [Value.blur_array, namesModel_array, namesModel_array, List.any_map]
    rw [Bool.eq_iff_iff, List.any_eq_true, List.any_eq_true]
    exact exists_congr fun v => and_congr_right fun hv => by rw [Function.comp_apply, ih v hv]
  | object m ih =>
    rw [Value.blur_object, namesModel_object, namesModel_object, List.any_map]
    rw [Bool.eq_iff_iff, List.any_eq_true, List.any_eq_true]
    refine exists_congr fun e => and_congr_right fun he => ?_
    simp only [Function.comp_apply, fieldNames_eq, Value.asStr_blur, ih e he]
  | _ => rfl

/-! ### Depth -/

theorem fits_rewrite (backendModel publicModel : String) {d : ℕ} {v : Value} (h : v.Fits d) :
    (rewriteResponseModels backendModel publicModel v).Fits d := by
  induction v using Value.induct generalizing d with
  | array vs ih =>
    rw [rewriteResponseModels_array]
    exact h.map_array fun v hv d => ih v hv
  | object m ih =>
    rw [rewriteResponseModels_object]
    refine h.map_object (f := fun k v => if k = "model" ∧ v.asStr = some backendModel then
      .string publicModel else rewriteResponseModels backendModel publicModel v) ?_
    intro e he d hd
    split_ifs
    · exact Value.fits_string d _
    · exact ih e he hd
  | _ => exact h

theorem fits_ensureUsageObject {d : ℕ} {usage : List (String × Value)}
    (h : (Value.object usage).Fits d) :
    (Value.object (ensureUsageObjectTotalTokens usage)).Fits d := by
  have hinsert (n : UInt64) :
      (Value.object (OrdMap.insert "total_tokens" (.u64 n) usage)).Fits d := by
    cases d with
    | zero => exact absurd h.2 (Nat.not_succ_le_zero _)
    | succ d => exact h.insert _ (Value.fits_u64 d n)
  unfold ensureUsageObjectTotalTokens
  split_ifs
  · exact h
  · dsimp only
    split
    · split_ifs
      · exact hinsert _
      · exact h
    · exact h

theorem fits_ensure {d : ℕ} {v : Value} (h : v.Fits d) : (ensureUsageTotalTokens v).Fits d := by
  induction v using Value.induct generalizing d with
  | array vs ih =>
    rw [ensureUsageTotalTokens_array_eq]
    exact h.map_array fun v hv d => ih v hv
  | object m ih =>
    rw [ensureUsageTotalTokens_object_eq]
    refine h.map_object (f := fun k v => (ensureEntry (k, v)).2) fun e he d hd => ?_
    have hv := ih e he hd
    unfold ensureEntry
    dsimp only
    split
    · rename_i usage husage
      rw [husage] at hv
      exact fits_ensureUsageObject hv
    · exact hv
  | _ => exact h

/-! ### Templates -/

/-- A value in which the field `model` of some objects is left open. -/
inductive Template where
  | value (v : Value)
  | array (ts : List Template)
  | object (openModel : Bool) (m : List (String × Template))

namespace Template

theorem induct {P : Template → Prop} (value : ∀ v, P (.value v))
    (array : ∀ ts, (∀ t ∈ ts, P t) → P (.array ts))
    (object : ∀ openModel m, (∀ e ∈ m, P e.2) → P (.object openModel m)) (t : Template) : P t :=
  Template.rec (motive_1 := P) (motive_2 := fun ts => ∀ t ∈ ts, P t)
    (motive_3 := fun m => ∀ e ∈ m, P e.2) (motive_4 := fun e => P e.2)
    value array object (by simp) (fun _ _ ht hts => List.forall_mem_cons.mpr ⟨ht, hts⟩) (by simp)
    (fun _ _ he hm => List.forall_mem_cons.mpr ⟨he, hm⟩) (fun _ _ ht => ht) t

mutual
/-- The template with a name in its open fields. -/
def fill (name : String) : Template → Value
  | .value v => v
  | .array ts => .array (fillList name ts)
  | .object openModel m =>
    .object (if openModel then OrdMap.insert "model" (.string name) (fillEntries name m)
      else fillEntries name m)
/-- `fill` over the elements of an array. -/
def fillList (name : String) : List Template → List Value
  | [] => []
  | t :: ts => fill name t :: fillList name ts
/-- `fill` over the fields of an object. -/
def fillEntries (name : String) : List (String × Template) → List (String × Value)
  | [] => []
  | (k, t) :: m => (k, fill name t) :: fillEntries name m
end

theorem fillList_eq (name : String) (ts : List Template) :
    fillList name ts = ts.map (fill name) := by
  induction ts with
  | nil => rfl
  | cons t ts ih => exact congrArg _ ih

theorem fillEntries_eq (name : String) (m : List (String × Template)) :
    fillEntries name m = m.map fun e => (e.1, fill name e.2) := by
  induction m with
  | nil => rfl
  | cons e m ih => exact congrArg _ ih

/-- The template is a given text. -/
def isText (name : String) : Template → Bool
  | .value v => v.asStr == some name
  | _ => false

mutual
/-- The template names a model apart from its open fields. -/
def namesElsewhere (name : String) : Template → Bool
  | .value v => namesModel name v
  | .array ts => namesElsewhereList name ts
  | .object _ m => namesElsewhereEntries name m
/-- `namesElsewhere` for some element of an array. -/
def namesElsewhereList (name : String) : List Template → Bool
  | [] => false
  | t :: ts => namesElsewhere name t || namesElsewhereList name ts
/-- `namesElsewhere` for some field of an object, or its field `model` is the name. -/
def namesElsewhereEntries (name : String) : List (String × Template) → Bool
  | [] => false
  | (k, t) :: m =>
    (k == "model" && isText name t) || namesElsewhere name t || namesElsewhereEntries name m
end

theorem namesElsewhereList_eq (name : String) (ts : List Template) :
    namesElsewhereList name ts = ts.any (namesElsewhere name) := by
  induction ts with
  | nil => rfl
  | cons t ts ih => exact congrArg _ ih

theorem namesElsewhereEntries_eq (name : String) (m : List (String × Template)) :
    namesElsewhereEntries name m =
      m.any fun e => (e.1 == "model" && isText name e.2) || namesElsewhere name e.2 := by
  induction m with
  | nil => rfl
  | cons e m ih => exact congrArg _ ih

/-- A template that is a given text when it is filled is that text. -/
theorem isText_of_fill {name : String} {t : Template} (h : (t.fill name).asStr = some name) :
    isText name t = true := by
  cases t with
  | value v => simpa [fill, isText] using h
  | array ts => simp [fill, Value.asStr] at h
  | object openModel m => simp [fill, Value.asStr] at h

/-- **A filled template is rewritten into the template filled with the public name.** -/
theorem rewrite_fill {name publicModel : String} {t : Template}
    (h : t.namesElsewhere name = false) :
    rewriteResponseModels name publicModel (t.fill name) = t.fill publicModel := by
  induction t using Template.induct with
  | value v =>
    rw [namesElsewhere] at h
    rw [fill, fill, rewriteResponseModels_of_not_names h]
  | array ts ih =>
    rw [namesElsewhere, namesElsewhereList_eq, List.any_eq_false] at h
    rw [fill, fill, rewriteResponseModels_array, fillList_eq, fillList_eq,
      List.map_map]
    exact congrArg _ (List.map_congr_left fun t ht => ih t ht (Bool.eq_false_iff.mpr (h t ht)))
  | object openModel m ih =>
    rw [namesElsewhere, namesElsewhereEntries_eq, List.any_eq_false] at h
    have hentries : (fillEntries name m).map (fun e => (e.1,
        if e.1 = "model" ∧ e.2.asStr = some name then .string publicModel
        else rewriteResponseModels name publicModel e.2)) = fillEntries publicModel m := by
      rw [fillEntries_eq, fillEntries_eq, List.map_map]
      refine List.map_congr_left fun e he => ?_
      have hfield := h e he
      simp only [Bool.or_eq_true, Bool.and_eq_true, beq_iff_eq, not_or] at hfield
      rw [Function.comp_apply, if_neg fun htext => hfield.1 ⟨htext.1, isText_of_fill htext.2⟩,
        ih e he (Bool.eq_false_iff.mpr hfield.2)]
    rw [fill, fill, rewriteResponseModels_object]
    cases openModel with
    | false => exact congrArg _ hentries
    | true =>
      have hinsert := OrdMap.insert_map "model" (.string name) (fillEntries name m) fun k v =>
        if k = "model" ∧ v.asStr = some name then .string publicModel
        else rewriteResponseModels name publicModel v
      rw [if_pos rfl, if_pos rfl, hinsert, hentries, if_pos ⟨rfl, rfl⟩]

/-- The template is neither an array nor an object. -/
def isScalar : Template → Bool
  | .value v => v.asArray.isNone && v.asObject.isNone
  | _ => false

theorem fill_of_not_scalar {t : Template} (h : t.isScalar = false) (name : String) :
    (t.fill name).asArray.isSome = true ∨ (t.fill name).asObject.isSome = true := by
  cases t with
  | value v =>
    rw [fill]
    cases v with
    | array vs => exact Or.inl rfl
    | object m => exact Or.inr rfl
    | _ => cases h
  | array ts =>
    rw [fill]
    exact Or.inl rfl
  | object openModel m =>
    rw [fill]
    exact Or.inr rfl

end Template

end Onair
