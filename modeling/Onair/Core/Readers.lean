import Onair.Core.Usage
import Onair.Lib.Json.Paths

/-!
# The two readers of token usage

The tokens of an answer are counted before it is rewritten, and the client reads the total from the
usage objects of the rewritten answer. Where a usage object has no total, both make one from the
other counts: the counter adds the chat and the Responses name of each count, the rewriting takes
the first of the two that is there.

* `UsageAt`, `ReadersAgree`: the usage objects of an answer, and that both readers give the same
  total for each;
* `spareCounts`, `TotalsAgree`: the counts that only one reader looks at, and when that is no
  difference;
* `overwritten`: the parts of a total that is replaced;
* `lookup_ensureAs`: the rewritten answer, part by part;
* `eraseTotals`: the answer without its totals;
* **`usageReaders_agree_iff`**: when the readers agree, and that the rewriting changes totals only,
  and changes nothing when it is done twice.
-/

namespace Onair

open Json

/-! ### Usage objects -/

/-- The path ends with a field `usage`, or is empty and was reached through one. -/
def endsWithUsage (through : Bool) : List Step → Bool
  | [] => through
  | .key k :: p => endsWithUsage (k == "usage") p
  | .index _ :: p => endsWithUsage false p

/-- There is a usage object at the path. -/
def UsageAt (v : Value) (p : List Step) (usage : List (String × Value)) : Prop :=
  v.lookup p = some (.object usage) ∧ endsWithUsage false p = true

/-- **Both readers give the same total**: whatever total the client finds in a usage object is the
one that was counted. -/
def ReadersAgree (v : Value) : Prop :=
  ∀ p usage total, UsageAt v p usage →
    (ensureUsageTotalTokens v).lookup (p ++ [.key "total_tokens"]) = some total →
      total = .u64 (usageFieldsFromObject (some usage)).total

/-- The input tokens that a total is made from. -/
def inputTokens (usage : List (String × Value)) : Option UInt64 :=
  (numberField usage "prompt_tokens").or (numberField usage "input_tokens")

/-- The output tokens that a total is made from. -/
def outputTokens (usage : List (String × Value)) : Option UInt64 :=
  (numberField usage "completion_tokens").or (numberField usage "output_tokens")

/-- The total is made from the other counts. -/
def FilledIn (usage : List (String × Value)) : Prop :=
  numberField usage "total_tokens" = none ∧
    ∃ i o, inputTokens usage = some i ∧ outputTokens usage = some o ∧
      i.toNat + o.toNat < 2 ^ 64

/-- The counts under the second name of two, where there is one under the first. -/
def spareCounts (usage : List (String × Value)) : UInt64 :=
  (if (numberField usage "prompt_tokens").isSome then
      (numberField usage "input_tokens").getD 0 else 0) +
    if (numberField usage "completion_tokens").isSome then
      (numberField usage "output_tokens").getD 0 else 0

/-- The readers agree on a usage object: it has an integer as its total; or it gets one and no count
has two names, but for zeros; or it has none and gets none. -/
def TotalsAgree (usage : List (String × Value)) : Prop :=
  numberField usage "total_tokens" = none →
    (FilledIn usage → spareCounts usage = 0) ∧
      (¬FilledIn usage → OrdMap.get "total_tokens" usage = none)

/-! ### One usage object -/

section

variable {usage : List (String × Value)}

theorem ensureUsageObjectTotalTokens_filledIn {i o : UInt64}
    (htotal : numberField usage "total_tokens" = none) (hi : inputTokens usage = some i)
    (ho : outputTokens usage = some o) (hlt : i.toNat + o.toNat < 2 ^ 64) :
    ensureUsageObjectTotalTokens usage = OrdMap.insert "total_tokens" (.u64 (i + o)) usage := by
  unfold ensureUsageObjectTotalTokens
  unfold inputTokens at hi
  unfold outputTokens at ho
  rw [htotal, hi, ho, if_neg (by simp)]
  exact if_pos hlt

theorem ensureUsageObjectTotalTokens_of_not (h : ¬FilledIn usage) :
    ensureUsageObjectTotalTokens usage = usage := by
  unfold ensureUsageObjectTotalTokens
  split_ifs with htotal
  · rfl
  · have hnone : numberField usage "total_tokens" = none := by simpa using htotal
    rw [← inputTokens, ← outputTokens]
    cases hi : inputTokens usage with
    | none => rfl
    | some i =>
      cases ho : outputTokens usage with
      | none => rfl
      | some o => exact if_neg fun hlt => h ⟨hnone, i, o, hi, ho, hlt⟩

theorem get_map_ensureEntry (k : String) (m : List (String × Value)) :
    OrdMap.get k (m.map ensureEntry) = (OrdMap.get k m).map fun v => (ensureEntry (k, v)).2 :=
  OrdMap.get_map k (fun k v => (ensureEntry (k, v)).2) m

theorem filledIn_map : FilledIn (usage.map ensureEntry) ↔ FilledIn usage := by
  simp only [FilledIn, inputTokens, outputTokens, numberField_ensure]

theorem get_ensureUsageObjectTotalTokens_ne {k : String} (hk : k ≠ "total_tokens") :
    OrdMap.get k (ensureUsageObjectTotalTokens usage) = OrdMap.get k usage := by
  by_cases h : FilledIn usage
  · obtain ⟨htotal, i, o, hi, ho, hlt⟩ := h
    rw [ensureUsageObjectTotalTokens_filledIn htotal hi ho hlt, OrdMap.get_insert_ne hk]
  · rw [ensureUsageObjectTotalTokens_of_not h]

theorem total_of_numberField {total : UInt64}
    (h : numberField usage "total_tokens" = some total) :
    (usageFieldsFromObject (some usage)).total = total := by
  change (numberField usage "total_tokens").getD _ = total
  rw [h, Option.getD_some]

/-- A count under two names is the first that is there, and what is spare. -/
theorem sum_of_or {a b : Option UInt64} {x : UInt64} (h : a.or b = some x) :
    a.getD 0 + b.getD 0 = x + if a.isSome then b.getD 0 else 0 := by
  cases a with
  | none =>
    rw [Option.none_or] at h
    rw [h, Option.getD_none, Option.getD_some, UInt64.zero_add]
    exact (UInt64.add_zero x).symm
  | some a =>
    obtain rfl := Option.some.inj h
    rfl

/-- Where a total is made, the counter and the rewriting differ by the spare counts. -/
theorem total_of_filledIn {i o : UInt64} (htotal : numberField usage "total_tokens" = none)
    (hi : inputTokens usage = some i) (ho : outputTokens usage = some o) :
    (usageFieldsFromObject (some usage)).total = i + o + spareCounts usage := by
  change (numberField usage "total_tokens").getD
    ((numberField usage "prompt_tokens").getD 0 + (numberField usage "input_tokens").getD 0 +
      ((numberField usage "completion_tokens").getD 0 +
        (numberField usage "output_tokens").getD 0)) = _
  rw [htotal, Option.getD_none, sum_of_or hi, sum_of_or ho]
  unfold spareCounts
  ac_rfl

/-- **The readers agree on a usage object**: whatever total it has afterwards is the one that was
counted. -/
theorem totalsAgree_iff : TotalsAgree usage ↔ ∀ total,
    OrdMap.get "total_tokens" (ensureUsageObjectTotalTokens (usage.map ensureEntry)) = some total →
      total = .u64 (usageFieldsFromObject (some usage)).total := by
  by_cases hfilled : FilledIn usage
  · -- the total that is made differs from the one that is counted by the spare counts
    obtain ⟨htotal, i, o, hi, ho, hlt⟩ := filledIn_map.mpr hfilled
    rw [ensureUsageObjectTotalTokens_filledIn htotal hi ho hlt, OrdMap.get_insert_self]
    simp only [numberField_ensure, inputTokens, outputTokens] at htotal hi ho
    rw [total_of_filledIn htotal hi ho]
    constructor
    · rintro hagree _ ⟨⟩
      rw [(hagree htotal).1 hfilled, UInt64.add_zero]
    · intro hall
      refine fun _ => ⟨fun _ => ?_, fun hnot => absurd hfilled hnot⟩
      have hsum : i + o = i + o + spareCounts usage :=
        Number.posInt.inj (Value.number.inj (hall _ rfl))
      exact (UInt64.add_eq_left.mp hsum.symm)
  · rw [ensureUsageObjectTotalTokens_of_not (filledIn_map.not.mpr hfilled), get_map_ensureEntry]
    cases htotal : numberField usage "total_tokens" with
    | some t =>
      refine iff_of_true (fun hnone => absurd (htotal.symm.trans hnone) (Option.some_ne_none t))
        fun total hget => ?_
      obtain ⟨w, hw, rfl⟩ := Option.map_eq_some_iff.mp hget
      have hwt : w.asU64 = some t := by rwa [numberField, hw, Option.bind_some] at htotal
      obtain rfl := Value.asU64_eq_some.mp hwt
      rw [total_of_numberField htotal]
      rfl
    | none =>
      -- a total that is no integer stays as it is
      constructor
      · intro hagree total hget
        rw [(hagree htotal).2 hfilled] at hget
        cases hget
      · intro hall
        refine fun _ => ⟨fun hnot => absurd hnot hfilled, fun _ => ?_⟩
        cases hw : OrdMap.get "total_tokens" usage with
        | none => rfl
        | some w =>
          have hnumber := congrArg Value.asU64 (hall _ (congrArg _ hw))
          rw [asU64_ensureEntry] at hnumber
          rw [numberField, hw, Option.bind_some] at htotal
          cases htotal.symm.trans hnumber

end

/-! ### The whole answer -/

/-- A value after the rewriting, reached through a field `usage` or not. -/
def ensureAs (through : Bool) (v : Value) : Value :=
  match through, ensureUsageTotalTokens v with
  | true, .object usage => .object (ensureUsageObjectTotalTokens usage)
  | _, v => v

/-- The step is to a field `usage`. -/
def isUsageStep : Step → Bool
  | .key k => k == "usage"
  | .index _ => false

/-- The step is to a total that is replaced. -/
def ReplacedAt (through : Bool) (s : Step) (v : Value) : Prop :=
  through = true ∧ s = .key "total_tokens" ∧ ∃ m, v = .object m ∧ FilledIn m

/-- The path leads to a total that is replaced, or into one. -/
def Overwritten : Bool → List Step → Value → Prop
  | _, [], _ => False
  | through, s :: p, v =>
    ReplacedAt through s v ∨ ∃ w, v.step s = some w ∧ Overwritten (isUsageStep s) p w

theorem endsWithUsage_cons (through : Bool) (s : Step) (p : List Step) :
    endsWithUsage through (s :: p) = endsWithUsage (isUsageStep s) p := by
  cases s <;> rfl

theorem step_ensureAs {through : Bool} {s : Step} {v : Value} (h : ¬ReplacedAt through s v) :
    (ensureAs through v).step s = (v.step s).map (ensureAs (isUsageStep s)) := by
  cases v with
  | object m =>
    have hensure : ensureUsageTotalTokens (.object m) = .object (m.map ensureEntry) := by
      rw [ensureUsageTotalTokens_object_eq]
    unfold ensureAs
    rw [hensure]
    cases s with
    | index i => cases through <;> rfl
    | key k =>
      have hget : (Value.object (m.map ensureEntry)).step (.key k) =
          ((Value.object m).step (.key k)).map (ensureAs (isUsageStep (.key k))) :=
        get_map_ensureEntry k m
      cases through with
      | false => exact hget
      | true =>
        refine Eq.trans ?_ hget
        change OrdMap.get k (ensureUsageObjectTotalTokens (m.map ensureEntry)) =
          OrdMap.get k (m.map ensureEntry)
        by_cases hk : k = "total_tokens"
        · subst hk
          have hnot : ¬FilledIn (m.map ensureEntry) := fun hfilled =>
            h ⟨rfl, rfl, m, rfl, filledIn_map.mp hfilled⟩
          rw [ensureUsageObjectTotalTokens_of_not hnot]
        · exact get_ensureUsageObjectTotalTokens_ne hk
  | array vs =>
    unfold ensureAs
    rw [ensureUsageTotalTokens_array_eq]
    cases s with
    | key k => cases through <;> rfl
    | index i =>
      have hget : (vs.map ensureUsageTotalTokens)[i]? = vs[i]?.map (ensureAs false) := by
        rw [List.getElem?_map]
        rfl
      cases through <;> exact hget
  | _ => cases through <;> cases s <;> rfl

theorem step_replacedAt {through : Bool} {s : Step} {v : Value} (h : ReplacedAt through s v) :
    ∃ total, (ensureAs through v).step s = some (.u64 total) := by
  obtain ⟨rfl, rfl, m, rfl, hfilled⟩ := h
  obtain ⟨htotal, i, o, hi, ho, hlt⟩ := filledIn_map.mpr hfilled
  refine ⟨i + o, ?_⟩
  unfold ensureAs
  rw [ensureUsageTotalTokens_object_eq]
  change OrdMap.get "total_tokens" (ensureUsageObjectTotalTokens (m.map ensureEntry)) = _
  rw [ensureUsageObjectTotalTokens_filledIn htotal hi ho hlt, OrdMap.get_insert_self]

/-- **The rewritten answer, part by part.** -/
theorem lookup_ensureAs {p : List Step} {through : Bool} {v : Value}
    (h : ¬Overwritten through p v) :
    (ensureAs through v).lookup p = (v.lookup p).map (ensureAs (endsWithUsage through p)) := by
  induction p generalizing through v with
  | nil => rfl
  | cons s p ih =>
    have hstep : ¬ReplacedAt through s v := fun hreplaced => h (Or.inl hreplaced)
    rw [Value.lookup_cons, Value.lookup_cons, step_ensureAs hstep, endsWithUsage_cons]
    cases hw : v.step s with
    | none => rfl
    | some w => exact ih fun hover => h (Or.inr ⟨w, hw, hover⟩)

theorem lookup_overwritten {p : List Step} {through : Bool} {v : Value}
    (h : Overwritten through p v) (m : List (String × Value)) :
    (ensureAs through v).lookup p ≠ some (.object m) := by
  induction p generalizing through v with
  | nil => exact h.elim
  | cons s p ih =>
    rw [Value.lookup_cons]
    by_cases hreplaced : ReplacedAt through s v
    · obtain ⟨total, hstep⟩ := step_replacedAt hreplaced
      rw [hstep]
      cases p with
      | nil => exact nofun
      | cons t p => cases t <;> exact nofun
    · obtain hover | ⟨w, hw, hover⟩ := h
      · exact absurd hover hreplaced
      · rw [step_ensureAs hreplaced, hw]
        exact ih hover

/-! ### The rewriting, done twice -/

theorem ensureUsageObjectTotalTokens_idem (usage : List (String × Value)) :
    ensureUsageObjectTotalTokens (ensureUsageObjectTotalTokens usage) =
      ensureUsageObjectTotalTokens usage := by
  by_cases h : FilledIn usage
  · refine ensureUsageObjectTotalTokens_of_not ?_
    obtain ⟨htotal, i, o, hi, ho, hlt⟩ := h
    rw [ensureUsageObjectTotalTokens_filledIn htotal hi ho hlt]
    rintro ⟨hnone, -⟩
    rw [numberField, OrdMap.get_insert_self] at hnone
    cases hnone
  · rw [ensureUsageObjectTotalTokens_of_not h, ensureUsageObjectTotalTokens_of_not h]

theorem ensureEntry_eq (k : String) (v : Value) :
    ensureEntry (k, v) = (k, ensureAs (k == "usage") v) := rfl

/-- A value that is not an object is rewritten in the same way wherever it is. -/
theorem ensureAs_of_asObject {v : Value} (h : v.asObject = none) (through : Bool) :
    ensureAs through v = ensureUsageTotalTokens v := by
  cases v with
  | object m => exact nomatch h
  | array vs =>
    unfold ensureAs
    rw [ensureUsageTotalTokens_array_eq]
    cases through <;> rfl
  | _ => cases through <;> rfl

theorem ensureAs_object (m : List (String × Value)) : ensureAs true (.object m) =
    .object (ensureUsageObjectTotalTokens (m.map ensureEntry)) := by
  unfold ensureAs
  rw [ensureUsageTotalTokens_object_eq]

theorem asObject_ensureUsageTotalTokens {v : Value} (h : v.asObject = none) :
    (ensureUsageTotalTokens v).asObject = none := by
  cases v with
  | object m => exact nomatch h
  | array vs =>
    rw [ensureUsageTotalTokens_array_eq]
    rfl
  | _ => rfl

/-- What the rewriting leaves alone it leaves alone in a field `usage` as well. -/
theorem ensureAs_idem {v : Value}
    (h : ensureUsageTotalTokens (ensureUsageTotalTokens v) = ensureUsageTotalTokens v)
    (through : Bool) : ensureAs through (ensureAs through v) = ensureAs through v := by
  cases through with
  | false => exact h
  | true =>
    cases hv : v.asObject with
    | none =>
      rw [ensureAs_of_asObject hv, ensureAs_of_asObject (asObject_ensureUsageTotalTokens hv), h]
    | some m =>
      obtain rfl := Value.asObject_eq_some.mp hv
      rw [ensureUsageTotalTokens_object_eq, ensureUsageTotalTokens_object_eq] at h
      rw [ensureAs_object, ensureAs_object, ensureUsageObjectTotalTokens_map, Value.object.inj h,
        ensureUsageObjectTotalTokens_idem]

/-- **The rewriting changes nothing when it is done twice.** -/
theorem ensureUsageTotalTokens_idem (v : Value) :
    ensureUsageTotalTokens (ensureUsageTotalTokens v) = ensureUsageTotalTokens v := by
  induction v using Value.induct with
  | array vs ih =>
    rw [ensureUsageTotalTokens_array_eq, ensureUsageTotalTokens_array_eq, List.map_map]
    exact congrArg Value.array (List.map_congr_left fun v hv => ih v hv)
  | object m ih =>
    rw [ensureUsageTotalTokens_object_eq, ensureUsageTotalTokens_object_eq, List.map_map]
    refine congrArg Value.object (List.map_congr_left fun e he => ?_)
    obtain ⟨k, v⟩ := e
    rw [Function.comp_apply, ensureEntry_eq, ensureEntry_eq, ensureAs_idem (ih (k, v) he)]
  | _ => rfl

/-! ### The answer without its totals -/

mutual
/-- The value without the totals of its usage objects, at any depth. -/
def eraseTotals : Value → Value
  | .object m => .object (eraseTotalsEntries m)
  | .array vs => .array (eraseTotalsList vs)
  | v => v
/-- `eraseTotals` over the elements of an array. -/
def eraseTotalsList : List Value → List Value
  | [] => []
  | v :: vs => eraseTotals v :: eraseTotalsList vs
/-- `eraseTotals` over the fields of an object, the field `usage` without its total. -/
def eraseTotalsEntries : List (String × Value) → List (String × Value)
  | [] => []
  | (k, v) :: m =>
    (k, match k == "usage", eraseTotals v with
      | true, .object usage => .object (OrdMap.erase "total_tokens" usage)
      | _, v' => v') :: eraseTotalsEntries m
end

/-- A value without totals, reached through a field `usage` or not. -/
def eraseAs (through : Bool) (v : Value) : Value :=
  match through, eraseTotals v with
  | true, .object usage => .object (OrdMap.erase "total_tokens" usage)
  | _, v => v

theorem eraseTotals_object_eq (m : List (String × Value)) :
    eraseTotals (.object m) = .object (m.map fun e => (e.1, eraseAs (e.1 == "usage") e.2)) := by
  rw [eraseTotals]
  congr 1
  induction m with
  | nil => rfl
  | cons e m ih => rw [eraseTotalsEntries, ih]; rfl

theorem eraseTotals_array_eq (vs : List Value) :
    eraseTotals (.array vs) = .array (vs.map eraseTotals) := by
  rw [eraseTotals]
  congr 1
  induction vs with
  | nil => rfl
  | cons v vs ih => rw [eraseTotalsList, ih]; rfl

theorem eraseAs_object (m : List (String × Value)) : eraseAs true (.object m) =
    .object ((OrdMap.erase "total_tokens" m).map fun e =>
      (e.1, eraseAs (e.1 == "usage") e.2)) := by
  unfold eraseAs
  rw [eraseTotals_object_eq]
  exact congrArg Value.object (OrdMap.erase_map _ (fun k v => eraseAs (k == "usage") v) m)

theorem eraseAs_of_asObject {v : Value} (h : v.asObject = none) (through : Bool) :
    eraseAs through v = eraseTotals v := by
  cases v with
  | object m => exact nomatch h
  | array vs =>
    unfold eraseAs
    rw [eraseTotals_array_eq]
    cases through <;> rfl
  | _ => cases through <;> rfl

/-- A usage object is the same but for its total. -/
theorem erase_ensureUsageObjectTotalTokens (usage : List (String × Value)) :
    OrdMap.erase "total_tokens" (ensureUsageObjectTotalTokens usage) =
      OrdMap.erase "total_tokens" usage := by
  by_cases h : FilledIn usage
  · obtain ⟨htotal, i, o, hi, ho, hlt⟩ := h
    rw [ensureUsageObjectTotalTokens_filledIn htotal hi ho hlt, OrdMap.erase_insert]
  · rw [ensureUsageObjectTotalTokens_of_not h]

theorem eraseAs_ensureAs {v : Value} (h : eraseTotals (ensureUsageTotalTokens v) = eraseTotals v)
    (through : Bool) : eraseAs through (ensureAs through v) = eraseAs through v := by
  cases through with
  | false => exact h
  | true =>
    cases hv : v.asObject with
    | none =>
      rw [ensureAs_of_asObject hv, eraseAs_of_asObject hv,
        eraseAs_of_asObject (asObject_ensureUsageTotalTokens hv), h]
    | some m =>
      obtain rfl := Value.asObject_eq_some.mp hv
      rw [ensureAs_object, eraseAs_object, erase_ensureUsageObjectTotalTokens, eraseAs_object]
      rw [ensureUsageTotalTokens_object_eq, eraseTotals_object_eq, eraseTotals_object_eq] at h
      have herase := congrArg (OrdMap.erase "total_tokens") (Value.object.inj h)
      have hmap := fun m => OrdMap.erase_map "total_tokens"
        (fun k (v : Value) => eraseAs (k == "usage") v) m
      rw [hmap, hmap] at herase
      rw [herase]

/-- **The rewriting changes nothing but the totals of usage objects.** -/
theorem eraseTotals_ensureUsageTotalTokens (v : Value) :
    eraseTotals (ensureUsageTotalTokens v) = eraseTotals v := by
  induction v using Value.induct with
  | array vs ih =>
    rw [ensureUsageTotalTokens_array_eq, eraseTotals_array_eq, eraseTotals_array_eq, List.map_map]
    exact congrArg Value.array (List.map_congr_left fun v hv => ih v hv)
  | object m ih =>
    rw [ensureUsageTotalTokens_object_eq, eraseTotals_object_eq, eraseTotals_object_eq,
      List.map_map]
    refine congrArg Value.object (List.map_congr_left fun e he => ?_)
    obtain ⟨k, v⟩ := e
    rw [Function.comp_apply, ensureEntry_eq]
    exact congrArg (Prod.mk k) (eraseAs_ensureAs (ih (k, v) he) (k == "usage"))
  | _ => rfl

/-! ### Agreement -/

/-- **The readers agree, if and only if they agree on every usage object** that is not inside a
total that is replaced; the rewriting changes nothing when it is done twice, and changes totals
only. -/
theorem usageReaders_agree_iff (v : Value) :
    (ReadersAgree v ↔ ∀ p usage, UsageAt v p usage → ¬Overwritten false p v →
      TotalsAgree usage) ∧
    ensureUsageTotalTokens (ensureUsageTotalTokens v) = ensureUsageTotalTokens v ∧
    eraseTotals (ensureUsageTotalTokens v) = eraseTotals v := by
  refine ⟨?_, ensureUsageTotalTokens_idem v, eraseTotals_ensureUsageTotalTokens v⟩
  -- a usage object that is not overwritten is found again, rewritten
  have hfound : ∀ p usage, UsageAt v p usage → ¬Overwritten false p v →
      (ensureUsageTotalTokens v).lookup (p ++ [.key "total_tokens"]) =
        OrdMap.get "total_tokens" (ensureUsageObjectTotalTokens (usage.map ensureEntry)) := by
    rintro p usage ⟨hlookup, hends⟩ hover
    have hrewritten : (ensureUsageTotalTokens v).lookup p = _ := lookup_ensureAs hover
    rw [Value.lookup_append, hrewritten, hlookup, hends, Option.map_some, Option.bind_some,
      ensureAs_object, Value.lookup_cons]
    exact Option.bind_fun_some _
  constructor
  · intro hagree p usage husage hover
    refine totalsAgree_iff.mpr fun total hget => hagree p usage total husage ?_
    rw [hfound p usage husage hover, hget]
  · intro hall p usage total husage hget
    by_cases hover : Overwritten false p v
    · rw [Value.lookup_append] at hget
      obtain ⟨w, hw, hstep⟩ := Option.bind_eq_some_iff.mp hget
      cases w with
      | object m => exact absurd hw (lookup_overwritten hover m)
      | _ => exact nomatch hstep
    · rw [hfound p usage husage hover] at hget
      exact totalsAgree_iff.mp (hall p usage husage hover) total hget

/-- A usage object with a count under both of its names. -/
def twoNames : Value :=
  .object [("usage", .object [("completion_tokens", .u64 1), ("input_tokens", .u64 1),
    ("prompt_tokens", .u64 1)])]

/-- The client finds another total than the one that is counted. -/
theorem not_readersAgree_twoNames : ¬ReadersAgree twoNames := by
  intro h
  have htotal := h [.key "usage"] _ (.u64 2) ⟨rfl, rfl⟩ (by decide +kernel)
  exact absurd htotal (by decide +kernel)

end Onair
