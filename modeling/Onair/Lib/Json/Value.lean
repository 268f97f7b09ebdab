import Onair.Lib.Lines
import Onair.Lib.OrdMap

/-!
# JSON values

The value type of a JSON library whose objects are maps ordered by key.

* `Number`, `Value`, `Value.induct`: the data, and induction over it;
* `get`, `asStr`, `asU64`, `asBool`, `asArray`, `asObject`, `isNull`: the accessors;
* `obj`, `get_obj`: objects written out by their entries;
* `WF`: every object in the tree is sorted by key, as the library's maps are;
* `depth`, `Fits`, `blur`: how deep the tree is, and the tree with its floating point numbers
  forgotten;
* `Codec`, `Codec.Lawful`: a reader and a printer of JSON texts, and what is relied on about them.
-/

namespace Json

/-- A JSON number, as the library keeps it: `posInt n` is a `u64`, `negInt n` is the `i64`
`-(n + 1)`, and a `f64` is named by the sign, digits and exponent of its shortest decimal form. -/
inductive Number where
  | posInt (n : UInt64)
  | negInt (n : Fin (2 ^ 63))
  | float (neg : Bool) (digits : ℕ) (exponent : ℤ)
  deriving DecidableEq, Repr

/-- A JSON value. -/
inductive Value where
  | null
  | bool (b : Bool)
  | number (n : Number)
  | string (s : String)
  | array (vs : List Value)
  | object (m : List (String × Value))
  deriving Repr

namespace Value

theorem induct {P : Value → Prop} (null : P .null) (bool : ∀ b, P (.bool b))
    (number : ∀ n, P (.number n)) (string : ∀ s, P (.string s))
    (array : ∀ vs, (∀ v ∈ vs, P v) → P (.array vs))
    (object : ∀ m, (∀ e ∈ m, P e.2) → P (.object m)) (v : Value) : P v :=
  Value.rec (motive_1 := P) (motive_2 := fun vs => ∀ v ∈ vs, P v)
    (motive_3 := fun m => ∀ e ∈ m, P e.2) (motive_4 := fun e => P e.2)
    null bool number string array object (by simp)
    (fun _ _ hv hvs => List.forall_mem_cons.mpr ⟨hv, hvs⟩) (by simp)
    (fun _ _ he hm => List.forall_mem_cons.mpr ⟨he, hm⟩) (fun _ _ hv => hv) v

/-! ### Decidable equality -/

mutual
/-- Equality of values is decidable. -/
def decEq : (v w : Value) → Decidable (v = w)
  | .null, .null => isTrue rfl
  | .bool a, .bool b => decidable_of_iff (a = b) (by simp)
  | .number a, .number b => decidable_of_iff (a = b) (by simp)
  | .string a, .string b => decidable_of_iff (a = b) (by simp)
  | .array a, .array b =>
    match decEqList a b with
    | isTrue h => isTrue (by rw [h])
    | isFalse h => isFalse (by simpa using h)
  | .object a, .object b =>
    match decEqEntries a b with
    | isTrue h => isTrue (by rw [h])
    | isFalse h => isFalse (by simpa using h)
  | .null, .bool _ | .null, .number _ | .null, .string _ | .null, .array _ | .null, .object _
  | .bool _, .null | .bool _, .number _ | .bool _, .string _ | .bool _, .array _
  | .bool _, .object _ | .number _, .null | .number _, .bool _ | .number _, .string _
  | .number _, .array _ | .number _, .object _ | .string _, .null | .string _, .bool _
  | .string _, .number _ | .string _, .array _ | .string _, .object _ | .array _, .null
  | .array _, .bool _ | .array _, .number _ | .array _, .string _ | .array _, .object _
  | .object _, .null | .object _, .bool _ | .object _, .number _ | .object _, .string _
  | .object _, .array _ => isFalse (by simp)
/-- Equality of lists of values is decidable. -/
def decEqList : (v w : List Value) → Decidable (v = w)
  | [], [] => isTrue rfl
  | [], _ :: _ | _ :: _, [] => isFalse (by simp)
  | v :: vs, w :: ws =>
    match decEq v w, decEqList vs ws with
    | isTrue h, isTrue h' => isTrue (by rw [h, h'])
    | isFalse h, _ => isFalse (by simp [h])
    | _, isFalse h => isFalse (by simp [h])
/-- Equality of lists of entries is decidable. -/
def decEqEntries : (v w : List (String × Value)) → Decidable (v = w)
  | [], [] => isTrue rfl
  | [], _ :: _ | _ :: _, [] => isFalse (by simp)
  | (k, v) :: vs, (l, w) :: ws =>
    match decEq v w, decEqEntries vs ws with
    | isTrue h, isTrue h' =>
      if hk : k = l then isTrue (by rw [h, h', hk]) else isFalse (by simp [hk])
    | isFalse h, _ => isFalse (by simp [h])
    | _, isFalse h => isFalse (by simp [h])
end

instance : DecidableEq Value := decEq

/-! ### Accessors -/

/-- The field `k` of an object. -/
def get (v : Value) (k : String) : Option Value :=
  match v with
  | .object m => OrdMap.get k m
  | _ => none

/-- The text of a string. -/
def asStr : Value → Option String
  | .string s => some s
  | _ => none

/-- A number that is a `u64`. -/
def asU64 : Value → Option UInt64
  | .number (.posInt n) => some n
  | _ => none

/-- A Boolean. -/
def asBool : Value → Option Bool
  | .bool b => some b
  | _ => none

/-- The elements of an array. -/
def asArray : Value → Option (List Value)
  | .array vs => some vs
  | _ => none

/-- The entries of an object. -/
def asObject : Value → Option (List (String × Value))
  | .object m => some m
  | _ => none

/-- The value is `null`. -/
def isNull : Value → Bool
  | .null => true
  | _ => false

/-- The number `n`. -/
def u64 (n : UInt64) : Value := .number (.posInt n)

/-- The object with the given entries. -/
def obj (l : List (String × Value)) : Value := .object (OrdMap.ofList l)

theorem get_obj (l : List (String × Value)) (k : String) :
    (obj l).get k = OrdMap.get k l.reverse := OrdMap.get_ofList k l

@[simp] theorem get_object (m : List (String × Value)) (k : String) :
    (Value.object m).get k = OrdMap.get k m := rfl

@[simp] theorem asObject_obj (l : List (String × Value)) :
    (obj l).asObject = some (OrdMap.ofList l) := rfl

@[simp] theorem asStr_string (s : String) : (Value.string s).asStr = some s := rfl

@[simp] theorem asU64_u64 (n : UInt64) : (u64 n).asU64 = some n := rfl

theorem asStr_eq_some {v : Value} {s : String} : v.asStr = some s ↔ v = .string s := by
  cases v <;> simp [asStr]

theorem asObject_eq_some {v : Value} {m : List (String × Value)} :
    v.asObject = some m ↔ v = .object m := by
  cases v <;> simp [asObject]

theorem asArray_eq_some {v : Value} {vs : List Value} : v.asArray = some vs ↔ v = .array vs := by
  cases v <;> simp [asArray]

theorem asU64_eq_some {v : Value} {n : UInt64} : v.asU64 = some n ↔ v = .u64 n := by
  constructor
  · intro h
    cases v with
    | number m =>
      cases m with
      | posInt k => exact congrArg u64 (Option.some.inj h)
      | _ => exact nomatch h
    | _ => exact nomatch h
  · rintro rfl
    rfl

/-! ### Well-formed values -/

mutual
/-- Every object in the tree has increasing keys. -/
def WF : Value → Prop
  | .array vs => WFList vs
  | .object m => OrdMap.Sorted m ∧ WFEntries m
  | _ => True
/-- Every value of a list is well-formed. -/
def WFList : List Value → Prop
  | [] => True
  | v :: vs => WF v ∧ WFList vs
/-- Every value of a list of entries is well-formed. -/
def WFEntries : List (String × Value) → Prop
  | [] => True
  | (_, v) :: m => WF v ∧ WFEntries m
end

theorem wfList_iff (vs : List Value) : WFList vs ↔ ∀ v ∈ vs, WF v := by
  induction vs with
  | nil => simp [WFList]
  | cons v vs ih => simp [WFList, ih]

theorem wfEntries_iff (m : List (String × Value)) : WFEntries m ↔ ∀ e ∈ m, WF e.2 := by
  induction m with
  | nil => simp [WFEntries]
  | cons e m ih => obtain ⟨k, v⟩ := e; simp [WFEntries, ih]

@[simp] theorem wf_array (vs : List Value) : WF (.array vs) ↔ ∀ v ∈ vs, WF v :=
  wfList_iff vs

@[simp] theorem wf_object (m : List (String × Value)) :
    WF (.object m) ↔ OrdMap.Sorted m ∧ ∀ e ∈ m, WF e.2 :=
  and_congr_right fun _ => wfEntries_iff m

@[simp] theorem wf_null : WF .null := trivial
@[simp] theorem wf_bool (b : Bool) : WF (.bool b) := trivial
@[simp] theorem wf_number (n : Number) : WF (.number n) := trivial
@[simp] theorem wf_string (s : String) : WF (.string s) := trivial
@[simp] theorem wf_u64 (n : UInt64) : WF (u64 n) := trivial

theorem wf_obj {l : List (String × Value)} (h : ∀ e ∈ l, WF e.2) : WF (obj l) := by
  rw [obj, wf_object]
  exact ⟨OrdMap.sorted_ofList l, fun e he => h e (OrdMap.mem_ofList he)⟩

/-! ### Depth -/

mutual
/-- How deep arrays and objects are nested. -/
def depth : Value → ℕ
  | .array vs => depthList vs + 1
  | .object m => depthEntries m + 1
  | _ => 0
/-- The depth of the deepest value of a list. -/
def depthList : List Value → ℕ
  | [] => 0
  | v :: vs => max (depth v) (depthList vs)
/-- The depth of the deepest value of a list of entries. -/
def depthEntries : List (String × Value) → ℕ
  | [] => 0
  | (_, v) :: m => max (depth v) (depthEntries m)
end

theorem depthList_le {vs : List Value} {d : ℕ} : depthList vs ≤ d ↔ ∀ v ∈ vs, depth v ≤ d := by
  induction vs with
  | nil => simp [depthList]
  | cons v vs ih => simp [depthList, ih]

theorem depthEntries_le {m : List (String × Value)} {d : ℕ} :
    depthEntries m ≤ d ↔ ∀ e ∈ m, depth e.2 ≤ d := by
  induction m with
  | nil => simp [depthEntries]
  | cons e m ih => obtain ⟨k, v⟩ := e; simp [depthEntries, ih]

@[simp] theorem depth_null : depth .null = 0 := rfl
@[simp] theorem depth_bool (b : Bool) : depth (.bool b) = 0 := rfl
@[simp] theorem depth_number (n : Number) : depth (.number n) = 0 := rfl
@[simp] theorem depth_string (s : String) : depth (.string s) = 0 := rfl

theorem depth_array_le {vs : List Value} {d : ℕ} :
    depth (.array vs) ≤ d + 1 ↔ ∀ v ∈ vs, depth v ≤ d :=
  Nat.add_le_add_iff_right.trans depthList_le

theorem depth_object_le {m : List (String × Value)} {d : ℕ} :
    depth (.object m) ≤ d + 1 ↔ ∀ e ∈ m, depth e.2 ≤ d :=
  Nat.add_le_add_iff_right.trans depthEntries_le

theorem depth_obj_le {l : List (String × Value)} {d : ℕ} (h : ∀ e ∈ l, depth e.2 ≤ d) :
    depth (obj l) ≤ d + 1 :=
  depth_object_le.mpr fun e he => h e (OrdMap.mem_ofList he)

/-- The value is well-formed and at most `d` deep. -/
def Fits (d : ℕ) (v : Value) : Prop := v.WF ∧ v.depth ≤ d

@[simp] theorem fits_null (d : ℕ) : Fits d .null := ⟨wf_null, by simp⟩
@[simp] theorem fits_bool (d : ℕ) (b : Bool) : Fits d (.bool b) := ⟨wf_bool b, by simp⟩
@[simp] theorem fits_string (d : ℕ) (s : String) : Fits d (.string s) := ⟨wf_string s, by simp⟩
@[simp] theorem fits_u64 (d : ℕ) (n : UInt64) : Fits d (u64 n) := ⟨wf_u64 n, by simp [u64]⟩

@[simp] theorem fits_array {d : ℕ} {vs : List Value} :
    Fits (d + 1) (.array vs) ↔ ∀ v ∈ vs, Fits d v := by
  rw [Fits, wf_array, depth_array_le, ← forall₂_and]
  rfl

theorem fits_object {d : ℕ} {m : List (String × Value)} :
    Fits (d + 1) (.object m) ↔ OrdMap.Sorted m ∧ ∀ e ∈ m, Fits d e.2 := by
  rw [Fits, wf_object, depth_object_le, and_assoc, ← forall₂_and]
  rfl

theorem Fits.insert {d : ℕ} {m : List (String × Value)} {v : Value} (h : Fits (d + 1) (.object m))
    (k : String) (hv : Fits d v) : Fits (d + 1) (.object (OrdMap.insert k v m)) := by
  rw [fits_object] at h ⊢
  refine ⟨OrdMap.sorted_insert h.1 k v, fun e he => ?_⟩
  rcases OrdMap.mem_insert he with rfl | he
  · exact hv
  · exact h.2 e he

theorem Fits.erase {d : ℕ} {m : List (String × Value)} (h : Fits (d + 1) (.object m)) (k : String) :
    Fits (d + 1) (.object (OrdMap.erase k m)) := by
  rw [fits_object] at h ⊢
  exact ⟨OrdMap.sorted_erase h.1 k, fun e he => h.2 e (List.mem_filter.mp he).1⟩

theorem Fits.get {d : ℕ} {m : List (String × Value)} (h : Fits (d + 1) (.object m)) {k : String}
    {v : Value} (hv : OrdMap.get k m = some v) : Fits d v :=
  (fits_object.mp h).2 _ (OrdMap.mem_of_get hv)

theorem fits_obj {d : ℕ} {l : List (String × Value)} (h : ∀ e ∈ l, Fits d e.2) :
    Fits (d + 1) (obj l) :=
  ⟨wf_obj fun e he => (h e he).1, depth_obj_le fun e he => (h e he).2⟩

theorem Fits.mono {d d' : ℕ} {v : Value} (h : Fits d v) (hd : d ≤ d') : Fits d' v :=
  ⟨h.1, h.2.trans hd⟩

theorem Fits.map_array {d : ℕ} {vs : List Value} {f : Value → Value} (h : Fits d (.array vs))
    (hf : ∀ v ∈ vs, ∀ d, Fits d v → Fits d (f v)) : Fits d (.array (vs.map f)) := by
  cases d with
  | zero => exact absurd h.2 (Nat.not_succ_le_zero _)
  | succ d =>
    rw [fits_array] at h ⊢
    rw [List.forall_mem_map]
    exact fun v hv => hf v hv d (h v hv)

theorem Fits.map_object {d : ℕ} {m : List (String × Value)} {f : String → Value → Value}
    (h : Fits d (.object m)) (hf : ∀ e ∈ m, ∀ d, Fits d e.2 → Fits d (f e.1 e.2)) :
    Fits d (.object (m.map fun e => (e.1, f e.1 e.2))) := by
  cases d with
  | zero => exact absurd h.2 (Nat.not_succ_le_zero _)
  | succ d =>
    rw [fits_object] at h ⊢
    refine ⟨OrdMap.sorted_map h.1 f, ?_⟩
    rw [List.forall_mem_map]
    exact fun e he => hf e he d (h.2 e he)

/-! ### Floating point numbers forgotten -/

/-- The number with its value forgotten if it is a `f64`. -/
def blurNumber : Number → Number
  | .float _ _ _ => .float false 0 0
  | n => n

mutual
/-- The value with its floating point numbers forgotten. -/
def blur : Value → Value
  | .number n => .number (blurNumber n)
  | .array vs => .array (blurList vs)
  | .object m => .object (blurEntries m)
  | v => v
/-- The values of a list with their floating point numbers forgotten. -/
def blurList : List Value → List Value
  | [] => []
  | v :: vs => blur v :: blurList vs
/-- The values of a list of entries with their floating point numbers forgotten. -/
def blurEntries : List (String × Value) → List (String × Value)
  | [] => []
  | (k, v) :: m => (k, blur v) :: blurEntries m
end

theorem blurList_eq (vs : List Value) : blurList vs = vs.map blur := by
  induction vs with
  | nil => simp [blurList]
  | cons v vs ih => simp [blurList, ih]

theorem blurEntries_eq (m : List (String × Value)) :
    blurEntries m = m.map fun e => (e.1, blur e.2) := by
  induction m with
  | nil => simp [blurEntries]
  | cons e m ih => obtain ⟨k, v⟩ := e; simp [blurEntries, ih]

@[simp] theorem blur_null : blur .null = .null := rfl
@[simp] theorem blur_bool (b : Bool) : blur (.bool b) = .bool b := rfl
@[simp] theorem blur_string (s : String) : blur (.string s) = .string s := rfl
@[simp] theorem blur_u64 (n : UInt64) : blur (u64 n) = u64 n := rfl

@[simp] theorem blur_array (vs : List Value) : blur (.array vs) = .array (vs.map blur) :=
  congrArg array (blurList_eq vs)

@[simp] theorem blur_object (m : List (String × Value)) :
    blur (.object m) = .object (m.map fun e => (e.1, blur e.2)) :=
  congrArg object (blurEntries_eq m)

theorem get_blur (v : Value) (k : String) : v.blur.get k = (v.get k).map blur := by
  cases v with
  | object m => rw [blur_object, get_object, get_object, OrdMap.get_map k (fun _ => blur)]
  | _ => rfl

theorem asStr_blur (v : Value) : v.blur.asStr = v.asStr := by
  cases v <;> rfl

theorem asU64_blur (v : Value) : v.blur.asU64 = v.asU64 := by
  cases v with
  | number n => cases n <;> rfl
  | _ => rfl

/-- The `u64` at the end of a path of fields. -/
def countAt : List String → Value → Option UInt64
  | [], v => v.asU64
  | k :: path, v => (v.get k).bind (countAt path)

theorem countAt_blur (path : List String) (v : Value) :
    v.blur.countAt path = v.countAt path := by
  induction path generalizing v with
  | nil => exact asU64_blur v
  | cons k path ih =>
    rw [countAt, countAt, get_blur, Option.bind_map]
    simp only [Function.comp_def, ih]

end Value

/-! ### Readers and printers -/

/-- A reader and a printer of JSON texts. -/
structure Codec where
  fromSlice : Bytes → Option Value
  toVec : Value → Bytes

/-- How deep a text may nest. -/
def maxDepth : ℕ := 127

/-- What is relied on about a reader and a printer: values read are well-formed and not too deep;
a printed value that is not too deep is read back as it was, but for the last digits of its
floating point numbers; a printed text has no line break; and only a text whose first byte after
white space is `\x7b` is an object. -/
structure Codec.Lawful (c : Codec) : Prop where
  wf_of_read : ∀ b v, c.fromSlice b = some v → v.WF ∧ v.depth ≤ maxDepth
  read_print : ∀ v, v.WF → v.depth ≤ maxDepth → (c.fromSlice (c.toVec v)).isSome = true
  blur_read_print : ∀ v w, v.WF → c.fromSlice (c.toVec v) = some w → w.blur = v.blur
  print_no_break : ∀ v, 10 ∉ c.toVec v ∧ 13 ∉ c.toVec v
  print_object : ∀ m, (c.toVec (.object m)).head? = some 123
  object_head : ∀ b m, c.fromSlice b = some (.object m) →
    (b.find? fun x => x ≠ 32 ∧ x ≠ 9 ∧ x ≠ 10 ∧ x ≠ 13) = some 123

/-- Values printed the same are the same, but for the last digits of floating point numbers. -/
theorem Codec.Lawful.print_inj {c : Codec} (h : c.Lawful) {v w : Value} (hv : v.WF) (hw : w.WF)
    (hd : v.depth ≤ maxDepth) (he : c.toVec v = c.toVec w) : v.blur = w.blur := by
  obtain ⟨u, hu⟩ := Option.isSome_iff_exists.mp (h.read_print v hv hd)
  rw [← h.blur_read_print v u hv hu]
  rw [he] at hu
  exact h.blur_read_print w u hw hu

end Json
