import Onair.Stream.Passthrough

/-!
# Hidden usage

Where usage is not sent to the client, a chunk with nothing but usage is dropped, and any other
value loses its field `usage`. Usage is counted at any depth.

* `usageObjects_object_eq_nil`, `usageObjects_kept`, `usageObjects_blur`: where there is usage, and
  that neither rewriting nor printing a value makes or hides any;
* `UsageOnTop`: there is usage in the field `usage` of the value only;
* `UsageHidden`: no data line that the client gets has usage at any depth, and all usage is counted;
* **`usageHidden_iff`**: that is so, if and only if every value has its usage on top or is a chunk
  with nothing but usage.
-/

namespace Onair

open Json Text Lines

/-! ### Where there is usage -/

/-- A field without usage. -/
def NoUsage (e : String × Value) : Prop :=
  (e.1 = "usage" → e.2.asObject = none) ∧ usageObjects e.2 = []

theorem usageObjectsList_eq_nil {vs : List Value} :
    usageObjectsList vs = [] ↔ ∀ v ∈ vs, usageObjects v = [] := by
  induction vs with
  | nil => simp [usageObjectsList]
  | cons v vs ih => rw [usageObjectsList, List.append_eq_nil_iff, ih, List.forall_mem_cons]

theorem usageObjectsEntries_eq_nil {m : List (String × Value)} :
    usageObjectsEntries m = [] ↔ ∀ e ∈ m, usageObjects e.2 = [] := by
  induction m with
  | nil => simp [usageObjectsEntries]
  | cons e m ih => rw [usageObjectsEntries, List.append_eq_nil_iff, ih, List.forall_mem_cons]

theorem usageObjects_array_eq_nil {vs : List Value} :
    usageObjects (.array vs) = [] ↔ ∀ v ∈ vs, usageObjects v = [] := by
  rw [usageObjects, usageObjectsList_eq_nil]

theorem usageObjects_object_eq_nil {m : List (String × Value)} (hsorted : OrdMap.Sorted m) :
    usageObjects (.object m) = [] ↔ ∀ e ∈ m, NoUsage e := by
  have hfield : ((OrdMap.get "usage" m).bind Value.asObject).toList = [] ↔
      ∀ e ∈ m, e.1 = "usage" → e.2.asObject = none := by
    rw [Option.toList_eq_nil_iff, Option.bind_eq_none_iff]
    constructor
    · rintro h ⟨k, v⟩ he rfl
      exact h v ((OrdMap.get_eq_some_iff hsorted).mpr he)
    · intro h v hv
      exact h ("usage", v) (OrdMap.mem_of_get hv) rfl
  rw [usageObjects, List.append_eq_nil_iff, hfield, usageObjectsEntries_eq_nil]
  exact ⟨fun h e he => ⟨h.1 e he, h.2 e he⟩, fun h => ⟨fun e he => (h e he).1,
    fun e he => (h e he).2⟩⟩

section

variable {p : Passthrough}

/-- A value that is kept is an object if and only if it was. -/
theorem Kept.asObject_eq_none {v w : Value} (h : Kept p v w) :
    w.asObject = none ↔ v.asObject = none := by
  cases h with
  | same => rfl
  | array => rfl
  | object => exact iff_of_false nofun nofun

theorem KeptFields.map_key {m m' : List (String × Value)} (h : KeptFields p m m') :
    m'.map Prod.fst = m.map Prod.fst := by
  induction m generalizing m' with
  | nil =>
    cases h
    rfl
  | cons e m ih =>
    cases h with
    | cons he hs => rw [List.map_cons, List.map_cons, ih hs, he.key]

theorem KeptFields.sorted {m m' : List (String × Value)} (h : KeptFields p m m')
    (hsorted : OrdMap.Sorted m) : OrdMap.Sorted m' := by
  have hkeys : (m.map Prod.fst).Pairwise (· < ·) := List.pairwise_map.mpr hsorted
  rw [← h.map_key] at hkeys
  exact List.pairwise_map.mp hkeys

theorem KeptList.forall_iff {Q : Value → Prop} {vs ws : List Value} (h : KeptList p vs ws)
    (hQ : ∀ v ∈ vs, ∀ w, Kept p v w → (Q w ↔ Q v)) : (∀ w ∈ ws, Q w) ↔ ∀ v ∈ vs, Q v := by
  induction vs generalizing ws with
  | nil =>
    cases h
    exact Iff.rfl
  | cons v vs ih =>
    obtain ⟨hv, hvs⟩ := List.forall_mem_cons.mp hQ
    cases h with
    | cons hkept hs =>
      rw [List.forall_mem_cons, List.forall_mem_cons, hv _ hkept, ih hs hvs]

theorem KeptFields.forall_iff {Q : String × Value → Prop} {m m' : List (String × Value)}
    (h : KeptFields p m m') (hQ : ∀ e ∈ m, ∀ e', KeptField p e e' → (Q e' ↔ Q e)) :
    (∀ e ∈ m', Q e) ↔ ∀ e ∈ m, Q e := by
  induction m generalizing m' with
  | nil =>
    cases h
    exact Iff.rfl
  | cons e m ih =>
    obtain ⟨he, hm⟩ := List.forall_mem_cons.mp hQ
    cases h with
    | cons hkept hs =>
      rw [List.forall_mem_cons, List.forall_mem_cons, he _ hkept, ih hs hm]

theorem KeptField.noUsage_iff {e e' : String × Value} (h : KeptField p e e')
    (hvalue : ∀ w, Kept p e.2 w → (usageObjects w = [] ↔ usageObjects e.2 = [])) :
    NoUsage e' ↔ NoUsage e := by
  cases h with
  | keep h =>
    unfold NoUsage
    rw [h.asObject_eq_none, hvalue _ h]
  | model => exact iff_of_true ⟨fun _ => rfl, rfl⟩ ⟨fun _ => rfl, rfl⟩
  | total => exact iff_of_false (fun h => nomatch h.1 rfl) (fun h => nomatch h.1 rfl)

/-- **Rewriting a value neither makes nor hides usage.** -/
theorem usageObjects_kept {v w : Value} (h : Kept p v w) (hwf : v.WF) :
    usageObjects w = [] ↔ usageObjects v = [] := by
  induction v using Value.induct generalizing w with
  | array vs ih =>
    cases h with
    | same => exact Iff.rfl
    | array h =>
      rw [usageObjects_array_eq_nil, usageObjects_array_eq_nil]
      have hwfs := (Value.wf_array vs).mp hwf
      exact h.forall_iff fun v hv w hkept => ih v hv hkept (hwfs v hv)
  | object m ih =>
    cases h with
    | same => exact Iff.rfl
    | object h =>
      obtain ⟨hsorted, hwfs⟩ := (Value.wf_object m).mp hwf
      rw [usageObjects_object_eq_nil hsorted, usageObjects_object_eq_nil (h.sorted hsorted)]
      exact h.forall_iff fun e he e' hkept =>
        hkept.noUsage_iff fun w hw => ih e he hw (hwfs e he)
  | _ =>
    cases h
    exact Iff.rfl

theorem KeptFields.erase {m m' : List (String × Value)} (h : KeptFields p m m') (k : String) :
    KeptFields p (OrdMap.erase k m) (OrdMap.erase k m') := by
  induction m generalizing m' with
  | nil =>
    cases h
    exact .nil
  | cons e m ih =>
    cases h with
    | @cons _ e' _ m' hkept hs =>
      by_cases hk : e.1 = k
      · have hk' : e'.1 = k := hkept.key ▸ hk
        rw [OrdMap.erase, List.filter_cons_of_neg (by simp [hk]), OrdMap.erase,
          List.filter_cons_of_neg (by simp [hk'])]
        exact ih hs
      · have hk' : e'.1 ≠ k := hkept.key ▸ hk
        rw [OrdMap.erase, List.filter_cons_of_pos (by simp [hk]), OrdMap.erase,
          List.filter_cons_of_pos (by simp [hk'])]
        exact .cons hkept (ih hs)

theorem Kept.removeUsageField {v w : Value} (h : Kept p v w) :
    Kept p (removeUsageField v) (removeUsageField w) := by
  cases h with
  | same => exact .same _
  | array h => exact .array h
  | object h => exact .object (h.erase "usage")

end

/-- **Printing a value neither makes nor hides usage.** -/
theorem usageObjects_blur (v : Value) : usageObjects v.blur = [] ↔ usageObjects v = [] := by
  induction v using Value.induct with
  | array vs ih =>
    rw [Value.blur_array, usageObjects_array_eq_nil, usageObjects_array_eq_nil,
      List.forall_mem_map]
    exact forall₂_congr ih
  | object m ih =>
    have hget := OrdMap.get_map "usage" (fun _ (v : Value) => v.blur) m
    rw [Value.blur_object, usageObjects, usageObjects, List.append_eq_nil_iff,
      List.append_eq_nil_iff, usageObjectsEntries_eq_nil, usageObjectsEntries_eq_nil, hget,
      List.forall_mem_map]
    refine and_congr ?_ (forall₂_congr ih)
    cases OrdMap.get "usage" m with
    | none => exact Iff.rfl
    | some v => cases v <;> simp [Value.blur, Value.asObject]
  | _ => simp [Value.blur, usageObjects]

/-! ### Hiding it -/

/-- There is usage in the field `usage` of the value only. -/
def UsageOnTop : Value → Prop
  | .object m => ∀ e ∈ m, e.1 ≠ "usage" → usageObjects e.2 = []
  | v => usageObjects v = []

/-- Dropping the field `usage` drops all usage, if it is on top, and only then. -/
theorem usageOnTop_iff {v : Value} (hwf : v.WF) :
    UsageOnTop v ↔ usageObjects (removeUsageField v) = [] := by
  cases v with
  | object m =>
    obtain ⟨hsorted, -⟩ := (Value.wf_object m).mp hwf
    rw [removeUsageField, usageObjects_object_eq_nil (OrdMap.sorted_erase hsorted "usage")]
    simp only [OrdMap.erase, List.mem_filter, decide_eq_true_iff, NoUsage]
    exact forall_congr' fun e => ⟨fun h he => ⟨fun hk => absurd hk he.2, h he.1 he.2⟩,
      fun h he hk => (h ⟨he, hk⟩).2⟩
  | _ => exact Iff.rfl

theorem usageOnTop_of_nil {v : Value} (hwf : v.WF) (h : usageObjects v = []) : UsageOnTop v := by
  cases v with
  | object m =>
    obtain ⟨hsorted, -⟩ := (Value.wf_object m).mp hwf
    exact fun e he _ => ((usageObjects_object_eq_nil hsorted).mp h e he).2
  | _ => exact h

/-- The native mode, with usage hidden. -/
def hidingUsage (backendModel publicModel : Option String) : Passthrough where
  native := true
  backendModel := backendModel
  publicModel := publicModel
  emitUsageToClient := false

/-- The strategy of the native mode with usage hidden, after a whole stream, and what it sent. -/
def runHiding (c : Codec) (backendModel publicModel : Option String) (chunks : List Bytes) :
    SseStrategy × List SseOut :=
  (SseStrategy.new .native backendModel publicModel false).runAll c chunks

/-- **Usage is hidden**: no data line that the client gets has a usage object at any depth, and
every usage object of the backend is counted. -/
structure UsageHidden (c : Codec) (backendModel publicModel : Option String)
    (chunks : List Bytes) : Prop where
  hidden : ∀ line ∈ cutLines (outBytes c (runHiding c backendModel publicModel chunks).2),
    ∀ space value, JsonLine c line space value → usageObjects value = []
  counted : (runHiding c backendModel publicModel chunks).1.usage =
    streamUsage (frames c chunks.flatten)

/-- A value whose usage can be hidden. -/
def Hidable (value : Value) : Prop := UsageOnTop value ∨ chatUsageOnlyChunk value = true

section

variable {c : Codec} {backendModel publicModel : Option String} {p : Passthrough}

theorem JsonLine.unique {line : Bytes} {space space' : Bool} {v v' : Value}
    (h : JsonLine c line space v) (h' : JsonLine c line space' v') : v = v' := by
  have hparse := parseSseLine_eq_data.mpr h
  rw [parseSseLine_eq_data.mpr h'] at hparse
  exact (SseFrame.data.inj hparse).1.symm

/-- A line that was written has no usage, if the value has none, and only then. -/
theorem Written.usageObjects {line written : Bytes} {space : Bool} {value : Value}
    (h : Written c line space value written) :
    (∀ space' v, JsonLine c written space' v → Onair.usageObjects v = []) ↔
      Onair.usageObjects value = [] := by
  obtain ⟨-, -, read, hread, hblur⟩ := h
  rw [← usageObjects_blur value, ← hblur, usageObjects_blur]
  constructor
  · intro hall
    exact hall space read hread
  · intro hnone space' v hv
    rw [hv.unique hread]
    exact hnone

/-- **One line**: what is sent for it has no usage, if its usage can be hidden, and only then. -/
theorem LineKept.usage_iff (hc : c.Lawful) (hp : p.native = true ∧ p.emitUsageToClient = false)
    {line : Bytes} {sent : Option Bytes} (h : LineKept c p line sent) :
    (∀ written ∈ sent, ∀ space v, JsonLine c written space v → usageObjects v = []) ↔
      ∀ space v, JsonLine c line space v → Hidable v := by
  -- the value of the line decides
  have hvalue : ∀ {space v}, JsonLine c line space v →
      ((∀ space' v', JsonLine c line space' v' → Hidable v') ↔ Hidable v) := fun hv =>
    ⟨fun hall => hall _ _ hv, fun hhid space' v' hv' => by rwa [hv'.unique hv]⟩
  cases h with
  | raw h =>
    refine iff_of_true ?_ fun space v hv => absurd hv (h space v)
    rintro _ ⟨⟩ space v hv
    exact absurd hv (h space v)
  | @json space value kept written hline hshown hkept _ hwritten =>
    have hwf := (hline.fits hc).1
    have hnone : usageObjects value = [] := by
      by_contra hne
      exact hshown ⟨hp.1, hp.2, hne⟩
    refine iff_of_true ?_ ((hvalue hline).mpr (Or.inl (usageOnTop_of_nil hwf hnone)))
    rintro _ ⟨⟩
    exact hwritten.usageObjects.mpr ((usageObjects_kept hkept hwf).mpr hnone)
  | @hidden space value kept written hline hhides hchunk hkept _ hwritten =>
    have hwf := (hline.fits hc).1
    have hremoved : (removeUsageField value).WF := (fits_removeUsageField (hline.fits hc)).1
    rw [hvalue hline, Hidable, hchunk, usageOnTop_iff hwf, ← usageObjects_kept
      hkept.removeUsageField hremoved, ← hwritten.usageObjects]
    simp
  | @dropped space value hline hhides hchunk =>
    exact iff_of_true nofun ((hvalue hline).mpr (Or.inr hchunk))

theorem forall_sent_iff (hc : c.Lawful) (hp : p.native = true ∧ p.emitUsageToClient = false)
    {lines : List Bytes} {sent : List (Option Bytes)}
    (h : List.Forall₂ (LineKept c p) lines sent) :
    (∀ written ∈ sent.reduceOption, ∀ space v, JsonLine c written space v →
        usageObjects v = []) ↔
      ∀ line ∈ lines, ∀ space v, JsonLine c line space v → Hidable v := by
  induction h with
  | nil => simp
  | @cons line sent lines rest hkept hrest ih =>
    rw [List.forall_mem_cons, ← hkept.usage_iff hc hp, ← ih]
    cases sent with
    | none => simp [List.reduceOption_cons_of_none]
    | some written =>
      rw [List.reduceOption_cons_of_some, List.forall_mem_cons]
      simp

theorem observer_handleFrame (n : SseNormalizer) (f : SseFrame) :
    (n.handleFrame f).1.observer = n.observer.observe f := by
  cases f with
  | data value space line =>
    rw [SseNormalizer.handleFrame, SseNormalizer.handleData]
    dsimp only
    split_ifs <;> rfl
  | _ => rfl

theorem usage_runHiding (chunks : List Bytes) :
    (runHiding c backendModel publicModel chunks).1.usage =
      streamUsage (frames c chunks.flatten) := by
  have hrun : ∀ (fs : List SseFrame) (n : SseNormalizer),
      (Mealy.run SseNormalizer.handleFrame n fs).1.observer.usage =
        n.observer.usage + streamUsage fs := by
    intro fs
    induction fs with
    | nil => exact fun n => (add_zero _).symm
    | cons f fs ih =>
      intro n
      rw [Mealy.run_cons, ih, observer_handleFrame]
      have hone := usage_observeAll n.observer [f]
      have hcons := streamUsage_append [f] fs
      rw [List.singleton_append] at hcons
      rw [hcons, ← add_assoc, ← hone]
      rfl
  unfold runHiding
  rw [SseStrategy.runAll_eq]
  refine (hrun (frames c chunks.flatten) _).trans ?_
  exact zero_add _

/-- **Usage is hidden, if and only if every value of the stream has its usage on top or is a chunk
with nothing but usage.** -/
theorem usageHidden_iff (hc : c.LawfulLine) (backendModel publicModel : Option String)
    (chunks : List Bytes) :
    UsageHidden c backendModel publicModel chunks ↔
      ∀ line ∈ cutLines chunks.flatten, ∀ space value, JsonLine c line space value →
        Hidable value := by
  obtain ⟨sent, hkept, hout⟩ := outBytes_passthrough hc (hidingUsage backendModel publicModel)
    chunks
  have hlines : cutLines (outBytes c (runHiding c backendModel publicModel chunks).2) =
      sent.reduceOption := by
    refine (congrArg cutLines hout).trans ?_
    exact cutLines_of_areLines (areLines_kept hc.toLawful hkept (areLines_cutLines _))
  rw [← forall_sent_iff hc.toLawful ⟨rfl, rfl⟩ hkept, ← hlines]
  exact ⟨fun h => h.hidden, fun h => ⟨h, usage_runHiding chunks⟩⟩

/-- A chunk with usage on top and one without. -/
def usageOnTopStream : Bytes :=
  asBytes "data: \x7b\"usage\":\x7b\"total_tokens\":3\x7d\x7d\n\ndata: 1\n"

/-- A chunk with usage inside another object. -/
def usageInsideStream : Bytes :=
  asBytes "data: \x7b\"x\":\x7b\"usage\":\x7b\x7d\x7d\x7d\n"

/-- No usage is left in the value of a frame once the field on top is removed. -/
def SseFrame.hidesUsage : SseFrame → Bool
  | .data value _ _ => decide (Onair.usageObjects (removeUsageField value) = [])
  | _ => true

/-- Usage on top is hidden. -/
theorem usageHidden_onTop : UsageHidden reference none none [usageOnTopStream] := by
  refine (usageHidden_iff reference_lawfulLine none none _).mpr fun line hline space value hv => ?_
  have hlines : ∀ line ∈ cutLines [usageOnTopStream].flatten,
      (parseSseLine reference line).hidesUsage = true := by decide +kernel
  have hparsed := hlines line hline
  rw [parseSseLine_eq_data.mpr hv, SseFrame.hidesUsage, decide_eq_true_iff] at hparsed
  exact Or.inl ((usageOnTop_iff (hv.fits reference_lawfulLine.toLawful).1).mpr hparsed)

/-- Usage inside another object is not hidden. -/
theorem not_usageHidden_inside : ¬UsageHidden reference none none [usageInsideStream] := by
  intro h
  have hlines : cutLines (outBytes reference (runHiding reference none none
      [usageInsideStream]).2) = [usageInsideStream] := by decide +kernel
  have hparse : parseSseLine reference usageInsideStream = .data
      (.object [("x", .object [("usage", .object [])])]) true usageInsideStream := by
    decide +kernel
  have hnone := h.hidden usageInsideStream (by rw [hlines]; exact List.mem_singleton_self _) _ _
    (parseSseLine_eq_data.mp hparse)
  exact absurd hnone (by decide)

end

end Onair
