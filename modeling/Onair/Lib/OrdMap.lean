import Mathlib.Data.String.Basic
import Mathlib.Order.Basic

/-!
# Ordered maps as association lists

A map with keys in a linear order is the list of its entries by increasing key.

* `get`, `insert`, `erase`: lookup, insertion at its place, removal;
* `orInsert`, `modify`: insertion of what is not there, change of what is;
* `get_insert`, `get_erase`: the lookup laws, which hold of any list;
* `Sorted`, `sorted_insert`, `sorted_erase`: the order, which all operations keep;
* `get_eq_some_iff`: in a sorted list, looking up is membership.
-/

namespace OrdMap

variable {κ α : Type} [LinearOrder κ]

/-- The value of the first entry with key `k`. -/
def get (k : κ) : List (κ × α) → Option α
  | [] => none
  | (k', v) :: m => if k = k' then some v else get k m

/-- Set the value of `k`, keeping the keys increasing. -/
def insert (k : κ) (v : α) : List (κ × α) → List (κ × α)
  | [] => [(k, v)]
  | (k', v') :: m =>
    if k = k' then (k, v) :: m
    else if k < k' then (k, v) :: (k', v') :: m
    else (k', v') :: insert k v m

/-- Remove the entries with key `k`. -/
def erase (k : κ) (m : List (κ × α)) : List (κ × α) := m.filter fun e => e.1 ≠ k

/-- Set the value of `k` if it has none. -/
def orInsert (k : κ) (v : α) (m : List (κ × α)) : List (κ × α) :=
  if (get k m).isSome then m else insert k v m

/-- Change the value of `k` if it has one. -/
def modify (k : κ) (f : α → α) (m : List (κ × α)) : List (κ × α) :=
  m.map fun e => (e.1, if e.1 = k then f e.2 else e.2)

/-- Insert the entries of a list one after another; later entries win. -/
def ofList (l : List (κ × α)) : List (κ × α) :=
  l.foldl (fun m e => insert e.1 e.2 m) []

/-- The keys increase. -/
def Sorted (m : List (κ × α)) : Prop := m.Pairwise fun a b => a.1 < b.1

theorem insert_nil (k : κ) (v : α) : insert k v ([] : List (κ × α)) = [(k, v)] := rfl

theorem insert_cons (k k' : κ) (v v' : α) (m : List (κ × α)) :
    insert k v ((k', v') :: m) = if k = k' then (k, v) :: m
      else if k < k' then (k, v) :: (k', v') :: m else (k', v') :: insert k v m := rfl

/-! ### Lookup and removal -/

@[simp] theorem get_nil (k : κ) : get k ([] : List (κ × α)) = none := rfl

@[simp] theorem get_cons (k k' : κ) (v : α) (m : List (κ × α)) :
    get k ((k', v) :: m) = if k = k' then some v else get k m := rfl

theorem mem_of_get {k : κ} {v : α} {m : List (κ × α)} (h : get k m = some v) : (k, v) ∈ m := by
  induction m with
  | nil => simp at h
  | cons e m ih =>
    obtain ⟨k', v'⟩ := e
    rw [get_cons] at h
    split_ifs at h with hk
    · simp_all
    · exact List.mem_cons_of_mem _ (ih h)

theorem get_eq_none_iff {k : κ} {m : List (κ × α)} : get k m = none ↔ ∀ e ∈ m, e.1 ≠ k := by
  induction m with
  | nil => simp
  | cons e m ih =>
    obtain ⟨k', v'⟩ := e
    rw [get_cons]
    split_ifs with hk
    · simp [hk]
    · simp [ih, Ne.symm hk]

theorem get_of_lt {k : κ} {m : List (κ × α)} (h : ∀ e ∈ m, e.1 < k) : get k m = none :=
  get_eq_none_iff.mpr fun e he => (h e he).ne

theorem get_erase_self (k : κ) (m : List (κ × α)) : get k (erase k m) = none := by
  rw [get_eq_none_iff]
  intro e he
  simpa [erase] using (List.mem_filter.mp he).2

theorem get_erase_ne {k k' : κ} (h : k ≠ k') (m : List (κ × α)) :
    get k (erase k' m) = get k m := by
  induction m with
  | nil => rfl
  | cons e m ih =>
    obtain ⟨k₁, v₁⟩ := e
    by_cases hk : k₁ = k'
    · rw [erase, List.filter_cons_of_neg (by simp [hk]), get_cons, if_neg (by rw [hk]; exact h)]
      exact ih
    · rw [erase, List.filter_cons_of_pos (by simp [hk]), get_cons, get_cons]
      rw [← erase, ih]

theorem get_filter (k : κ) (p : κ → Prop) [DecidablePred p] (m : List (κ × α)) :
    get k (m.filter fun e => p e.1) = if p k then get k m else none := by
  induction m with
  | nil => simp
  | cons e m ih =>
    obtain ⟨k', v⟩ := e
    by_cases hp : p k'
    · rw [List.filter_cons_of_pos (by simpa using hp), get_cons, get_cons, ih]
      by_cases hk : k = k'
      · rw [if_pos hk, if_pos hk, if_pos (hk ▸ hp)]
      · rw [if_neg hk, if_neg hk]
    · rw [List.filter_cons_of_neg (by simpa using hp), ih, get_cons]
      by_cases hk : k = k'
      · rw [if_neg (hk ▸ hp), if_neg (hk ▸ hp)]
      · rw [if_neg hk]

theorem get_map {β : Type} (k : κ) (f : κ → α → β) (m : List (κ × α)) :
    get k (m.map fun e => (e.1, f e.1 e.2)) = (get k m).map (f k) := by
  induction m with
  | nil => rfl
  | cons e m ih =>
    obtain ⟨k', v'⟩ := e
    rw [List.map_cons, get_cons, get_cons]
    split_ifs with hk
    · rw [hk]; rfl
    · exact ih

/-! ### Insertion -/

theorem isEmpty_insert (k : κ) (v : α) (m : List (κ × α)) : (insert k v m).isEmpty = false := by
  cases m with
  | nil => rfl
  | cons e m =>
    rw [insert_cons]
    split_ifs <;> rfl

/-- A later value takes the place of an earlier one. -/
theorem insert_insert (k : κ) (v w : α) (m : List (κ × α)) :
    insert k v (insert k w m) = insert k v m := by
  induction m with
  | nil => simp [insert_nil, insert_cons]
  | cons e m ih =>
    rw [insert_cons, insert_cons]
    split_ifs with hk hlt
    · rw [insert_cons, if_pos rfl]
    · rw [insert_cons, if_pos rfl]
    · rw [insert_cons, if_neg hk, if_neg hlt, ih]

theorem get_insert_self (k : κ) (v : α) (m : List (κ × α)) : get k (insert k v m) = some v := by
  induction m with
  | nil => simp [insert_nil]
  | cons e m ih =>
    obtain ⟨k', v'⟩ := e
    rw [insert_cons]
    split_ifs with h1 h2
    · simp
    · simp
    · rw [get_cons, if_neg h1, ih]

theorem get_insert_ne {k k' : κ} (h : k ≠ k') (v : α) (m : List (κ × α)) :
    get k (insert k' v m) = get k m := by
  induction m with
  | nil => simp [insert_nil, h]
  | cons e m ih =>
    obtain ⟨k₁, v₁⟩ := e
    rw [insert_cons]
    split_ifs with h1 h2
    · subst h1; simp [h]
    · simp [h]
    · rw [get_cons, get_cons, ih]

/-- **Looking up after an insertion.** -/
theorem get_insert (k k' : κ) (v : α) (m : List (κ × α)) :
    get k (insert k' v m) = if k = k' then some v else get k m := by
  split_ifs with h
  · subst h; exact get_insert_self k v m
  · exact get_insert_ne h v m

theorem erase_insert (k : κ) (v : α) (m : List (κ × α)) : erase k (insert k v m) = erase k m := by
  induction m with
  | nil => simp [insert_nil, erase]
  | cons e m ih =>
    obtain ⟨k', v'⟩ := e
    rw [insert_cons]
    split_ifs with hk hlt
    · simp [erase, hk]
    · simp [erase]
    · have hkeep : k' ≠ k := fun heq => hk heq.symm
      rw [erase, List.filter_cons_of_pos (by simpa using hkeep), ← erase, ih, erase, erase,
        List.filter_cons_of_pos (by simpa using hkeep)]

theorem erase_map (k : κ) (f : κ → α → α) (m : List (κ × α)) :
    erase k (m.map fun e => (e.1, f e.1 e.2)) = (erase k m).map fun e => (e.1, f e.1 e.2) := by
  rw [erase, List.filter_map]
  rfl

theorem mem_insert {k : κ} {v : α} {m : List (κ × α)} {e : κ × α} (h : e ∈ insert k v m) :
    e = (k, v) ∨ e ∈ m := by
  induction m with
  | nil => simpa [insert] using h
  | cons e' m ih =>
    obtain ⟨k', v'⟩ := e'
    rw [insert_cons] at h
    split_ifs at h with h1 h2
    · rcases List.mem_cons.mp h with h | h
      · exact Or.inl h
      · exact Or.inr (List.mem_cons_of_mem _ h)
    · simpa using h
    · rcases List.mem_cons.mp h with h | h
      · exact Or.inr (by simp [h])
      · exact (ih h).imp id (List.mem_cons_of_mem _)

/-- **Insertion keeps the keys increasing.** -/
theorem sorted_insert {m : List (κ × α)} (h : Sorted m) (k : κ) (v : α) :
    Sorted (insert k v m) := by
  induction m with
  | nil => simp [insert_nil, Sorted]
  | cons e m ih =>
    obtain ⟨k', v'⟩ := e
    have hm := List.pairwise_cons.mp h
    rw [insert_cons]
    split_ifs with h1 h2
    · subst h1; exact List.pairwise_cons.mpr hm
    · refine List.pairwise_cons.mpr ⟨fun e he => ?_, h⟩
      rcases List.mem_cons.mp he with rfl | he
      · exact h2
      · exact lt_trans h2 (hm.1 e he)
    · refine List.pairwise_cons.mpr ⟨fun e he => ?_, ih hm.2⟩
      rcases mem_insert he with rfl | he
      · exact lt_of_le_of_ne (not_lt.mp h2) (Ne.symm h1)
      · exact hm.1 e he

theorem sorted_erase {m : List (κ × α)} (h : Sorted m) (k : κ) :
    Sorted (erase k m) := List.Pairwise.filter _ h

theorem sorted_map {β : Type} {m : List (κ × α)} (h : Sorted m) (f : κ → α → β) :
    Sorted (m.map fun e => (e.1, f e.1 e.2)) :=
  List.pairwise_map.mpr h

theorem get_orInsert (k k' : κ) (v : α) (m : List (κ × α)) :
    get k (orInsert k' v m) = if k = k' then (get k m).or (some v) else get k m := by
  unfold orInsert
  split_ifs with hsome hk hk
  · subst hk
    obtain ⟨w, hw⟩ := Option.isSome_iff_exists.mp hsome
    rw [hw]
    rfl
  · rfl
  · subst hk
    rw [get_insert_self, Option.not_isSome_iff_eq_none.mp hsome]
    rfl
  · exact get_insert_ne hk v m

theorem sorted_orInsert {m : List (κ × α)} (h : Sorted m) (k : κ) (v : α) :
    Sorted (orInsert k v m) := by
  unfold orInsert
  split_ifs
  · exact h
  · exact sorted_insert h k v

theorem get_modify (k k' : κ) (f : α → α) (m : List (κ × α)) :
    get k (modify k' f m) = (get k m).map fun v => if k = k' then f v else v :=
  get_map k (fun k v => if k = k' then f v else v) m

theorem sorted_modify {m : List (κ × α)} (h : Sorted m) (k : κ) (f : α → α) :
    Sorted (modify k f m) :=
  sorted_map h fun k' v => if k' = k then f v else v

theorem get_foldl_modify (k : κ) (f : α → α) {ks : List κ} (hks : ks.Nodup) (m : List (κ × α)) :
    get k (ks.foldl (fun m k' => modify k' f m) m) =
      (get k m).map fun v => if k ∈ ks then f v else v := by
  induction ks generalizing m with
  | nil => simp
  | cons k' ks ih =>
    obtain ⟨hnew, hks⟩ := List.nodup_cons.mp hks
    rw [List.foldl_cons, ih hks, get_modify, Option.map_map]
    congr 1
    funext v
    by_cases hk : k = k'
    · subst hk
      simp [hnew]
    · simp [hk]

theorem insert_map (k : κ) (v : α) (m : List (κ × α)) (f : κ → α → α) :
    (insert k v m).map (fun e => (e.1, f e.1 e.2)) =
      insert k (f k v) (m.map fun e => (e.1, f e.1 e.2)) := by
  induction m with
  | nil => rfl
  | cons e m ih =>
    rw [insert_cons, List.map_cons, insert_cons]
    split_ifs
    · rfl
    · rfl
    · rw [List.map_cons, ih]

theorem sorted_foldl {m : List (κ × α)} (h : Sorted m) (l : List (κ × α)) :
    Sorted (l.foldl (fun m e => insert e.1 e.2 m) m) := by
  induction l generalizing m with
  | nil => exact h
  | cons e l ih => exact ih (sorted_insert h e.1 e.2)

theorem sorted_ofList (l : List (κ × α)) : Sorted (ofList l) := sorted_foldl List.Pairwise.nil l

theorem get_foldl_insert (k : κ) (l m : List (κ × α)) :
    get k (l.foldl (fun m e => insert e.1 e.2 m) m) = (get k l.reverse).or (get k m) := by
  induction l generalizing m with
  | nil => simp
  | cons e l ih =>
    rw [List.foldl_cons, ih, get_insert, List.reverse_cons]
    have happ : ∀ l₁ l₂ : List (κ × α), get k (l₁ ++ l₂) = (get k l₁).or (get k l₂) := by
      intro l₁ l₂
      induction l₁ with
      | nil => simp
      | cons e' l₁ ih' =>
        obtain ⟨k', v'⟩ := e'
        rw [List.cons_append, get_cons, get_cons, ih']
        split_ifs <;> simp
    rw [happ]
    obtain ⟨k', v'⟩ := e
    by_cases hk : k = k' <;> cases get k l.reverse <;> simp [hk]

theorem get_ofList (k : κ) (l : List (κ × α)) : get k (ofList l) = get k l.reverse := by
  rw [ofList, get_foldl_insert]
  simp

theorem mem_foldl_insert {l m : List (κ × α)} {e : κ × α}
    (h : e ∈ l.foldl (fun m e => insert e.1 e.2 m) m) : e ∈ l ∨ e ∈ m := by
  induction l generalizing m with
  | nil => exact Or.inr h
  | cons e' l ih =>
    rcases ih h with h | h
    · exact Or.inl (List.mem_cons_of_mem _ h)
    · rcases mem_insert h with rfl | h
      · exact Or.inl List.mem_cons_self
      · exact Or.inr h

theorem mem_ofList {l : List (κ × α)} {e : κ × α} (h : e ∈ ofList l) : e ∈ l := by
  rcases mem_foldl_insert h with h | h
  · exact h
  · exact absurd h List.not_mem_nil

theorem get_eq_some_iff {m : List (κ × α)} (h : Sorted m) {k : κ} {v : α} :
    get k m = some v ↔ (k, v) ∈ m := by
  refine ⟨mem_of_get, fun hm => ?_⟩
  induction m with
  | nil => simp at hm
  | cons e m ih =>
    obtain ⟨k', v'⟩ := e
    have hs := List.pairwise_cons.mp h
    rcases List.mem_cons.mp hm with he | hm
    · simp_all
    · rw [get_cons, if_neg (fun hk => ?_), ih hs.2 hm]
      have := hs.1 _ hm
      simp [hk] at this

theorem insert_of_lt {m : List (κ × α)} {k : κ} (h : ∀ e ∈ m, e.1 < k) (v : α) :
    insert k v m = m ++ [(k, v)] := by
  induction m with
  | nil => rfl
  | cons e m ih =>
    obtain ⟨k', v'⟩ := e
    have hk : k' < k := h _ List.mem_cons_self
    rw [insert_cons, if_neg hk.ne', if_neg hk.asymm, ih fun e he => h e (List.mem_cons_of_mem _ he)]
    rfl

theorem ofList_of_sorted {m : List (κ × α)} (h : Sorted m) : ofList m = m := by
  have hfold : ∀ l m : List (κ × α), Sorted (m ++ l) →
      l.foldl (fun m e => insert e.1 e.2 m) m = m ++ l := by
    intro l
    induction l with
    | nil => simp
    | cons e l ih =>
      intro m hs
      have hlt : ∀ e' ∈ m, e'.1 < e.1 := fun e' he' =>
        (List.pairwise_append.mp hs).2.2 e' he' e List.mem_cons_self
      rw [List.foldl_cons, insert_of_lt hlt, ih _ (by simpa using hs), List.append_assoc]
      rfl
  rw [ofList, hfold m [] (by simpa using h), List.nil_append]

theorem filterMap_key {β : Type} {m : List (κ × α)} (h : Sorted m) (k : κ) (f : κ × α → β) :
    (m.filterMap fun e => if e.1 = k then some (f e) else none) =
      ((get k m).map fun v => f (k, v)).toList := by
  induction m with
  | nil => rfl
  | cons e m ih =>
    obtain ⟨k', v'⟩ := e
    have hm := List.pairwise_cons.mp h
    by_cases hk : k' = k
    · subst hk
      have hnone : get k' m = none := get_eq_none_iff.mpr fun e he => (hm.1 e he).ne'
      rw [List.filterMap_cons_some (by rw [if_pos rfl]), ih hm.2, hnone]
      simp
    · rw [List.filterMap_cons_none (by rw [if_neg hk]), ih hm.2, get_cons, if_neg (Ne.symm hk)]

/-! ### Entries up to order -/

theorem erase_of_not_mem {m : List (κ × α)} {k : κ} (h : ∀ e ∈ m, e.1 ≠ k) : erase k m = m := by
  rw [erase, List.filter_eq_self]
  intro e he
  simpa using h e he

/-- The entries of a sorted list are the one at `k`, if there is one, and the others. -/
theorem perm_erase {m : List (κ × α)} (h : Sorted m) (k : κ) :
    m.Perm (((get k m).map fun v => (k, v)).toList ++ erase k m) := by
  induction m with
  | nil => exact List.Perm.refl _
  | cons e m ih =>
    obtain ⟨k', v'⟩ := e
    have hm := List.pairwise_cons.mp h
    by_cases hk : k = k'
    · subst hk
      have hrest : erase k m = m := erase_of_not_mem fun e he => (hm.1 e he).ne'
      rw [erase, List.filter_cons_of_neg (by simp), ← erase, hrest]
      simp
    · rw [erase, List.filter_cons_of_pos (by simpa using Ne.symm hk), ← erase, get_cons,
        if_neg hk]
      exact ((ih hm.2).cons _).trans List.perm_middle.symm

theorem perm_insert {m : List (κ × α)} (h : Sorted m) (k : κ) (v : α) :
    (insert k v m).Perm ((k, v) :: erase k m) := by
  have hp := perm_erase (sorted_insert h k v) k
  have herase : erase k (insert k v m) = erase k m := by
    clear hp h
    induction m with
    | nil => simp [insert_nil, erase]
    | cons e m ih =>
      obtain ⟨k', v'⟩ := e
      rw [insert_cons]
      split_ifs with h1 h2
      · subst h1; simp [erase]
      · simp [erase]
      · have hk : k' ≠ k := Ne.symm h1
        simp only [erase, ne_eq, hk, not_false_eq_true, decide_true, List.filter_cons_of_pos]
        simp only [erase, ne_eq] at ih
        rw [ih]
  rw [get_insert_self, herase] at hp
  exact hp

end OrdMap
