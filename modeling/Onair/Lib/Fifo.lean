import Mathlib.Data.List.Basic
import Mathlib.Data.List.Dedup
import Mathlib.Data.List.Infix

/-!
# A bounded store of keyed records

A record replaces the one with its key, or goes to the back; in a full store the oldest record
makes room.

* `upsert`, `get`, `play`: one write, the record of a key, and a sequence of writes;
* `ofKey_upsert_self`, `ofKey_upsert_other`: a write of a key, and what other writes do to it;
* **`get_play`**: the last write of a key is what is found, until it is evicted;
* `map_key_upsert`, **`suffix_newKeys`**: the keys of the store, and those that were added;
* `latest`, `mem_latest_upsert`: the records at the back, and what a write does to them.
-/

namespace Fifo

variable {α κ : Type} [DecidableEq κ] (key : α → κ)

/-- Put a record in the place of the first one with its key, or at the back. -/
def upsert (capacity : ℕ) (records : List α) (record : α) : List α :=
  if ∃ slot ∈ records, key slot = key record then
    records.replaceF fun slot => if key slot = key record then some record else none
  else (if capacity ≤ records.length then records.tail else records) ++ [record]

/-- The newest record of a key. -/
def get (records : List α) (k : κ) : Option α := records.reverse.find? fun r => key r = k

/-- A sequence of writes, each with its own capacity. -/
def play (records : List α) (writes : List (ℕ × α)) : List α :=
  writes.foldl (fun records w => upsert key w.1 records w.2) records

/-- The last records of the store. -/
def latest (n : ℕ) (records : List α) : List α := records.drop (records.length - n)

/-- The records of a key. -/
def ofKey (k : κ) (records : List α) : List α := records.filter fun r => key r = k

variable {key} {k : κ} {records : List α} {record : α} {capacity : ℕ}

theorem get_eq_getLast (k : κ) (records : List α) :
    get key records k = (ofKey key k records).getLast? := by
  rw [get, ofKey, ← List.head?_filter, List.filter_reverse, List.head?_reverse]

theorem ofKey_replace (h : ∃ slot ∈ records, key slot = key record) :
    ofKey key (key record) (records.replaceF fun slot =>
      if key slot = key record then some record else none) =
      record :: (ofKey key (key record) records).tail := by
  induction records with
  | nil => simp at h
  | cons slot records ih =>
    by_cases hs : key slot = key record
    · simp [ofKey, hs]
    · have h' : ∃ slot ∈ records, key slot = key record := by simpa [hs] using h
      simpa [ofKey, hs] using ih h'

/-- **A write of a key** leaves one record of it. -/
theorem ofKey_upsert_self (h : (ofKey key (key record) records).length ≤ 1) :
    ofKey key (key record) (upsert key capacity records record) = [record] := by
  unfold upsert
  split_ifs with hex hfull
  · have htail : (ofKey key (key record) records).tail = [] :=
      List.eq_nil_of_length_eq_zero (by rw [List.length_tail]; omega)
    rw [ofKey_replace hex, htail]
  · have hnone : ∀ r ∈ records.tail, ¬key r = key record := fun r hr heq =>
      hex ⟨r, List.mem_of_mem_tail hr, heq⟩
    simpa [ofKey] using hnone
  · have hnone : ∀ r ∈ records, ¬key r = key record := fun r hr heq => hex ⟨r, hr, heq⟩
    simpa [ofKey] using hnone

theorem ofKey_replaceF_other (h : key record ≠ k) (p : α → Prop) [DecidablePred p]
    (hp : ∀ slot, p slot → key slot ≠ k) :
    ofKey key k (records.replaceF fun slot => if p slot then some record else none) =
      ofKey key k records := by
  induction records with
  | nil => rfl
  | cons slot records ih =>
    by_cases hs : p slot
    · simp [ofKey, hs, h, hp slot hs]
    · simp only [List.replaceF, hs, if_false, ofKey, List.filter_cons]
      rw [show List.filter (fun r => decide (key r = k)) (List.replaceF _ records) = _ from ih]
      rfl

/-- **A write of another key** leaves the records of a key as they are, or evicts one. -/
theorem ofKey_upsert_other (h : key record ≠ k) :
    (ofKey key k (upsert key capacity records record)).Sublist (ofKey key k records) := by
  unfold upsert
  split_ifs with hex hfull
  · rw [ofKey_replaceF_other h _ fun slot hs => by rwa [hs]]
  · simpa [ofKey, h] using (List.tail_sublist records).filter _
  · simp [ofKey, h]

theorem ofKey_play_sublist {writes : List (ℕ × α)} (h : ∀ w ∈ writes, key w.2 ≠ k) :
    (ofKey key k (play key records writes)).Sublist (ofKey key k records) := by
  induction writes generalizing records with
  | nil => exact List.Sublist.refl _
  | cons w writes ih =>
    rw [List.forall_mem_cons] at h
    exact (ih h.2).trans (ofKey_upsert_other h.1)

/-- A store never holds two records of a key. -/
theorem length_ofKey_play (h : (ofKey key k records).length ≤ 1) (writes : List (ℕ × α)) :
    (ofKey key k (play key records writes)).length ≤ 1 := by
  induction writes generalizing records with
  | nil => exact h
  | cons w writes ih =>
    refine ih ?_
    by_cases hw : key w.2 = k
    · subst hw
      rw [ofKey_upsert_self h]
      exact Nat.le_refl 1
    · exact (ofKey_upsert_other hw).length_le.trans h

theorem play_append (writes writes' : List (ℕ × α)) :
    play key records (writes ++ writes') = play key (play key records writes) writes' :=
  List.foldl_append

/-- **The last write of a key** is what is found right after it, and later unless it was
evicted. -/
theorem get_play (h : (ofKey key (key record) records).length ≤ 1)
    (before : List (ℕ × α)) {after : List (ℕ × α)} (hafter : ∀ w ∈ after, key w.2 ≠ key record) :
    get key (play key records (before ++ [(capacity, record)])) (key record) = some record ∧
      (get key (play key records (before ++ (capacity, record) :: after)) (key record) =
          some record ∨
        get key (play key records (before ++ (capacity, record) :: after)) (key record) =
          none) := by
  have hself : ofKey key (key record) (play key records (before ++ [(capacity, record)])) =
      [record] := by
    rw [play_append]
    exact ofKey_upsert_self (length_ofKey_play h before)
  refine ⟨by rw [get_eq_getLast, hself]; rfl, ?_⟩
  have hsplit : before ++ (capacity, record) :: after =
      (before ++ [(capacity, record)]) ++ after := by simp
  have hsub : (ofKey key (key record)
      (play key (play key records (before ++ [(capacity, record)])) after)).Sublist [record] :=
    hself ▸ ofKey_play_sublist hafter
  rw [hsplit, play_append, get_eq_getLast]
  obtain hnil | hone := List.sublist_singleton.mp hsub
  · right
    rw [hnil]
    rfl
  · left
    rw [hone]
    rfl

/-! ### Keys -/

theorem map_key_replaceF : (records.replaceF fun slot =>
    if key slot = key record then some record else none).map key = records.map key := by
  induction records with
  | nil => rfl
  | cons slot records ih =>
    by_cases hs : key slot = key record
    · simp [hs]
    · simpa [List.replaceF, hs] using ih

theorem map_key_upsert : (upsert key capacity records record).map key =
    if key record ∈ records.map key then records.map key
    else (if capacity ≤ records.length then (records.map key).tail else records.map key) ++
      [key record] := by
  unfold upsert
  simp only [← List.mem_map]
  split_ifs with hmem hfull
  · exact map_key_replaceF
  · rw [List.map_append, List.map_tail]
    rfl
  · rw [List.map_append]
    rfl

/-- **A write keeps the bound** if and only if the store was within it before. -/
theorem length_upsert_le (hcapacity : 1 ≤ capacity) :
    (upsert key capacity records record).length ≤ capacity ↔ records.length ≤ capacity := by
  have hlength : ((upsert key capacity records record).map key).length = _ :=
    congrArg List.length map_key_upsert
  rw [List.length_map] at hlength
  rw [hlength]
  split_ifs with hmem hfull
  · rw [List.length_map]
  · rw [List.length_append, List.length_tail, List.length_map, List.length_singleton]
    omega
  · rw [List.length_append, List.length_map, List.length_singleton]
    omega

theorem nodup_upsert (h : (records.map key).Nodup) :
    ((upsert key capacity records record).map key).Nodup := by
  rw [map_key_upsert]
  split_ifs with hmem hfull
  · exact h
  · have htail : key record ∉ (records.map key).tail := fun ht => hmem (List.mem_of_mem_tail ht)
    simpa using List.Nodup.concat htail (h.sublist (List.tail_sublist _))
  · simpa using List.Nodup.concat hmem h

theorem get_upsert (h : (records.map key).Nodup) :
    get key (upsert key capacity records record) (key record) = some record := by
  have hone : (ofKey key (key record) records).length ≤ 1 := by
    have hcount := List.nodup_iff_count_le_one.mp h (key record)
    rw [List.count_eq_countP, List.countP_map, List.countP_eq_length_filter] at hcount
    simpa [ofKey, Function.comp_def, beq_eq_decide] using hcount
  rw [get_eq_getLast, ofKey_upsert_self hone]
  rfl

/-- The keys that are added in the course of some writes, in their order. -/
def newKeys (key : α → κ) (records : List α) : List (ℕ × α) → List κ
  | [] => []
  | w :: writes => (if key w.2 ∈ records.map key then [] else [key w.2]) ++
      newKeys key (upsert key w.1 records w.2) writes

/-- **The keys of the store are the last ones that were added**, in their order. -/
theorem suffix_newKeys (records : List α) (writes : List (ℕ × α)) :
    (play key records writes).map key <:+ records.map key ++ newKeys key records writes := by
  induction writes generalizing records with
  | nil =>
    rw [newKeys, List.append_nil]
    exact List.suffix_rfl
  | cons w writes ih =>
    have hstep : (upsert key w.1 records w.2).map key <:+
        records.map key ++ if key w.2 ∈ records.map key then [] else [key w.2] := by
      rw [map_key_upsert]
      split_ifs with hmem hfull
      · rw [List.append_nil]
      · obtain ⟨l, hl⟩ := List.tail_suffix (records.map key)
        exact ⟨l, by rw [← List.append_assoc, hl]⟩
      · exact List.suffix_rfl
    obtain ⟨l, hl⟩ := hstep
    refine (ih _).trans ⟨l, ?_⟩
    rw [newKeys, ← List.append_assoc, hl, List.append_assoc]

theorem nodup_play (h : (records.map key).Nodup) (writes : List (ℕ × α)) :
    ((play key records writes).map key).Nodup := by
  induction writes generalizing records with
  | nil => exact h
  | cons w writes ih => exact ih (nodup_upsert h)

/-! ### Lookup -/

theorem get_append (records records' : List α) (k : κ) :
    get key (records ++ records') k = (get key records' k).or (get key records k) := by
  rw [get, List.reverse_append, List.find?_append]
  rfl

theorem mem_of_get (h : get key records k = some record) : record ∈ records ∧ key record = k :=
  ⟨List.mem_reverse.mp (List.mem_of_find?_eq_some h), by simpa using List.find?_some h⟩

theorem get_eq_none_iff : get key records k = none ↔ ∀ r ∈ records, key r ≠ k := by
  rw [get, List.find?_eq_none]
  simp

theorem get_of_mem (h : (records.map key).Nodup) (hr : record ∈ records) :
    get key records (key record) = some record := by
  cases hget : get key records (key record) with
  | none => exact absurd rfl (get_eq_none_iff.mp hget record hr)
  | some found =>
    obtain ⟨hfound, hkey⟩ := mem_of_get hget
    rw [List.inj_on_of_nodup_map h hfound hr hkey]

theorem get_concat (k : κ) : get key (records ++ [record]) k =
    if k = key record then some record else get key records k := by
  rw [get_append]
  split_ifs with hk
  · simp [get, hk]
  · simp [get, Ne.symm hk]

theorem get_eq_some_of_append {l l' : List α} (h : get key l' k = some record) :
    get key (l ++ l') k = some record := by
  rw [get_append, h]
  rfl

theorem get_filter (p : α → Bool) (hp : ∀ r, key r = k → p r = true) (records : List α) :
    get key (records.filter p) k = get key records k := by
  rw [get_eq_getLast, get_eq_getLast, ofKey, ofKey, List.filter_filter]
  congr 1
  refine List.filter_congr fun r _ => ?_
  by_cases hk : key r = k
  · simp [hk, hp r hk]
  · simp [hk]

/-- Looking up when one record is taken to the front. -/
theorem get_extract (h : (records.map key).Nodup) (hr : record ∈ records) (k : κ) :
    get key (record :: records.filter fun r => key r ≠ key record) k = get key records k := by
  rw [← List.singleton_append, get_append]
  by_cases hk : key record = k
  · subst hk
    have hnone : get key (records.filter fun r => key r ≠ key record) (key record) = none := by
      rw [get_eq_none_iff]
      intro r hmem
      simpa using (List.mem_filter.mp hmem).2
    rw [hnone, get_of_mem h hr]
    simp [get]
  · have hsingle : get key [record] k = none := get_eq_none_iff.mpr (by simpa using hk)
    rw [hsingle, Option.or_none]
    refine get_filter _ (fun r hrk => ?_) records
    simpa [hrk] using Ne.symm hk

/-! ### The last records -/

theorem mem_of_mem_latest {n : ℕ} (h : record ∈ latest n records) : record ∈ records :=
  List.mem_of_mem_drop h

theorem mem_drop_replaceF {r : α} (f : α → Option α) (hf : ∀ slot, ∀ x ∈ f slot, x = record) (n : ℕ)
    (h : r ∈ (records.replaceF f).drop n) : r = record ∨ r ∈ records.drop n := by
  induction records generalizing n with
  | nil => exact Or.inr h
  | cons slot records ih =>
    rw [List.replaceF_cons] at h
    cases hslot : f slot with
    | some x =>
      rw [hslot] at h
      cases n with
      | zero =>
        obtain rfl | h := List.mem_cons.mp h
        · exact Or.inl (hf slot _ hslot)
        · exact Or.inr (List.mem_cons_of_mem _ h)
      | succ n => exact Or.inr h
    | none =>
      rw [hslot] at h
      cases n with
      | zero =>
        obtain rfl | h := List.mem_cons.mp h
        · exact Or.inr List.mem_cons_self
        · exact (ih 0 h).imp_right (List.mem_cons_of_mem _)
      | succ n => exact ih n h

/-- **A write brings no other record among the last ones.** -/
theorem mem_latest_upsert {r : α} {n : ℕ} (hr : key r ≠ key record)
    (h : r ∈ latest n (upsert key capacity records record)) : r ∈ latest n records := by
  have hne : r ≠ record := fun heq => hr (congrArg key heq)
  have hpush : ∀ l : List α, r ∈ latest n (l ++ [record]) → r ∈ l.drop (l.length + 1 - n) := by
    intro l hl
    rw [latest, List.length_append, List.length_singleton, List.drop_append] at hl
    refine (List.mem_append.mp hl).resolve_right fun hlast => hne ?_
    exact List.mem_singleton.mp (List.mem_of_mem_drop hlast)
  unfold upsert at h
  split_ifs at h with hex hfull
  · rw [latest, List.length_replaceF] at h
    refine (mem_drop_replaceF _ (fun slot x hx => ?_) _ h).resolve_left hne
    split_ifs at hx
    · exact (Option.some.inj hx).symm
    · cases hx
  · have hdrop := hpush _ h
    rw [← List.drop_one, List.drop_drop] at hdrop
    refine List.drop_subset_drop_left _ ?_ hdrop
    rw [List.length_drop]
    omega
  · exact List.drop_subset_drop_left _ (by omega) (hpush _ h)

theorem mem_upsert (h : (records.map key).Nodup) {r : α}
    (hr : r ∈ upsert key capacity records record) :
    r = record ∨ key r ≠ key record ∧ r ∈ records := by
  by_cases hk : key r = key record
  · have hget := get_of_mem (nodup_upsert h) hr
    rw [hk, get_upsert h] at hget
    exact Or.inl (Option.some.inj hget).symm
  · have hall : r ∈ latest (upsert key capacity records record).length
        (upsert key capacity records record) := by
      rwa [latest, Nat.sub_self, List.drop_zero]
    exact Or.inr ⟨hk, mem_of_mem_latest (mem_latest_upsert hk hall)⟩

end Fifo
