import Mathlib.Data.List.Basic
import Mathlib.Order.Lattice

/-!
# Ranked rows

Rows are kept in descending order of their keys, with one row for each key; only so many of them are
kept.

* `put`, `putAll`: a row takes the place of the one with its key, or goes where it belongs;
* **`take_put_take`**: what is dropped cannot come back;
* `mem_putAll`: the last row of each key is kept;
* **`take_eq_take_iff`**: when the first rows of a list are those of the greatest keys.
-/

namespace Ranked

variable {α κ : Type} [LinearOrder κ] (key : α → κ)

/-- Put a row in the place of the one with its key, or before the first that has a smaller one. -/
def put (rows : List α) (row : α) : List α :=
  match rows with
  | [] => [row]
  | other :: rest =>
    if key other < key row then row :: other :: rest
    else if key other = key row then row :: rest
    else other :: put rest row

/-- Put some rows, one after the other. -/
def putAll (rows : List α) (new : List α) : List α := new.foldl (put key) rows

/-- The rows are in descending order. -/
def Descending (rows : List α) : Prop := rows.Pairwise fun a b => key b < key a

variable {key}

theorem put_cons (row other : α) (rest : List α) :
    put key (other :: rest) row = if key other < key row then row :: other :: rest
      else if key other = key row then row :: rest else other :: put key rest row := rfl

/-! ### Dropping rows -/

/-- **What is dropped cannot come back**: a row that is put only pushes others down. -/
theorem take_put_take (n : ℕ) (rows : List α) (row : α) :
    (put key (rows.take n) row).take n = (put key rows row).take n := by
  induction rows generalizing n with
  | nil => rw [List.take_nil]
  | cons other rest ih =>
    cases n with
    | zero => rw [List.take_zero, List.take_zero]
    | succ n =>
      rw [List.take_succ_cons, put_cons, put_cons]
      split_ifs with hless heq
      · rw [List.take_succ_cons, List.take_succ_cons]
        cases n with
        | zero => rfl
        | succ n => rw [List.take_succ_cons, List.take_succ_cons, List.take_take, Nat.min_eq_left
            (Nat.le_succ n)]
      · rw [List.take_succ_cons, List.take_succ_cons, List.take_take, Nat.min_self]
      · rw [List.take_succ_cons, List.take_succ_cons, ih]

/-! ### Rows of another kind -/

theorem put_map {β : Type} (f : β → α) (rows : List β) (row : β) :
    put key (rows.map f) (f row) = (put (key ∘ f) rows row).map f := by
  induction rows with
  | nil => rfl
  | cons other rest ih =>
    rw [List.map_cons, put_cons, put_cons, ih]
    simp only [Function.comp_apply]
    split_ifs <;> rfl

/-- A row takes the place of the one with its key, whether that was taken out before or not. -/
theorem put_filter {rows : List α} (h : Descending key rows) {row : α} {p : α → Bool}
    (hp : ∀ a ∈ rows, p a = true ↔ key a ≠ key row) :
    put key (rows.filter p) row = put key rows row := by
  induction rows with
  | nil => rfl
  | cons other rest ih =>
    obtain ⟨hother, hrest⟩ := List.pairwise_cons.mp h
    obtain ⟨hp', hp⟩ := List.forall_mem_cons.mp hp
    have hall (hle : key other ≤ key row) : rest.filter p = rest :=
      List.filter_eq_self.mpr fun a ha => (hp a ha).mpr ((hother a ha).trans_le hle).ne
    obtain hlt | heq | hgt := lt_trichotomy (key other) (key row)
    · rw [List.filter_cons_of_pos (hp'.mpr hlt.ne), hall hlt.le]
    · have hput : put key rest row = row :: rest := by
        cases rest with
        | nil => rfl
        | cons a rest => rw [put_cons, if_pos (heq ▸ hother a (by simp))]
      rw [List.filter_cons_of_neg (fun h => hp'.mp h heq), hall heq.le, hput, put_cons,
        if_neg heq.not_lt, if_pos heq]
    · rw [List.filter_cons_of_pos (hp'.mpr hgt.ne'), put_cons, put_cons, ih hrest hp,
        if_neg hgt.not_gt, if_neg hgt.not_gt, if_neg hgt.ne', if_neg hgt.ne']

/-! ### The rows that are kept -/

theorem mem_put {rows : List α} (h : Descending key rows) {row a : α} :
    a ∈ put key rows row ↔ a = row ∨ a ∈ rows ∧ key a ≠ key row := by
  induction rows with
  | nil => simp [put]
  | cons other rest ih =>
    obtain ⟨hother, hrest⟩ := List.pairwise_cons.mp h
    rw [put_cons]
    split_ifs with hless heq
    · have hne : ∀ b ∈ other :: rest, key b ≠ key row :=
        List.forall_mem_cons.mpr ⟨hless.ne, fun b hb => ((hother b hb).trans hless).ne⟩
      rw [List.mem_cons]
      exact or_congr_right ⟨fun ha => ⟨ha, hne a ha⟩, fun ha => ha.1⟩
    · have hne : ∀ b ∈ rest, key b ≠ key row := fun b hb => heq ▸ (hother b hb).ne
      rw [List.mem_cons]
      refine or_congr_right ⟨fun ha => ⟨List.mem_cons_of_mem _ ha, hne a ha⟩, fun ha => ?_⟩
      refine (List.mem_cons.mp ha.1).resolve_left fun hao => ha.2 ?_
      rw [hao, heq]
    · rw [List.mem_cons, ih hrest, List.mem_cons]
      constructor
      · rintro (rfl | rfl | ⟨ha, hne⟩)
        · exact Or.inr ⟨Or.inl rfl, heq⟩
        · exact Or.inl rfl
        · exact Or.inr ⟨Or.inr ha, hne⟩
      · rintro (rfl | ⟨rfl | ha, hne⟩)
        · exact Or.inr (Or.inl rfl)
        · exact Or.inl rfl
        · exact Or.inr (Or.inr ⟨ha, hne⟩)

theorem descending_put {rows : List α} (h : Descending key rows) (row : α) :
    Descending key (put key rows row) := by
  induction rows with
  | nil => exact List.pairwise_singleton _ _
  | cons other rest ih =>
    obtain ⟨hother, hrest⟩ := List.pairwise_cons.mp h
    rw [put_cons]
    split_ifs with hless heq
    · refine List.pairwise_cons.mpr ⟨?_, h⟩
      exact List.forall_mem_cons.mpr ⟨hless, fun b hb => (hother b hb).trans hless⟩
    · exact List.pairwise_cons.mpr ⟨fun b hb => heq ▸ hother b hb, hrest⟩
    · refine List.pairwise_cons.mpr ⟨fun b hb => ?_, ih hrest⟩
      obtain rfl | ⟨hb, -⟩ := (mem_put hrest).mp hb
      · exact lt_of_le_of_ne (not_lt.mp hless) (Ne.symm heq)
      · exact hother b hb

theorem descending_putAll {rows : List α} (h : Descending key rows) (new : List α) :
    Descending key (putAll key rows new) := by
  induction new generalizing rows with
  | nil => exact h
  | cons row new ih => exact ih (descending_put h row)

/-- **The last row of each key is kept.** -/
theorem mem_putAll {rows : List α} (h : Descending key rows) {new : List α} {a : α} :
    a ∈ putAll key rows new ↔ (new.reverse.find? fun b => key b = key a) = some a ∨
      a ∈ rows ∧ ∀ b ∈ new, key b ≠ key a := by
  induction new generalizing rows with
  | nil => simp [putAll]
  | cons row new ih =>
    rw [putAll, List.foldl_cons]
    refine (ih (descending_put h row)).trans ?_
    rw [List.reverse_cons, List.find?_append, List.forall_mem_cons, mem_put h]
    cases hfind : new.reverse.find? fun b => key b = key a with
    | some b =>
      have hb : ¬∀ b ∈ new, key b ≠ key a := fun hnew => by
        have hkey := List.find?_some hfind
        exact hnew b (List.mem_reverse.mp (List.mem_of_find?_eq_some hfind)) (by simpa using hkey)
      simp [hb]
    | none =>
      have hnew : ∀ b ∈ new, key b ≠ key a := by simpa using hfind
      by_cases hrow : key row = key a
      · simpa [hrow, eq_comm] using fun _ b hb => Ne.symm (hnew b hb)
      · have hne : a ≠ row := fun heq => hrow (heq ▸ rfl)
        simp [hrow, hne, Ne.symm hrow]

theorem Descending.nodup {rows : List α} (h : Descending key rows) : rows.Nodup :=
  h.imp fun hab heq => (heq ▸ hab).false

theorem Descending.perm {rows list : List α} (h : Descending key rows) (hlist : list.Nodup)
    (hmem : ∀ a, a ∈ rows ↔ a ∈ list) : rows.Perm list :=
  (List.perm_ext_iff_of_nodup h.nodup hlist).mpr hmem

/-- **The first rows of a list are those of the greatest keys** if and only if they are ranked, and
all the others are below them. -/
theorem take_eq_take_iff {rows list : List α} (h : Descending key rows) (hperm : rows.Perm list)
    (n : ℕ) : rows.take n = list.take n ↔
      Descending key (list.take n) ∧ ∀ a ∈ list.take n, ∀ b ∈ list.drop n, key b < key a := by
  constructor
  · intro heq
    have hdrop : (rows.drop n).Perm (list.drop n) := by
      rw [← List.take_append_drop n rows, ← List.take_append_drop n list, heq] at hperm
      exact (List.perm_append_left_iff _).mp hperm
    have hsplit := h
    rw [Descending, ← List.take_append_drop n rows, List.pairwise_append] at hsplit
    obtain ⟨htake, -, hcross⟩ := hsplit
    rw [heq] at htake hcross
    exact ⟨htake, fun a ha b hb => hcross a ha b (hdrop.mem_iff.mpr hb)⟩
  · induction n generalizing rows list with
    | zero => simp
    | succ n ih =>
      rintro ⟨htake, hcross⟩
      cases rows with
      | nil => rw [List.nil_perm.mp hperm]
      | cons a rows =>
        cases list with
        | nil => exact absurd hperm.symm (by simp)
        | cons b list =>
          rw [List.take_succ_cons] at htake hcross
          rw [List.drop_succ_cons] at hcross
          obtain ⟨hb, htake'⟩ := List.pairwise_cons.mp htake
          obtain ⟨ha, hrows⟩ := List.pairwise_cons.mp h
          have hbelow : ∀ c ∈ list, key c < key b := by
            intro c hc
            rw [← List.take_append_drop n list, List.mem_append] at hc
            exact hc.elim (hb c) (hcross b (by simp) c)
          have hab : a = b := by
            obtain rfl | hmem := List.mem_cons.mp (hperm.mem_iff.mp (List.mem_cons_self (a := a)))
            · rfl
            · obtain rfl | hmem' :=
                List.mem_cons.mp (hperm.mem_iff.mpr (List.mem_cons_self (a := b)))
              · rfl
              · exact absurd (hbelow a hmem) (ha b hmem').not_gt
          subst hab
          rw [List.take_succ_cons, List.take_succ_cons, ih hrows ((List.perm_cons a).mp hperm)
            ⟨htake', fun c hc => hcross c (List.mem_cons_of_mem _ hc)⟩]

end Ranked
