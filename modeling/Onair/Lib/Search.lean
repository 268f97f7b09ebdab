import Mathlib.Data.List.Infix

/-!
# Searching a list for another

* `position n l`: where `n` first occurs in `l`; `position_eq_some`, `position_eq_none`: what it
  finds;
* `Clear n a`: in `a` followed by `n`, the first occurrence of `n` is the one at the end. Cutting a
  text `a ++ n ++ b` at its first `n` gives back `a` and `b` exactly then;
* `clear_iff`: a needle whose first element does not come again in it never overlaps itself, so
  `Clear` says no more than that it does not occur in `a`.
-/

namespace Search

variable {α : Type} [DecidableEq α]

/-- The position of the first occurrence of `n`. -/
def position (n : List α) : List α → Option ℕ
  | [] => if n = [] then some 0 else none
  | a :: l => if n <+: a :: l then some 0 else (position n l).map (· + 1)

theorem position_eq_some {n l : List α} {i : ℕ} :
    position n l = some i ↔
      i ≤ l.length ∧ n <+: l.drop i ∧ ∀ j < i, ¬ n <+: l.drop j := by
  induction l generalizing i with
  | nil =>
    rw [position]
    split_ifs with h
    · subst h
      cases i <;> simp
    · simp [h]
  | cons a l ih =>
    rw [position]
    split_ifs with h
    · constructor
      · intro hi
        obtain rfl := (Option.some.inj hi).symm
        exact ⟨Nat.zero_le _, by simpa using h, by simp⟩
      · rintro ⟨-, -, hi⟩
        cases i with
        | zero => rfl
        | succ i => exact absurd (by simpa using h) (hi 0 (Nat.succ_pos i))
    · cases i with
      | zero => simp [h]
      | succ i =>
        simp only [Option.map_eq_some_iff, Nat.add_right_cancel_iff, exists_eq_right, ih,
          List.length_cons, Nat.add_le_add_iff_right, List.drop_succ_cons]
        refine and_congr_right fun _ => and_congr_right fun _ => ?_
        refine ⟨fun hj j hji => ?_, fun hj j hji => ?_⟩
        · cases j with
          | zero => simpa using h
          | succ j => simpa using hj j (by omega)
        · simpa using hj (j + 1) (by omega)

theorem position_eq_none {n l : List α} : position n l = none ↔ ¬ n <:+: l := by
  induction l with
  | nil => rw [position, List.infix_nil]; split_ifs with h <;> simp [h]
  | cons a l ih =>
    rw [position, List.infix_cons_iff]
    split_ifs with h
    · simp [h]
    · simp [h, ih]

theorem eq_of_position {n l : List α} {i : ℕ} (h : position n l = some i) :
    l = l.take i ++ (n ++ l.drop (i + n.length)) := by
  obtain ⟨hi, hn, -⟩ := position_eq_some.mp h
  obtain ⟨r, hr⟩ := hn
  have hd : l.drop (i + n.length) = r := by
    rw [← List.drop_drop, ← hr, List.drop_left]
  rw [hd, hr, List.take_append_drop]

/-- In `a` followed by `n`, the first occurrence of `n` is the one at the end. -/
def Clear (n a : List α) : Prop := position n (a ++ n) = some a.length

instance (n a : List α) : Decidable (Clear n a) := inferInstanceAs (Decidable (_ = _))

theorem Clear.position {n a : List α} (h : Clear n a) (b : List α) :
    position n (a ++ (n ++ b)) = some a.length := by
  obtain ⟨-, -, hj⟩ := position_eq_some.mp h
  refine position_eq_some.mpr ⟨by simp, by simp, fun j hja hn => hj j hja ?_⟩
  -- an occurrence before the end of `a` does not reach `b`
  rw [List.drop_append_of_le_length hja.le] at hn ⊢
  rw [← List.append_assoc] at hn
  refine List.prefix_of_prefix_length_le hn (List.prefix_append _ _) ?_
  simp

theorem Clear.of_position {n l : List α} {i : ℕ} (h : Search.position n l = some i) :
    Clear n (l.take i) := by
  obtain ⟨hi, hn, hj⟩ := position_eq_some.mp h
  have hl : (l.take i).length = i := List.length_take_of_le hi
  refine position_eq_some.mpr ⟨by simp, by simp, fun j hji hp => ?_⟩
  rw [hl] at hji
  refine hj j hji (hp.trans ?_)
  obtain ⟨r, hr⟩ := hn
  refine ⟨r, ?_⟩
  rw [← List.drop_append_of_le_length (by simp; omega), List.append_assoc, hr,
    List.take_append_drop]

theorem Clear.not_infix {n a : List α} (hn : n ≠ []) (h : Clear n a) : ¬ n <:+: a := by
  rintro ⟨s, t, rfl⟩
  obtain ⟨-, -, hj⟩ := position_eq_some.mp h
  refine hj s.length ?_ ?_
  · simp only [List.length_append]
    have := List.length_pos_of_ne_nil hn
    omega
  · simp

/-- A needle whose first element does not come again in it does not overlap itself. -/
theorem clear_iff {x : α} {n a : List α} (hx : x ∉ n) : Clear (x :: n) a ↔ ¬ x :: n <:+: a := by
  constructor
  · exact Clear.not_infix (by simp)
  · intro h
    refine position_eq_some.mpr ⟨by simp, by simp, fun j hj hp => h ?_⟩
    rw [List.drop_append_of_le_length hj.le] at hp
    by_cases hl : (x :: n).length ≤ (a.drop j).length
    · exact (List.prefix_of_prefix_length_le hp (List.prefix_append _ _) hl).isInfix.trans
        (List.drop_suffix j a).isInfix
    · -- the occurrence would reach the `x` after `a`, at one of the places of `n`
      exfalso
      obtain ⟨r, hr⟩ := hp
      have hd : 0 < (a.drop j).length := by simp; omega
      have h1 : ((x :: n) ++ r)[(a.drop j).length]? = some x := by
        rw [hr, List.getElem?_append_right le_rfl]
        simp
      rw [List.getElem?_append_left (by omega)] at h1
      obtain ⟨k, hk⟩ : ∃ k, (a.drop j).length = k + 1 := ⟨_, (Nat.succ_pred hd.ne').symm⟩
      rw [hk, List.getElem?_cons_succ] at h1
      exact hx (List.mem_of_getElem? h1)

omit [DecidableEq α] in
/-- An occurrence of such a needle does not reach over its first element. -/
theorem infix_append_cons {x : α} {n a b : List α} (hx : x ∉ n) (h : x :: n <:+: a ++ x :: b) :
    x :: n <:+: a ∨ x :: n <:+: x :: b := by
  rw [or_iff_not_imp_left]
  intro ha
  obtain ⟨s, t, he⟩ := h
  rw [List.append_assoc] at he
  obtain ⟨r, rfl, hr⟩ | ⟨r, rfl, hr⟩ := List.append_eq_append_iff.mp he
  · cases r with
    | nil => exact ⟨[], t, by simpa using hr⟩
    | cons y r =>
      -- the occurrence begins in `a`, so it would have to go on over `x`
      exfalso
      obtain ⟨rfl, hr'⟩ : x = y ∧ n ++ t = r ++ x :: b := by simpa using hr
      obtain ⟨q, rfl, -⟩ | ⟨q, rfl, hq⟩ := List.append_eq_append_iff.mp hr'
      · exact ha ⟨s, q, by simp⟩
      · cases q with
        | nil => exact ha ⟨s, [], by simp⟩
        | cons z q =>
          obtain ⟨rfl, -⟩ : x = z ∧ b = q ++ t := by simpa using hq
          exact hx (by simp)
  · exact ⟨r, t, by simpa using hr.symm⟩

end Search
