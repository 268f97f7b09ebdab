import Mathlib.Data.Int.CardIntervalMod
import Mathlib.Algebra.Order.BigOperators.Group.List
import Mathlib.Order.Interval.Finset.Nat

/-!
# Taking turns

Two ways to choose among the elements of a list: by turns, and by the interval of the cumulative
weights that a number falls into.

* `turns`, **`count_turns_le`**: after any number of turns, no element is more than one ahead;
* `scan`: the first element at which the weights add up to more than a number;
* `scan_eq_some_iff`, **`card_scan`**: the numbers that choose an element are an interval, and there
  are as many as its weight.
-/

namespace Turns

/-! ### By turns -/

/-- The positions of `n` elements that `rounds` turns choose. -/
def turns (n rounds : ℕ) : List ℕ := (List.range rounds).map (· % n)

@[simp] theorem length_turns (n rounds : ℕ) : (turns n rounds).length = rounds := by
  rw [turns, List.length_map, List.length_range]

theorem turns_succ (n rounds : ℕ) : turns n (rounds + 1) = turns n rounds ++ [rounds % n] := by
  rw [turns, List.range_succ, List.map_append]
  rfl

theorem count_turns {n i : ℕ} (h : i < n) (rounds : ℕ) :
    (turns n rounds).count i = rounds.count (· ≡ i [MOD n]) := by
  induction rounds with
  | zero => rfl
  | succ rounds ih =>
    rw [turns_succ, List.count_append, ih, Nat.count_succ, List.count_singleton]
    congr 1
    simp only [Nat.ModEq, Nat.mod_eq_of_lt h, beq_iff_eq]

/-- **Turns are fair**: no position is chosen more than once more often than another. -/
theorem count_turns_le {n i j : ℕ} (hi : i < n) (hj : j < n) (rounds : ℕ) :
    (turns n rounds).count i ≤ (turns n rounds).count j + 1 := by
  have hn : 0 < n := Nat.zero_lt_of_lt hi
  rw [count_turns hi, count_turns hj, Nat.count_modEq_card _ hn, Nat.count_modEq_card _ hn]
  split_ifs <;> omega

/-! ### By weight -/

variable {α : Type} (weight : α → ℕ)

/-- The first position at which the weights, added to `cumulative`, are more than `pick`. -/
def scan (pick : ℕ) : ℕ → List α → Option ℕ
  | _, [] => none
  | cumulative, a :: l =>
    if pick < cumulative + weight a then some 0
    else (scan pick (cumulative + weight a) l).map (· + 1)

/-- The weights of the first elements. -/
def sumTake (l : List α) (i : ℕ) : ℕ := ((l.take i).map weight).sum

variable {weight}

@[simp] theorem sumTake_zero (l : List α) : sumTake weight l 0 = 0 := rfl

theorem sumTake_cons (a : α) (l : List α) (i : ℕ) :
    sumTake weight (a :: l) (i + 1) = weight a + sumTake weight l i := by
  rw [sumTake, List.take_succ_cons, List.map_cons, List.sum_cons]
  rfl

theorem sumTake_succ {l : List α} {i : ℕ} (h : i < l.length) :
    sumTake weight l (i + 1) = sumTake weight l i + weight l[i] := by
  rw [sumTake, List.take_succ_eq_append_getElem h, List.map_append, List.sum_append]
  exact congrArg (sumTake weight l i + ·) (List.sum_singleton ..)

theorem sumTake_le_sum (l : List α) (i : ℕ) : sumTake weight l i ≤ (l.map weight).sum := by
  have hsplit : (l.map weight).sum = sumTake weight l i + ((l.drop i).map weight).sum := by
    rw [sumTake, ← List.sum_append, ← List.map_append, List.take_append_drop]
  omega

/-- The sum of the first weights is bounded by their number and the greatest weight. -/
theorem sumTake_le {l : List α} {bound : ℕ} (h : ∀ a ∈ l, weight a ≤ bound) (i : ℕ) :
    sumTake weight l i ≤ l.length * bound := by
  have hbound : ∀ w ∈ (l.take i).map weight, w ≤ bound := by
    intro w hw
    obtain ⟨a, ha, rfl⟩ := List.mem_map.mp hw
    exact h a (List.mem_of_mem_take ha)
  have hsum : sumTake weight l i ≤ (l.take i).length * bound := by
    have hcard := List.sum_le_card_nsmul _ bound hbound
    rwa [List.length_map, Nat.nsmul_eq_mul] at hcard
  refine hsum.trans (Nat.mul_le_mul_right bound ?_)
  rw [List.length_take]
  exact Nat.min_le_right _ _

/-- **A number chooses the element whose interval of the cumulative weights it falls into.** -/
theorem scan_eq_some_iff {pick cumulative : ℕ} {l : List α} {i : ℕ} (h : cumulative ≤ pick) :
    scan weight pick cumulative l = some i ↔ i < l.length ∧
      cumulative + sumTake weight l i ≤ pick ∧ pick < cumulative + sumTake weight l (i + 1) := by
  induction l generalizing cumulative i with
  | nil => simp [scan]
  | cons a l ih =>
    rw [scan]
    split_ifs with hhere
    · cases i with
      | zero => simp [sumTake_cons, h, hhere]
      | succ i =>
        rw [sumTake_cons]
        refine iff_of_false (by simp) ?_
        rintro ⟨-, hle, -⟩
        omega
    · cases i with
      | zero =>
        refine iff_of_false (by simp) ?_
        rintro ⟨-, -, hlt⟩
        rw [sumTake_cons, sumTake_zero] at hlt
        omega
      | succ i =>
        have hrest := @ih (cumulative + weight a) i (not_lt.mp hhere)
        rw [Option.map_eq_some_iff, sumTake_cons, sumTake_cons, List.length_cons,
          Nat.add_lt_add_iff_right, ← Nat.add_assoc, ← Nat.add_assoc, ← hrest]
        constructor
        · rintro ⟨k, hk, hki⟩
          rwa [← Nat.succ.inj hki]
        · intro hi
          exact ⟨i, hi, rfl⟩

theorem scan_isSome {pick cumulative : ℕ} {l : List α} (h : cumulative ≤ pick)
    (hsum : pick < cumulative + (l.map weight).sum) :
    ∃ i < l.length, scan weight pick cumulative l = some i := by
  induction l generalizing cumulative with
  | nil =>
    rw [List.map_nil, List.sum_nil] at hsum
    omega
  | cons a l ih =>
    rw [scan]
    split_ifs with hhere
    · exact ⟨0, Nat.succ_pos _, rfl⟩
    · rw [List.map_cons, List.sum_cons, ← Nat.add_assoc] at hsum
      obtain ⟨i, hi, hscan⟩ := ih (not_lt.mp hhere) hsum
      exact ⟨i + 1, Nat.succ_lt_succ hi, by rw [hscan, Option.map_some]⟩

/-- **As many numbers choose an element as it has weight.** -/
theorem card_scan {l : List α} {i : ℕ} (h : i < l.length) :
    ((Finset.range (l.map weight).sum).filter fun pick => scan weight pick 0 l = some i).card =
      weight l[i] := by
  have hinterval : ((Finset.range (l.map weight).sum).filter fun pick =>
      scan weight pick 0 l = some i) =
      Finset.Ico (sumTake weight l i) (sumTake weight l (i + 1)) := by
    ext pick
    have hsum : sumTake weight l (i + 1) ≤ (l.map weight).sum := sumTake_le_sum l (i + 1)
    rw [Finset.mem_filter, Finset.mem_range, Finset.mem_Ico, scan_eq_some_iff (Nat.zero_le pick),
      Nat.zero_add, Nat.zero_add]
    omega
  rw [hinterval, Nat.card_Ico, sumTake_succ h, Nat.add_sub_cancel_left]

end Turns
