import Mathlib.Algebra.GroupWithZero.Nat
import Mathlib.Algebra.Order.BigOperators.Group.List
import Mathlib.Data.UInt
import Onair.Lib.Mealy

/-!
# Checked additions

Additions of machine integers, listed with their operands, so that one can ask whether they fit.

* `Addition`, `Addition.Fits`, `toNat_add`: an addition that fits is one of natural numbers;
* `saturatingSucc`: one more, up to the largest machine integer;
* `Mealy.trace`, `forall_mem_trace`: what the steps of a run do, in the states they are taken in;
  all of it meets a condition exactly where every step does.
-/

/-- An addition, by its operands. -/
abbrev Addition := UInt64 × UInt64

namespace Addition

/-- The sum is a machine integer. -/
def Fits (a : Addition) : Prop := a.1.toNat + a.2.toNat < 2 ^ 64

instance (a : Addition) : Decidable a.Fits := inferInstanceAs (Decidable (_ < _))

/-- **An addition that fits is exact.** -/
theorem toNat_add {a b : UInt64} (h : Fits (a, b)) : (a + b).toNat = a.toNat + b.toNat := by
  rw [UInt64.toNat_add]
  exact Nat.mod_eq_of_lt h

theorem fits_zero (b : UInt64) : Fits (0, b) := by
  rw [Fits, UInt64.toNat_zero, Nat.zero_add]
  exact b.toNat_lt

end Addition

/-- One more, up to the largest machine integer. -/
def saturatingSucc (n : UInt64) : UInt64 := if Addition.Fits (n, 1) then n + 1 else n

theorem toNat_saturatingSucc (n : UInt64) :
    (saturatingSucc n).toNat + (if Addition.Fits (n, 1) then 0 else 1) = n.toNat + 1 := by
  unfold saturatingSucc
  split_ifs with h
  · exact Addition.toNat_add h
  · rfl

namespace Mealy

variable {σ α β γ : Type} {step : σ → α → σ × List β} {did : σ → α → List γ}

/-- What the steps of a run do, one after another. -/
def trace (step : σ → α → σ × List β) (did : σ → α → List γ) : σ → List α → List γ
  | _, [] => []
  | s, a :: as => did s a ++ trace step did (step s a).1 as

/-- All that a run does meets a condition exactly where all that each of its steps does meets it. -/
theorem forall_mem_trace {P : γ → Prop} {Q : σ → α → Prop}
    (h : ∀ s a, (∀ x ∈ did s a, P x) ↔ Q s a) (s : σ) (as : List α) :
    (∀ x ∈ trace step did s as, P x) ↔ Along step Q s as := by
  induction as generalizing s with
  | nil => simp [trace, Along]
  | cons a as ih => rw [trace, List.forall_mem_append, h, ih, Along]

end Mealy
