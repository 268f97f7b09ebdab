import Mathlib.Data.List.Basic
import Mathlib.Tactic.Tauto

/-!
# Transducers with list outputs

A transducer step takes a state and an input letter to a new state and a list of output letters.

* `run`, `run_append`: a run over a list of letters, and its splitting;
* `run_inv`, `run_hist`: invariants of the state, and of the state together with the outputs so far;
* `run_forall`: what every output of a run meets, by an invariant of the state;
* `run_map`: renaming the states of a run;
* `Along`, `run_eq_nil_iff`: a condition met by every step of a run, in the state it is taken in.
-/

namespace Mealy

variable {σ τ α β : Type}

/-- The run of a transducer over a list of letters: last state and all outputs. -/
def run (step : σ → α → σ × List β) : σ → List α → σ × List β
  | s, [] => (s, [])
  | s, a :: as =>
    let r := step s a
    let r' := run step r.1 as
    (r'.1, r.2 ++ r'.2)

variable {step : σ → α → σ × List β}

@[simp] theorem run_nil (s : σ) : run step s [] = (s, []) := rfl

theorem run_cons (s : σ) (a : α) (as : List α) :
    run step s (a :: as) =
      ((run step (step s a).1 as).1, (step s a).2 ++ (run step (step s a).1 as).2) := rfl

@[simp] theorem run_singleton (s : σ) (a : α) : run step s [a] = step s a := by
  simp [run_cons]

theorem run_append (s : σ) (as bs : List α) :
    run step s (as ++ bs) = ((run step (run step s as).1 bs).1,
      (run step s as).2 ++ (run step (run step s as).1 bs).2) := by
  induction as generalizing s with
  | nil => simp
  | cons a as ih => simp only [List.cons_append, run_cons, ih, List.append_assoc]

/-- **Invariants of the state** are kept by whole runs. -/
theorem run_inv (I : σ → Prop) (hI : ∀ s a, I s → I (step s a).1) {s : σ} (hs : I s)
    (as : List α) : I (run step s as).1 := by
  induction as generalizing s with
  | nil => exact hs
  | cons a as ih => exact ih (hI s a hs)

/-- **Invariants of outputs and state**: what every step keeps of the outputs so far and the
state, a run keeps. The step may use that its letter is one of the letters of the run. -/
theorem run_hist (step : σ → α → σ × List β) (I : List β → σ → Prop) (as : List α)
    (hI : ∀ h s, ∀ a ∈ as, I h s → I (h ++ (step s a).2) (step s a).1) {h : List β} {s : σ}
    (hs : I h s) : I (h ++ (run step s as).2) (run step s as).1 := by
  induction as generalizing s h with
  | nil => simpa using hs
  | cons a as ih =>
    rw [run_cons]
    have := ih (fun h s b hb => hI h s b (List.mem_cons_of_mem _ hb))
      (hI h s a List.mem_cons_self hs)
    simpa [List.append_assoc] using this

/-- **Outputs under an invariant**: where every step in a state that meets `I` keeps it and sends
outputs that meet `P`, a run does. -/
theorem run_forall (I : σ → Prop) (P : β → Prop) {as : List α}
    (h : ∀ s, ∀ a ∈ as, I s → I (step s a).1 ∧ ∀ o ∈ (step s a).2, P o) {s : σ} (hs : I s) :
    I (run step s as).1 ∧ ∀ o ∈ (run step s as).2, P o := by
  induction as generalizing s with
  | nil => exact ⟨hs, by simp⟩
  | cons a as ih =>
    obtain ⟨hstate, hout⟩ := h s a List.mem_cons_self hs
    obtain ⟨hstate', hout'⟩ := ih (fun s b hb => h s b (List.mem_cons_of_mem _ hb)) hstate
    exact ⟨hstate', List.forall_mem_append.mpr ⟨hout, hout'⟩⟩

/-- **Renaming states**: a transducer that runs inside another through `f` has the same outputs. -/
theorem run_map (step : σ → α → σ × List β) {step' : τ → α → τ × List β} (f : σ → τ)
    (hf : ∀ s a, step' (f s) a = (f (step s a).1, (step s a).2)) (s : σ) (as : List α) :
    run step' (f s) as = (f (run step s as).1, (run step s as).2) := by
  induction as generalizing s with
  | nil => rfl
  | cons a as ih => rw [run_cons, hf, ih]; rfl

/-- Every step of the run meets `P` in the state it is taken in. -/
def Along (step : σ → α → σ × List β) (P : σ → α → Prop) : σ → List α → Prop
  | _, [] => True
  | s, a :: as => P s a ∧ Along step P (step s a).1 as

/-- Whether every step meets a decidable condition is decided by running. -/
instance decidableAlong (step : σ → α → σ × List β) (P : σ → α → Prop)
    [∀ s a, Decidable (P s a)] : ∀ s as, Decidable (Along step P s as)
  | _, [] => isTrue trivial
  | s, a :: as =>
    have := decidableAlong step P (step s a).1 as
    inferInstanceAs (Decidable (P s a ∧ Along step P (step s a).1 as))

theorem along_append (P : σ → α → Prop) (s : σ) (as bs : List α) :
    Along step P s (as ++ bs) ↔ Along step P s as ∧ Along step P (run step s as).1 bs := by
  induction as generalizing s with
  | nil => simp [Along]
  | cons a as ih => simp only [List.cons_append, Along, ih, run_cons, and_assoc]

theorem along_and (P Q : σ → α → Prop) (s : σ) (as : List α) :
    Along step (fun s a => P s a ∧ Q s a) s as ↔ Along step P s as ∧ Along step Q s as := by
  induction as generalizing s with
  | nil => simp [Along]
  | cons a as ih =>
    rw [Along, Along, Along, ih]
    tauto

theorem along_of_inv {P : σ → α → Prop} (I : σ → Prop) (hI : ∀ s a, I s → I (step s a).1)
    (hP : ∀ s a, I s → P s a) {s : σ} (hs : I s) (as : List α) : Along step P s as := by
  induction as generalizing s with
  | nil => trivial
  | cons a as ih => exact ⟨hP s a hs, ih (hI s a hs)⟩

/-- **Invariants along a run**: what every step that meets `P` keeps of outputs and state, a run
along `P` keeps. -/
theorem run_hist_along {P : σ → α → Prop} (I : List β → σ → Prop)
    (hI : ∀ h s a, P s a → I h s → I (h ++ (step s a).2) (step s a).1) {as : List α} {h : List β}
    {s : σ} (has : Along step P s as) (hs : I h s) :
    I (h ++ (run step s as).2) (run step s as).1 := by
  induction as generalizing s h with
  | nil => simpa using hs
  | cons a as ih =>
    have := ih has.2 (hI h s a has.1 hs)
    rw [run_cons]
    simpa [List.append_assoc] using this

/-- A run not all of whose steps avoid `P` has a first step that meets it. -/
theorem exists_first_of_not_along {P : σ → α → Prop} {s : σ} {as : List α}
    (h : ¬Along step (fun s a => ¬P s a) s as) :
    ∃ pre a post, as = pre ++ a :: post ∧ Along step (fun s a => ¬P s a) s pre ∧
      P (run step s pre).1 a := by
  induction as generalizing s with
  | nil => exact absurd trivial h
  | cons a as ih =>
    by_cases ha : P s a
    · exact ⟨[], a, as, rfl, trivial, ha⟩
    · obtain ⟨pre, a', post, rfl, hpre, hP⟩ := ih fun has => h ⟨ha, has⟩
      exact ⟨a :: pre, a', post, rfl, ⟨ha, hpre⟩, hP⟩

theorem not_of_along {P : σ → α → Prop} {s : σ} {pre post : List α} {a : α}
    (h : Along step (fun s a => ¬P s a) s (pre ++ a :: post)) : ¬P (run step s pre).1 a :=
  ((along_append _ _ _ _).mp h).2.1

/-- Two conditions that agree wherever `I` holds are met by the same runs. -/
theorem along_congr {P Q : σ → α → Prop} (I : σ → Prop) (as : List α)
    (hI : ∀ s, ∀ a ∈ as, I s → I (step s a).1) (hPQ : ∀ s, ∀ a ∈ as, I s → (P s a ↔ Q s a))
    {s : σ} (hs : I s) : Along step P s as ↔ Along step Q s as := by
  induction as generalizing s with
  | nil => rfl
  | cons a as ih =>
    have h := ih (fun s b hb => hI s b (List.mem_cons_of_mem _ hb))
      (fun s b hb => hPQ s b (List.mem_cons_of_mem _ hb)) (hI s a List.mem_cons_self hs)
    rw [Along, Along, hPQ s a List.mem_cons_self hs, h]

/-- **A run is silent if and only if all its steps are.** -/
theorem run_eq_nil_iff (s : σ) (as : List α) :
    (run step s as).2 = [] ↔ Along step (fun s a => (step s a).2 = []) s as := by
  induction as generalizing s with
  | nil => simp [Along]
  | cons a as ih => rw [run_cons, Along, ← ih, List.append_eq_nil_iff]

end Mealy
