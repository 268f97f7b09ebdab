import Mathlib.Data.List.Induction

/-!
# Guarded transition systems

A step is taken or refused: `none` is for an action that the state does not allow.

* `run`: the state after some actions, if each is allowed;
* `of_guard`: what a guard says of a step that is taken;
* `Along`: a condition met by every action of a run, in the state it is taken in;
* `run_inv`, `run_inv_along`: what every step keeps, under the condition if need be, a run keeps;
* `run_append`, `run_inv_history`, `run_inv_history_along`: a run in two parts, and invariants of a
  state and how it came
  about;
* `length_add_le`, `exists_rest`: steps that lower a measure come to an end.
-/

namespace Guarded

variable {σ α : Type}

/-- The state after some actions, if each is allowed. -/
def run (step : σ → α → Option σ) : σ → List α → Option σ
  | s, [] => some s
  | s, a :: as => (step s a).bind fun s' => run step s' as

/-- Every action of a run meets a condition, in the state it is taken in. -/
def Along (step : σ → α → Option σ) (P : σ → α → Prop) : σ → List α → Prop
  | _, [] => True
  | s, a :: as => P s a ∧ ∀ s' ∈ step s a, Along step P s' as

theorem of_guard {p : Prop} [Decidable p] {s t : σ}
    (h : (if p then some t else none) = some s) : p ∧ t = s := by
  obtain ⟨hp, h⟩ := Option.ite_none_right_eq_some.mp h
  exact ⟨hp, Option.some.inj h⟩

variable {step : σ → α → Option σ} {P : σ → α → Prop} {I : σ → Prop}

instance decidableAlong [∀ s a, Decidable (P s a)] : ∀ s as, Decidable (Along step P s as)
  | _, [] => .isTrue trivial
  | s, a :: as =>
    have := fun s' => decidableAlong s' as
    inferInstanceAs (Decidable (P s a ∧ ∀ s' ∈ step s a, Along step P s' as))

/-- **Invariants under a condition** on the steps are kept by runs that meet it. -/
theorem run_inv_along (hI : ∀ s a s', P s a → I s → step s a = some s' → I s') {s s' : σ}
    {as : List α} (hs : I s) (ha : Along step P s as) (h : run step s as = some s') : I s' := by
  induction as generalizing s with
  | nil =>
    obtain rfl := Option.some.inj h
    exact hs
  | cons a as ih =>
    obtain ⟨t, ht, h⟩ := Option.bind_eq_some_iff.mp h
    exact ih (hI s a t ha.1 hs ht) (ha.2 t ht) h

theorem along_of_forall {p : α → Prop} {as : List α} (h : ∀ a ∈ as, p a) {s : σ} :
    Along step (fun _ => p) s as := by
  induction as generalizing s with
  | nil => trivial
  | cons a as ih =>
    obtain ⟨ha, has⟩ := List.forall_mem_cons.mp h
    exact ⟨ha, fun _ _ => ih has⟩

/-- **Invariants** are kept by all runs. -/
theorem run_inv (hI : ∀ s a s', I s → step s a = some s' → I s') {s s' : σ} {as : List α}
    (hs : I s) (h : run step s as = some s') : I s' := by
  induction as generalizing s with
  | nil =>
    obtain rfl := Option.some.inj h
    exact hs
  | cons a as ih =>
    obtain ⟨t, ht, h⟩ := Option.bind_eq_some_iff.mp h
    exact ih (hI s a t hs ht) h

theorem run_append (s : σ) (as bs : List α) :
    run step s (as ++ bs) = (run step s as).bind fun t => run step t bs := by
  induction as generalizing s with
  | nil => rfl
  | cons a as ih =>
    rw [List.cons_append, run, run]
    cases step s a with
    | none => rfl
    | some t => exact ih t

/-- **Invariants of a state and its history**, under a condition on the actions, are kept by runs
that meet it. -/
theorem run_inv_history_along {p : α → Prop} {s s' : σ} {as : List α} {I : List α → σ → Prop}
    (hs : I [] s)
    (hI : ∀ bs t a t', run step s bs = some t → p a → I bs t → step t a = some t' →
      I (bs ++ [a]) t')
    (ha : ∀ a ∈ as, p a) (h : run step s as = some s') : I as s' := by
  induction as using List.reverseRecOn generalizing s' with
  | nil =>
    obtain rfl := Option.some.inj h
    exact hs
  | append_singleton bs a ih =>
    rw [run_append] at h
    obtain ⟨t, ht, h⟩ := Option.bind_eq_some_iff.mp h
    obtain ⟨t', ht', h⟩ := Option.bind_eq_some_iff.mp h
    obtain rfl := Option.some.inj h
    have hbs := ih (fun b hb => ha b (List.mem_append_left _ hb)) ht
    exact hI bs t a t' ht (ha a (by simp)) hbs ht'

/-- **Invariants of a state and its history** are kept by all runs. -/
theorem run_inv_history {s s' : σ} {as : List α} {I : List α → σ → Prop} (hs : I [] s)
    (hI : ∀ bs t a t', run step s bs = some t → I bs t → step t a = some t' → I (bs ++ [a]) t')
    (h : run step s as = some s') : I as s' :=
  run_inv_history_along (p := fun _ => True) hs (fun bs t a t' ht _ => hI bs t a t' ht)
    (fun _ _ => trivial) h

section Measure

variable {p : α → Prop} {μ : σ → ℕ} (hμ : ∀ s a s', p a → step s a = some s' → μ s' < μ s)

include hμ

/-- **Actions that lower a measure** cannot go on for longer than it allows. -/
theorem length_add_le {s s' : σ} {as : List α} (ha : ∀ a ∈ as, p a)
    (h : run step s as = some s') : as.length + μ s' ≤ μ s := by
  induction as generalizing s with
  | nil =>
    obtain rfl := Option.some.inj h
    exact Nat.le_of_eq (Nat.zero_add _)
  | cons a as ih =>
    obtain ⟨t, ht, h⟩ := Option.bind_eq_some_iff.mp h
    have hlt := hμ s a t (ha a List.mem_cons_self) ht
    have hrest := ih (fun b hb => ha b (List.mem_cons_of_mem a hb)) h
    rw [List.length_cons]
    omega

/-- Actions that lower a measure come to an end. -/
theorem exists_rest (s : σ) : ∃ as s', (∀ a ∈ as, p a) ∧ run step s as = some s' ∧
    ∀ a, p a → step s' a = none := by
  induction hn : μ s using Nat.strongRecOn generalizing s with
  | _ n ih =>
    by_cases hrest : ∀ a, p a → step s a = none
    · exact ⟨[], s, by simp, rfl, hrest⟩
    · obtain ⟨a, hstep⟩ := not_forall.mp hrest
      obtain ⟨ha, hstep⟩ := Classical.not_imp.mp hstep
      obtain ⟨t, ht⟩ := Option.ne_none_iff_exists'.mp hstep
      obtain ⟨as, s', has, hrun, hend⟩ := ih (μ t) (hn ▸ hμ s a t ha ht) t rfl
      refine ⟨a :: as, s', List.forall_mem_cons.mpr ⟨ha, has⟩, ?_, hend⟩
      rw [run, ht]
      exact hrun

end Measure

end Guarded
