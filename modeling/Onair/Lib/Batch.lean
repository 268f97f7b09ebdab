import Onair.Lib.Mealy
import Mathlib.Data.List.Induction

/-!
# Batches that reset a transducer

The letters of a transducer come in batches, and after every batch with an output part of the state
is reset. Which outputs depend on where the batches end?

* `batch`: one batch;
* `Resettable`: what is reset is read by some letters only;
* `batches_out`: letters that read nothing have the same outputs in all batches;
* `exists_last_reset`: the state after some batches is the one after the last reset;
* `batches_inside_iff`, `batches_tail_iff`: one letter reads what is reset; the outputs do not
  depend on the batches if and only if its output does not depend on where the last reset was;
* **`stable_iff`**: the two cases together.
-/

namespace Mealy

variable {σ α β : Type}

/-- Run over a batch of letters, and reset the state if there was an output. -/
def batch (step : σ → α → σ × List β) (reset : σ → σ) (s : σ) (as : List α) : σ × List β :=
  let r := run step s as
  (if r.2.isEmpty then r.1 else reset r.1, r.2)

/-- What is reset is read only by the letters `reads` names; everything else a step does depends on
the rest of the state, in the states where `I` holds. -/
structure Resettable (step : σ → α → σ × List β) (reset : σ → σ) (I : σ → Prop)
    (reads : σ → α → Prop) : Prop where
  reset_reset : ∀ s, reset (reset s) = reset s
  inv_step : ∀ s a, I s → I (step s a).1
  inv_reset : ∀ s, I s → I (reset s)
  step_core : ∀ s s' a, reset s = reset s' → reset (step s a).1 = reset (step s' a).1
  reads_core : ∀ s s' a, reset s = reset s' → (reads s a ↔ reads s' a)
  out_core : ∀ s s' a, I s → I s' → reset s = reset s' → ¬reads s a → (step s a).2 = (step s' a).2
  out_reads : ∀ s a, reads s a → (step s a).2 ≠ []

section Batch

variable {step : σ → α → σ × List β} {reset : σ → σ} {I : σ → Prop} {reads : σ → α → Prop}

theorem batch_of_silent {s : σ} {as : List α} (h : (run step s as).2 = []) :
    batch step reset s as = ((run step s as).1, []) := by
  simp [batch, h]

theorem batch_of_output {s : σ} {as : List α} (h : (run step s as).2 ≠ []) :
    (batch step reset s as).1 = reset (run step s as).1 := by
  simp [batch, h]

@[simp] theorem batch_out (s : σ) (as : List α) :
    (batch step reset s as).2 = (run step s as).2 := rfl

namespace Resettable

variable (hr : Resettable step reset I reads)

include hr

theorem run_core {s s' : σ} (h : reset s = reset s') (as : List α) :
    reset (run step s as).1 = reset (run step s' as).1 := by
  induction as generalizing s s' with
  | nil => exact h
  | cons a as ih => exact ih (hr.step_core s s' a h)

theorem inv_run {s : σ} (hs : I s) (as : List α) : I (run step s as).1 :=
  run_inv I hr.inv_step hs as

theorem silent_core {s s' : σ} (hs : I s) (hs' : I s') (h : reset s = reset s') (a : α) :
    (step s a).2 = [] ↔ (step s' a).2 = [] := by
  by_cases ha : reads s a
  · exact iff_of_false (hr.out_reads s a ha) (hr.out_reads s' a ((hr.reads_core s s' a h).mp ha))
  · rw [hr.out_core s s' a hs hs' h ha]

theorem run_silent_core {s s' : σ} (hs : I s) (hs' : I s') (h : reset s = reset s')
    (as : List α) : (run step s as).2 = [] ↔ (run step s' as).2 = [] := by
  induction as generalizing s s' with
  | nil => rfl
  | cons a as ih =>
    rw [run_cons, run_cons, List.append_eq_nil_iff, List.append_eq_nil_iff,
      hr.silent_core hs hs' h, ih (hr.inv_step s a hs) (hr.inv_step s' a hs')
        (hr.step_core s s' a h)]

theorem along_core {s s' : σ} (h : reset s = reset s') (as : List α) :
    Along step (fun s a => ¬reads s a) s as ↔ Along step (fun s a => ¬reads s a) s' as := by
  induction as generalizing s s' with
  | nil => rfl
  | cons a as ih =>
    rw [Along, Along, hr.reads_core s s' a h, ih (hr.step_core s s' a h)]

/-- Letters that read nothing have the same outputs from all states that differ in what is reset
only. -/
theorem run_out_core {s s' : σ} (hs : I s) (hs' : I s') (h : reset s = reset s') {as : List α}
    (has : Along step (fun s a => ¬reads s a) s as) : (run step s as).2 = (run step s' as).2 := by
  induction as generalizing s s' with
  | nil => rfl
  | cons a as ih =>
    rw [run_cons, run_cons, hr.out_core s s' a hs hs' h has.1,
      ih (hr.inv_step s a hs) (hr.inv_step s' a hs') (hr.step_core s s' a h) has.2]

theorem inv_batch {s : σ} (hs : I s) (as : List α) : I (batch step reset s as).1 := by
  unfold batch
  dsimp only
  split_ifs
  · exact hr.inv_run hs as
  · exact hr.inv_reset _ (hr.inv_run hs as)

theorem batch_core (s : σ) (as : List α) :
    reset (batch step reset s as).1 = reset (run step s as).1 := by
  unfold batch
  dsimp only
  split_ifs
  · rfl
  · exact hr.reset_reset _

theorem inv_batches {s : σ} (hs : I s) (gs : List (List α)) :
    I (run (batch step reset) s gs).1 :=
  run_inv I (fun _ g hs => hr.inv_batch hs g) hs gs

theorem batches_core (s : σ) (gs : List (List α)) :
    reset (run (batch step reset) s gs).1 = reset (run step s gs.flatten).1 := by
  induction gs generalizing s with
  | nil => rfl
  | cons g gs ih =>
    rw [run_cons, List.flatten_cons, run_append, ih]
    exact hr.run_core (hr.batch_core s g) _

/-- **Letters that read nothing have the same outputs in all batches.** -/
theorem batches_out {s : σ} (hs : I s) (gs : List (List α))
    (h : Along step (fun s a => ¬reads s a) s gs.flatten) :
    (run (batch step reset) s gs).2 = (run step s gs.flatten).2 := by
  induction gs generalizing s with
  | nil => rfl
  | cons g gs ih =>
    rw [List.flatten_cons, along_append] at h
    have hcore := hr.batch_core s g
    have hrest := (hr.along_core hcore gs.flatten).mpr h.2
    rw [run_cons, List.flatten_cons, run_append, batch_out, ih (hr.inv_batch hs g) hrest,
      hr.run_out_core (hr.inv_batch hs g) (hr.inv_run hs g) hcore hrest]

/-- **The state after some batches** is the one after the last reset and the silent letters since
then. -/
theorem exists_last_reset {s : σ} (hs : I s) (gs : List (List α)) :
    ∃ p q, gs.flatten = p ++ q ∧ (run step (batch step reset s p).1 q).2 = [] ∧
      (run (batch step reset) s gs).1 = (run step (batch step reset s p).1 q).1 := by
  induction gs using List.reverseRecOn with
  | nil => exact ⟨[], [], rfl, rfl, rfl⟩
  | append_singleton gs g ih =>
    obtain ⟨p, q, hpq, hsilent, hstate⟩ := ih
    rw [run_append, run_singleton, hstate]
    by_cases hg : (run step (run step (batch step reset s p).1 q).1 g).2 = []
    · refine ⟨p, q ++ g, by simp [hpq], ?_, ?_⟩
      · rw [run_append, hsilent, hg]
        rfl
      · rw [batch_of_silent hg, run_append]
    · -- The batch had an output, so the last reset is after it.
      have hcore : reset (run step (batch step reset s p).1 (q ++ g)).1 =
          reset (run step s (p ++ (q ++ g))).1 := by
        rw [run_append (s := s)]
        exact hr.run_core (hr.batch_core s p) _
      have hout : (run step s (p ++ (q ++ g))).2 ≠ [] := by
        intro h
        rw [run_append, List.append_eq_nil_iff] at h
        have h2 := (hr.run_silent_core (hr.inv_run hs p) (hr.inv_batch hs p)
          (hr.batch_core s p).symm (q ++ g)).mp h.2
        rw [run_append, List.append_eq_nil_iff] at h2
        exact hg h2.2
      refine ⟨p ++ (q ++ g), [], by simp [hpq], rfl, ?_⟩
      rw [batch_of_output hg, run_nil, batch_of_output hout, ← hcore, run_append]

end Resettable

theorem exists_batch_of_flatten {gs : List (List α)} {pre post : List α} {a : α}
    (h : gs.flatten = pre ++ a :: post) :
    ∃ gs₁ g₁ g₂ gs₂, gs = gs₁ ++ (g₁ ++ a :: g₂) :: gs₂ ∧ pre = gs₁.flatten ++ g₁ ∧
      post = g₂ ++ gs₂.flatten := by
  induction gs generalizing pre with
  | nil => exact absurd h (by simp)
  | cons g gs ih =>
    rw [List.flatten_cons, List.append_eq_append_iff] at h
    rcases h with ⟨l, hpre, hrest⟩ | ⟨l, hg, hrest⟩
    · obtain ⟨gs₁, g₁, g₂, gs₂, rfl, rfl, hpost⟩ := ih hrest
      exact ⟨g :: gs₁, g₁, g₂, gs₂, rfl, by rw [hpre, List.flatten_cons, List.append_assoc],
        hpost⟩
    · cases l with
      | nil =>
        have hnil : gs.flatten = [] ++ a :: post := by simpa using hrest.symm
        obtain ⟨gs₁, g₁, g₂, gs₂, rfl, hpre, hpost⟩ := ih hnil
        refine ⟨g :: gs₁, g₁, g₂, gs₂, rfl, ?_, hpost⟩
        rw [List.append_nil] at hg
        rw [List.flatten_cons, List.append_assoc, ← hpre, List.append_nil, hg]
      | cons a' l =>
        rw [List.cons_append, List.cons.injEq] at hrest
        obtain ⟨rfl, rfl⟩ := hrest
        exact ⟨[], pre, l, gs, by simp [hg], rfl, rfl⟩

theorem reads_unique
    (honce : ∀ s a, reads s a → ∀ as, Along step (fun s a => ¬reads s a) (step s a).1 as)
    {s : σ} {pre post pre' post' : List α} {a a' : α} (h : pre ++ a :: post = pre' ++ a' :: post')
    (hread : reads (run step s pre).1 a) (hread' : reads (run step s pre').1 a') :
    pre = pre' ∧ a = a' ∧ post = post' := by
  -- A reading letter behind another one would break `honce`.
  have hlate : ∀ {pre l : List α} {a a' : α}, reads (run step s pre).1 a →
      ¬reads (run step s (pre ++ a :: l)).1 a' := by
    intro pre l a a' hr hr'
    rw [run_append, run_cons] at hr'
    exact not_of_along (honce _ a hr (l ++ [a'])) hr'
  rw [List.append_eq_append_iff] at h
  rcases h with ⟨l, rfl, hl⟩ | ⟨l, rfl, hl⟩
  · cases l with
    | nil => simpa using hl
    | cons b l =>
      obtain ⟨rfl, rfl⟩ := List.cons.inj hl
      exact absurd hread' (hlate hread)
  · cases l with
    | nil =>
      obtain ⟨rfl, rfl⟩ := List.cons.inj hl
      simp
    | cons b l =>
      obtain ⟨rfl, rfl⟩ := List.cons.inj hl
      exact absurd hread (hlate hread')

namespace Resettable

variable (hr : Resettable step reset I reads)

include hr

/-- The outputs of batches in which one letter reads what is reset. -/
theorem batches_inside {s : σ} (hs : I s) {pre post : List α} {a : α}
    (hpre : Along step (fun s a => ¬reads s a) s pre)
    (hpost : Along step (fun s a => ¬reads s a) (step (run step s pre).1 a).1 post)
    {gs : List (List α)} (hgs : gs.flatten = pre ++ a :: post) :
    ∃ p q, pre = p ++ q ∧ (run (batch step reset) s gs).2 = (run step s pre).2 ++
      ((step (run step (batch step reset s p).1 q).1 a).2 ++
        (run step (step (run step s pre).1 a).1 post).2) := by
  obtain ⟨gs₁, g₁, g₂, gs₂, rfl, rfl, rfl⟩ := exists_batch_of_flatten hgs
  obtain ⟨p, q, hpq, -, hstate⟩ := hr.exists_last_reset hs gs₁
  have hI := hr.inv_batches hs gs₁
  rw [along_append] at hpre
  -- The states before the letter, with and without resets, differ in what is reset only.
  have hcore₁ := hr.batches_core s gs₁
  have hcore₂ := hr.run_core hcore₁ g₁
  have hcore₃ := hr.step_core _ _ a hcore₂
  refine ⟨p, q ++ g₁, by rw [hpq, List.append_assoc], ?_⟩
  have hout₁ := hr.batches_out hs gs₁ hpre.1
  have hout₂ := hr.run_out_core hI (hr.inv_run hs _) hcore₁
    ((hr.along_core hcore₁ g₁).mpr hpre.2)
  rw [run_append s gs₁.flatten] at hpost ⊢
  rw [along_append] at hpost
  have hI₃ : I (step (run step (run (batch step reset) s gs₁).1 g₁).1 a).1 :=
    hr.inv_step _ a (hr.inv_run hI g₁)
  have hI₃' : I (step (run step (run step s gs₁.flatten).1 g₁).1 a).1 :=
    hr.inv_step _ a (hr.inv_run (hr.inv_run hs _) g₁)
  have hout₃ := hr.run_out_core hI₃ hI₃' hcore₃ ((hr.along_core hcore₃ g₂).mpr hpost.1)
  -- The batches after the one with the letter.
  have hrun : run step (run (batch step reset) s gs₁).1 (g₁ ++ a :: g₂) =
      ((run step (step (run step (run (batch step reset) s gs₁).1 g₁).1 a).1 g₂).1,
        (run step (run (batch step reset) s gs₁).1 g₁).2 ++
          ((step (run step (run (batch step reset) s gs₁).1 g₁).1 a).2 ++
            (run step (step (run step (run (batch step reset) s gs₁).1 g₁).1 a).1 g₂).2)) := by
    rw [run_append, run_cons]
  have hcore₄ : reset (batch step reset (run (batch step reset) s gs₁).1 (g₁ ++ a :: g₂)).1 =
      reset (run step (step (run step (run step s gs₁.flatten).1 g₁).1 a).1 g₂).1 := by
    rw [hr.batch_core, hrun]
    exact hr.run_core hcore₃ g₂
  have hI₄ := hr.inv_batch hI (g₁ ++ a :: g₂)
  have halong := (hr.along_core hcore₄ gs₂.flatten).mpr hpost.2
  have hout₄ : (run (batch step reset)
      (batch step reset (run (batch step reset) s gs₁).1 (g₁ ++ a :: g₂)).1 gs₂).2 = _ :=
    (hr.batches_out hI₄ gs₂ halong).trans (hr.run_out_core hI₄ (hr.inv_run hI₃' g₂) hcore₄ halong)
  rw [run_append, run_cons, batch_out, hout₄, hrun, hout₁, hout₂, hout₃, hstate, run_append]
  simp only [run_append, List.append_assoc]

/-- **One letter reads what is reset**: the outputs do not depend on the batches if and only if the
output of this letter does not depend on where the last reset was. -/
theorem batches_inside_iff {s : σ} (hs : I s) {pre post : List α} {a : α}
    (hpre : Along step (fun s a => ¬reads s a) s pre)
    (hpost : Along step (fun s a => ¬reads s a) (step (run step s pre).1 a).1 post) :
    (∀ gs : List (List α), gs.flatten = pre ++ a :: post →
        (run (batch step reset) s gs).2 = (run step s (pre ++ a :: post)).2) ↔
      ∀ p q, pre = p ++ q → (step (run step (batch step reset s p).1 q).1 a).2 =
        (step (run step s pre).1 a).2 := by
  have hall : (run step s (pre ++ a :: post)).2 = (run step s pre).2 ++
      ((step (run step s pre).1 a).2 ++ (run step (step (run step s pre).1 a).1 post).2) := by
    rw [run_append, run_cons]
  constructor
  · intro h p q hpq
    have h2 := h [p, q ++ a :: post] (by simp [hpq])
    -- The two batches meet at the cut; all but the letter's output is the same.
    have hq : Along step (fun s a => ¬reads s a) (batch step reset s p).1 q := by
      rw [hpq, along_append] at hpre
      exact (hr.along_core (hr.batch_core s p) q).mpr hpre.2
    have hcore : reset (run step (batch step reset s p).1 q).1 = reset (run step s pre).1 := by
      rw [hpq, run_append (s := s)]
      exact hr.run_core (hr.batch_core s p) q
    have hcore' := hr.step_core _ _ a hcore
    have hIq := hr.inv_run (hr.inv_batch hs p) q
    have hout := hr.run_out_core (hr.inv_step _ a hIq) (hr.inv_step _ a (hr.inv_run hs pre)) hcore'
      ((hr.along_core hcore' post).mpr hpost)
    have hqout := hr.run_out_core (hr.inv_batch hs p) (hr.inv_run hs p) (hr.batch_core s p) hq
    have hpreout : (run step s pre).2 =
        (run step s p).2 ++ (run step (batch step reset s p).1 q).2 := by
      rw [hpq, run_append, hqout]
    rw [hall, run_cons, run_singleton, batch_out, batch_out, run_append, run_cons, hpreout,
      hout] at h2
    simpa [List.append_assoc] using h2
  · intro h gs hgs
    obtain ⟨p, q, hpq, hout⟩ := hr.batches_inside hs hpre hpost hgs
    rw [hout, h p q hpq, hall]

/-- **The reading letter comes after all batches**, in a run `t` of its own: the outputs do not
depend on the batches if and only if the output of this letter does not depend on where, among
the silent letters at the end, the last reset was. -/
theorem batches_tail_iff {s : σ} (hs : I s) {as t₁ t₂ : List α} {a : α}
    (has : Along step (fun s a => ¬reads s a) s (as ++ t₁))
    (ht₂ : Along step (fun s a => ¬reads s a) (step (run step s (as ++ t₁)).1 a).1 t₂) :
    (∀ gs : List (List α), gs.flatten = as →
        (run (batch step reset) s gs).2 ++
            (run step (run (batch step reset) s gs).1 (t₁ ++ a :: t₂)).2 =
          (run step s as).2 ++ (run step (batch step reset s as).1 (t₁ ++ a :: t₂)).2) ↔
      ∀ p q, as = p ++ q → (run step (batch step reset s p).1 q).2 = [] →
        (step (run step (batch step reset s p).1 (q ++ t₁)).1 a).2 =
          (step (run step (batch step reset s as).1 t₁).1 a).2 := by
  rw [along_append] at has
  -- A state with the core of the one after `as` has the same outputs around the letter.
  have hsplit : ∀ u, I u → reset u = reset (run step s as).1 →
      (run step u (t₁ ++ a :: t₂)).2 = (run step (run step s as).1 t₁).2 ++
        ((step (run step u t₁).1 a).2 ++
          (run step (step (run step s (as ++ t₁)).1 a).1 t₂).2) := by
    intro u hu hcore
    have hcore₁ := hr.run_core hcore t₁
    have hcore₂ := hr.step_core _ _ a hcore₁
    have hIs := hr.inv_run hs as
    rw [run_append (s := s)] at ht₂
    rw [run_append, run_cons, run_append (s := s),
      hr.run_out_core hu hIs hcore ((hr.along_core hcore t₁).mpr has.2),
      hr.run_out_core (hr.inv_step _ a (hr.inv_run hu t₁))
        (hr.inv_step _ a (hr.inv_run hIs t₁)) hcore₂ ((hr.along_core hcore₂ t₂).mpr ht₂)]
  have hbase := hsplit _ (hr.inv_batch hs as) (hr.batch_core s as)
  constructor
  · intro h p q hpq hsilent
    have h2 := h [p, q] (by simp [hpq])
    have hstate :
        (run (batch step reset) s [p, q]).1 = (run step (batch step reset s p).1 q).1 := by
      rw [run_cons, run_singleton, batch_of_silent hsilent]
    have hout : (run (batch step reset) s [p, q]).2 = (run step s as).2 := by
      rw [hr.batches_out hs [p, q] (by simpa [hpq] using has.1)]
      simp [hpq]
    have hcore : reset (run step (batch step reset s p).1 q).1 = reset (run step s as).1 := by
      rw [hpq, run_append (s := s)]
      exact hr.run_core (hr.batch_core s p) q
    rw [hstate, hout, hsplit _ (hr.inv_run (hr.inv_batch hs p) q) hcore, hbase] at h2
    rw [run_append]
    simpa using h2
  · intro h gs hgs
    obtain ⟨p, q, hpq, hsilent, hstate⟩ := hr.exists_last_reset hs gs
    have hout := hr.batches_out hs gs (by rw [hgs]; exact has.1)
    have hcore : reset (run (batch step reset) s gs).1 = reset (run step s as).1 := by
      rw [hr.batches_core, hgs]
    have hletter := h p q (by rw [← hgs, hpq]) hsilent
    rw [run_append, ← hstate] at hletter
    rw [hout, hgs, hsplit _ (hr.inv_batches hs gs) hcore, hbase, hletter]

/-- **When the outputs do not depend on the batches**: at most one letter reads what is reset; its
output must not depend on where the last reset before it was, if it is in a batch, and on where
the last reset among the silent letters at the end was, if it comes after the batches. -/
theorem stable_iff
    (honce : ∀ s a, reads s a → ∀ as, Along step (fun s a => ¬reads s a) (step s a).1 as)
    {s : σ} (hs : I s) (as t : List α) :
    (∀ gs : List (List α), gs.flatten = as →
        (run (batch step reset) s gs).2 ++ (run step (run (batch step reset) s gs).1 t).2 =
          (run step s as).2 ++ (run step (batch step reset s as).1 t).2) ↔
      (∀ pre a post, as = pre ++ a :: post → reads (run step s pre).1 a → ∀ p q, pre = p ++ q →
        (step (run step (batch step reset s p).1 q).1 a).2 = (step (run step s pre).1 a).2) ∧
      (∀ t₁ a t₂, t = t₁ ++ a :: t₂ → reads (run step s (as ++ t₁)).1 a → ∀ p q, as = p ++ q →
        (run step (batch step reset s p).1 q).2 = [] →
        (step (run step (batch step reset s p).1 (q ++ t₁)).1 a).2 =
          (step (run step (batch step reset s as).1 t₁).1 a).2) := by
  by_cases has : Along step (fun s a => ¬reads s a) s as
  · have hvac : ∀ pre a post, as = pre ++ a :: post → ¬reads (run step s pre).1 a := by
      rintro pre a post rfl
      exact not_of_along has
    by_cases ht : Along step (fun s a => ¬reads s a) (run step s as).1 t
    · -- No letter reads anything.
      refine iff_of_true ?_ ⟨fun pre a post h hread => absurd hread (hvac pre a post h), ?_⟩
      · intro gs hgs
        have hcore := hr.batches_core s gs
        rw [hgs] at hcore
        have hout := hr.run_out_core (hr.inv_batches hs gs) (hr.inv_run hs as) hcore
          ((hr.along_core hcore t).mpr ht)
        have hout' := hr.run_out_core (hr.inv_batch hs as) (hr.inv_run hs as) (hr.batch_core s as)
          ((hr.along_core (hr.batch_core s as) t).mpr ht)
        rw [hr.batches_out hs gs (by rw [hgs]; exact has), hgs, hout, hout']
      · rintro t₁ a t₂ rfl hread
        rw [run_append] at hread
        exact absurd hread (not_of_along ht)
    · obtain ⟨t₁, a, t₂, rfl, ht₁, hread⟩ := exists_first_of_not_along ht
      have hread' : reads (run step s (as ++ t₁)).1 a := by rwa [run_append]
      rw [hr.batches_tail_iff hs ((along_append _ _ _ _).mpr ⟨has, ht₁⟩) (honce _ a hread' t₂)]
      constructor
      · intro h
        refine ⟨fun pre a post h hread => absurd hread (hvac pre a post h), ?_⟩
        intro t₁' a' t₂' heq hread₂
        have heq' : (as ++ t₁) ++ a :: t₂ = (as ++ t₁') ++ a' :: t₂' := by simp [heq]
        obtain ⟨h1, rfl, -⟩ := reads_unique honce heq' hread' hread₂
        obtain rfl := List.append_cancel_left h1
        exact h
      · intro h
        exact h.2 t₁ a t₂ rfl hread'
  · obtain ⟨pre, a, post, rfl, hpre, hread⟩ := exists_first_of_not_along has
    have hpost := honce _ a hread post
    have htail : ∀ u, I u → reset u = reset (run step s (pre ++ a :: post)).1 →
        (run step u t).2 = (run step (run step s (pre ++ a :: post)).1 t).2 := by
      intro u hu hcore
      refine hr.run_out_core hu (hr.inv_run hs _) hcore ((hr.along_core hcore t).mpr ?_)
      have := honce _ a hread (post ++ t)
      rw [along_append] at this
      rw [run_append, run_cons]
      exact this.2
    have hiff : (∀ gs : List (List α), gs.flatten = pre ++ a :: post →
        (run (batch step reset) s gs).2 ++ (run step (run (batch step reset) s gs).1 t).2 =
          (run step s (pre ++ a :: post)).2 ++
            (run step (batch step reset s (pre ++ a :: post)).1 t).2) ↔
        ∀ gs : List (List α), gs.flatten = pre ++ a :: post →
          (run (batch step reset) s gs).2 = (run step s (pre ++ a :: post)).2 := by
      refine forall₂_congr fun gs hgs => ?_
      rw [htail _ (hr.inv_batches hs gs) (by rw [hr.batches_core, hgs]),
        htail _ (hr.inv_batch hs _) (hr.batch_core _ _)]
      exact List.append_left_inj _
    rw [hiff, hr.batches_inside_iff hs hpre hpost]
    constructor
    · intro h
      refine ⟨?_, ?_⟩
      · intro pre' a' post' heq hread₂
        obtain ⟨rfl, rfl, -⟩ := reads_unique honce heq hread hread₂
        exact h
      · intro t₁ a' t₂ heq hread₂
        have hlate := honce _ a hread (post ++ t)
        rw [heq, ← List.append_assoc] at hlate
        rw [List.append_assoc, List.cons_append, run_append, run_cons] at hread₂
        exact absurd hread₂ (not_of_along hlate)
    · intro h
      exact h.1 pre a post rfl hread

end Resettable

end Batch

end Mealy
