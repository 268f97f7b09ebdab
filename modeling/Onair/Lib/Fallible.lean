import Mathlib.Data.List.Forall2

/-!
# Computations that fail or give a result

* `bind_eq_ok`, `map_eq_ok`, `pure_eq_ok`: when a sequence of computations gives a result;
* `exists_ok_of_isOk`, `toOption_eq_some`: that it does, as a Boolean and as an option;
* `mapM_eq_ok`, `mapM_ok_mem`, `forM_ok`: when a list is converted, or checked, one element after
  another;
* `foldlM_inv`, `foldlM_ok`: what a loop preserves, and that it ends;
* **`foldlM_flatMap`**: what a loop collects.
-/

namespace Fallible

variable {α β σ ε : Type}

theorem bind_eq_ok {x : Except ε α} {g : α → Except ε β} {b : β} :
    x >>= g = .ok b ↔ ∃ a, x = .ok a ∧ g a = .ok b := by
  cases x <;> simp [bind, Except.bind]

theorem map_eq_ok {x : Except ε α} {g : α → β} {b : β} :
    g <$> x = .ok b ↔ ∃ a, x = .ok a ∧ g a = b := by
  cases x <;> simp [Functor.map, Except.map]

theorem pure_eq_ok {a b : α} : (pure a : Except ε α) = .ok b ↔ a = b := by
  simp [pure, Except.pure]

theorem exists_ok_of_isOk {x : Except ε α} (h : x.isOk = true) : ∃ a, x = .ok a := by
  cases x with
  | ok a => exact ⟨a, rfl⟩
  | error e => exact nomatch h

theorem toOption_eq_some {x : Except ε α} {a : α} : x.toOption = some a ↔ x = .ok a := by
  cases x <;> simp [Except.toOption]

theorem mapM_eq_ok {convert : α → Except ε β} {l : List α} {r : List β} :
    l.mapM convert = .ok r ↔ List.Forall₂ (fun a b => convert a = .ok b) l r := by
  induction l generalizing r with
  | nil => rw [List.mapM_nil, pure_eq_ok, List.forall₂_nil_left_iff, eq_comm]
  | cons a l ih =>
    rw [List.mapM_cons, List.forall₂_cons_left_iff]
    simp only [bind_eq_ok, pure_eq_ok, ih]
    constructor
    · rintro ⟨b, hb, bs, hbs, rfl⟩
      exact ⟨b, bs, hb, hbs, rfl⟩
    · rintro ⟨b, bs, hb, hbs, rfl⟩
      exact ⟨b, hb, bs, hbs, rfl⟩

theorem mapM_ok_mem {convert : α → Except ε β} {l : List α} {r : List β}
    (h : l.mapM convert = .ok r) : ∀ b ∈ r, ∃ a ∈ l, convert a = .ok b := by
  rw [mapM_eq_ok] at h
  induction h with
  | nil => simp
  | @cons a b l r hab _ ih =>
    refine List.forall_mem_cons.mpr ⟨⟨a, List.mem_cons_self, hab⟩, fun b hb => ?_⟩
    obtain ⟨a', ha', hconvert⟩ := ih b hb
    exact ⟨a', List.mem_cons_of_mem _ ha', hconvert⟩

theorem forM_ok {check : α → Except ε Unit} {l : List α} (h : l.forM check = .ok ()) :
    ∀ a ∈ l, check a = .ok () := by
  induction l with
  | nil => simp
  | cons a l ih =>
    obtain ⟨⟨⟩, ha, hl⟩ := bind_eq_ok.mp h
    exact List.forall_mem_cons.mpr ⟨ha, ih hl⟩

/-! ### Loops -/

variable {step : σ → α → Except ε σ} {l : List α} {s s' : σ}

/-- What each round preserves is preserved by the loop. -/
theorem foldlM_inv {I : σ → Prop} (h : ∀ s, ∀ a ∈ l, ∀ s', I s → step s a = .ok s' → I s')
    (hs : I s) (hrun : l.foldlM step s = .ok s') : I s' := by
  induction l generalizing s with
  | nil =>
    obtain rfl := pure_eq_ok.mp hrun
    exact hs
  | cons a l ih =>
    obtain ⟨s₁, hstep, hrest⟩ := bind_eq_ok.mp hrun
    exact ih (fun s a ha => h s a (List.mem_cons_of_mem _ ha))
      (h s a List.mem_cons_self s₁ hs hstep) hrest

/-- **What a loop collects** is what its rounds add, one after the other. -/
theorem foldlM_flatMap (observe : σ → List β) {gives : α → List β}
    (h : ∀ s, ∀ a ∈ l, ∀ s', step s a = .ok s' → observe s' = observe s ++ gives a)
    (hrun : l.foldlM step s = .ok s') : observe s' = observe s ++ l.flatMap gives := by
  induction l generalizing s with
  | nil =>
    obtain rfl := pure_eq_ok.mp hrun
    rw [List.flatMap_nil, List.append_nil]
  | cons a l ih =>
    obtain ⟨s₁, hstep, hrest⟩ := bind_eq_ok.mp hrun
    rw [ih (fun s a ha => h s a (List.mem_cons_of_mem _ ha)) hrest,
      h s a List.mem_cons_self s₁ hstep, List.flatMap_cons, List.append_assoc]

end Fallible
