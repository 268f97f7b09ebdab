import Mathlib.Data.List.DropRight
import Mathlib.Order.Lattice

/-!
# Windows pruned when they grow

A list of times in a linear order. Each new time is put at the end, and from the front those are
taken that lie before its cutoff; nothing is taken at any other moment.

* `push`, `window`: one new time, and a whole list of them;
* `kept`: the times that the cutoff of no later one lies after;
* `window_eq_kept`: a window of times that come in order holds those kept, no others;
* **`length_kept_eq_iff`**: as many times are kept as there are above a bound exactly where the
  times above the bound are those kept.
-/

namespace Window

variable {α : Type} [LinearOrder α]

/-- The window with a new time, and without those before its cutoff. -/
def push (cutoff : α → α) (l : List α) (now : α) : List α :=
  (l ++ [now]).dropWhile fun front => decide (front < cutoff now)

/-- The window after some times. -/
def window (cutoff : α → α) (times : List α) : List α := times.foldl (push cutoff) []

/-- The times that the cutoff of no later one lies after. -/
def kept (cutoff : α → α) : List α → List α
  | [] => []
  | f :: later =>
    if ∀ g ∈ later, cutoff g ≤ f then f :: kept cutoff later else kept cutoff later

variable {cutoff : α → α}

theorem kept_sublist (times : List α) : (kept cutoff times).Sublist times := by
  induction times with
  | nil => exact List.Sublist.refl _
  | cons f later ih =>
    rw [kept]
    split_ifs
    · exact ih.cons_cons f
    · exact ih.cons f

/-- The first time that is not before the cutoff is followed by such times only. -/
theorem dropWhile_eq_filter {l : List α} (h : l.Pairwise (· ≤ ·)) (c : α) :
    (l.dropWhile fun x => decide (x < c)) = l.filter fun x => decide (c ≤ x) := by
  induction h with
  | nil => rfl
  | @cons a l hle _ ih =>
    rw [List.dropWhile_cons, List.filter_cons]
    by_cases hc : c ≤ a
    · have hall : l.filter (fun x => decide (c ≤ x)) = l :=
        List.filter_eq_self.mpr fun x hx => decide_eq_true (hc.trans (hle x hx))
      rw [if_neg (by simpa using hc), if_pos (decide_eq_true hc), hall]
    · rw [if_pos (decide_eq_true (not_le.mp hc)), if_neg (by simpa using hc), ih]

theorem kept_append (hcut : ∀ t, cutoff t ≤ t) (times : List α) (now : α) :
    kept cutoff (times ++ [now]) =
      (kept cutoff times ++ [now]).filter fun x => decide (cutoff now ≤ x) := by
  induction times with
  | nil => simp [kept, hcut now]
  | cons f later ih =>
    rw [List.cons_append, kept, kept, ih]
    by_cases hlater : ∀ g ∈ later, cutoff g ≤ f
    · by_cases hnow : cutoff now ≤ f
      · have hall : ∀ g ∈ later ++ [now], cutoff g ≤ f :=
          List.forall_mem_append.mpr ⟨hlater, List.forall_mem_singleton.mpr hnow⟩
        rw [if_pos hall, if_pos hlater, List.cons_append,
          List.filter_cons_of_pos (by simpa using hnow)]
      · have hnot : ¬ ∀ g ∈ later ++ [now], cutoff g ≤ f := fun h => hnow (h now (by simp))
        rw [if_neg hnot, if_pos hlater, List.cons_append,
          List.filter_cons_of_neg (by simpa using hnow)]
    · have hnot : ¬ ∀ g ∈ later ++ [now], cutoff g ≤ f :=
        fun h => hlater fun g hg => h g (List.mem_append_left _ hg)
      rw [if_neg hnot, if_neg hlater]

/-- **A window of times that come in order holds those kept.** -/
theorem window_eq_kept (hcut : ∀ t, cutoff t ≤ t) {times : List α}
    (h : times.Pairwise (· ≤ ·)) : window cutoff times = kept cutoff times := by
  -- by induction from the last time on, as the window is pruned by the time that comes in
  induction times using List.reverseRecOn with
  | nil => rfl
  | append_singleton times now ih =>
    have hbefore : ∀ x ∈ times, x ≤ now := fun x hx =>
      (List.pairwise_append.mp h).2.2 x hx now List.mem_cons_self
    have hsorted : (kept cutoff times ++ [now]).Pairwise (· ≤ ·) := by
      refine List.pairwise_append.mpr ⟨(h.sublist (List.sublist_append_left _ _)).sublist
        (kept_sublist times), List.pairwise_singleton _ _, ?_⟩
      intro x hx y hy
      obtain rfl := List.mem_singleton.mp hy
      exact hbefore x ((kept_sublist times).subset hx)
    rw [window, List.foldl_append, List.foldl_cons, List.foldl_nil]
    change push cutoff (window cutoff times) now = _
    rw [ih (h.sublist (List.sublist_append_left _ _)), push, dropWhile_eq_filter hsorted,
      kept_append hcut]

/-- Every time is above the bound exactly where the cutoff of no later one lies after it. -/
def Exact (cutoff : α → α) (bound : α) (times : List α) : Prop :=
  ∀ f later, f :: later <:+ times → (bound ≤ f ↔ ∀ g ∈ later, cutoff g ≤ f)

theorem exact_cons {bound f : α} {later : List α} : Exact cutoff bound (f :: later) ↔
    (bound ≤ f ↔ ∀ g ∈ later, cutoff g ≤ f) ∧ Exact cutoff bound later := by
  constructor
  · intro h
    refine ⟨h f later (List.suffix_refl _), fun g rest hs => ?_⟩
    exact h g rest (hs.trans (List.suffix_cons _ _))
  · rintro ⟨hf, h⟩ g rest hs
    rcases List.suffix_cons_iff.mp hs with he | hs
    · obtain ⟨rfl, rfl⟩ := List.cons.inj he
      exact hf
    · exact h g rest hs

/-- What comes after a time that is kept is kept. -/
theorem kept_eq_self {f : α} {later : List α} (h : (f :: later).Pairwise (· ≤ ·))
    (hf : ∀ g ∈ later, cutoff g ≤ f) : kept cutoff later = later := by
  induction later with
  | nil => rfl
  | cons g later ih =>
    obtain ⟨hle, hlater⟩ := List.pairwise_cons.mp h
    have hg : ∀ x ∈ later, cutoff x ≤ g := fun x hx =>
      (hf x (List.mem_cons_of_mem _ hx)).trans (hle g List.mem_cons_self)
    rw [kept, if_pos hg, ih]
    · exact h.sublist ((List.sublist_cons_self g later).cons_cons f)
    · exact fun x hx => hf x (List.mem_cons_of_mem _ hx)

/-- **As many are kept as there are above the bound exactly where those above it are kept.** -/
theorem length_kept_eq_iff {bound : α} {times : List α} (h : times.Pairwise (· ≤ ·)) :
    (kept cutoff times).length = (times.filter fun x => decide (bound ≤ x)).length ↔
      Exact cutoff bound times := by
  induction times with
  | nil => simp [kept, Exact]
  | cons f later ih =>
    obtain ⟨hle, hlater⟩ := List.pairwise_cons.mp h
    have hkept : (kept cutoff later).length ≤ later.length := (kept_sublist later).length_le
    have hfilter := List.length_filter_le (fun x => decide (bound ≤ x)) later
    rw [exact_cons, kept, ← ih hlater]
    by_cases hb : bound ≤ f
    · -- the bound lies before all of them
      have hall : later.filter (fun x => decide (bound ≤ x)) = later :=
        List.filter_eq_self.mpr fun x hx => decide_eq_true (hb.trans (hle x hx))
      rw [List.filter_cons_of_pos (by simpa), hall]
      by_cases hf : ∀ g ∈ later, cutoff g ≤ f
      · rw [if_pos hf, kept_eq_self h hf]
        exact ⟨fun _ => ⟨iff_of_true hb hf, rfl⟩, fun _ => rfl⟩
      · rw [if_neg hf, List.length_cons]
        constructor
        · intro he
          omega
        · intro he
          exact absurd (he.1.mp hb) hf
    · rw [List.filter_cons_of_neg (by simpa using hb)]
      by_cases hf : ∀ g ∈ later, cutoff g ≤ f
      · rw [if_pos hf, List.length_cons, kept_eq_self h hf]
        constructor
        · intro he
          omega
        · intro he
          exact absurd (he.1.mpr hf) hb
      · rw [if_neg hf]
        exact ⟨fun he => ⟨iff_of_false hb hf, he⟩, fun he => he.2⟩

end Window
