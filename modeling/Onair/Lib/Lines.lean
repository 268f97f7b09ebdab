import Mathlib.Data.List.Basic

/-!
# Cutting a byte string into lines

`drainLines p` cuts from a buffer `p` every line that is complete, newline included, and leaves the
rest in the buffer.

* `drainLines_of_not_mem`, `drainLines_line`: the two steps of the draining loop;
* `drainLines_append`: **draining may be interrupted anywhere**; what is left in the buffer goes in
  front of the next bytes;
* `drainLines_flatten`, `drainLines_ends`, `drainLines_rest`: no byte is lost, every line ends in a
  newline, and the rest has none.
-/

/-- Byte strings. -/
abbrev Bytes := List UInt8

namespace Lines

/-- The line feed. -/
abbrev nl : UInt8 := 10

/-- The complete lines of a buffer, each with its newline, and what follows the last of them. -/
def drainLines : Bytes → List Bytes × Bytes
  | [] => ([], [])
  | b :: bs =>
    if b = nl then ([b] :: (drainLines bs).1, (drainLines bs).2)
    else match (drainLines bs).1 with
      | [] => ([], b :: (drainLines bs).2)
      | l :: ls => ((b :: l) :: ls, (drainLines bs).2)

@[simp] theorem drainLines_nil : drainLines [] = ([], []) := rfl

theorem drainLines_cons (b : UInt8) (bs : Bytes) :
    drainLines (b :: bs) =
      if b = nl then ([b] :: (drainLines bs).1, (drainLines bs).2)
      else match (drainLines bs).1 with
        | [] => ([], b :: (drainLines bs).2)
        | l :: ls => ((b :: l) :: ls, (drainLines bs).2) := rfl

theorem drainLines_of_not_mem {p : Bytes} (h : nl ∉ p) : drainLines p = ([], p) := by
  induction p with
  | nil => rfl
  | cons b bs ih =>
    simp only [List.mem_cons, not_or] at h
    rw [drainLines_cons, if_neg (Ne.symm h.1), ih h.2]

theorem drainLines_line {l : Bytes} (h : nl ∉ l) (p : Bytes) :
    drainLines (l ++ nl :: p) = ((l ++ [nl]) :: (drainLines p).1, (drainLines p).2) := by
  induction l with
  | nil => simp [drainLines_cons]
  | cons b bs ih =>
    simp only [List.mem_cons, not_or] at h
    rw [List.cons_append, drainLines_cons, if_neg (Ne.symm h.1), ih h.2]
    rfl

theorem drainLines_flatten (p : Bytes) : (drainLines p).1.flatten ++ (drainLines p).2 = p := by
  induction p with
  | nil => rfl
  | cons b bs ih =>
    rw [drainLines_cons]
    split_ifs with hb
    · simpa using ih
    · cases h : (drainLines bs).1 with
      | nil => rw [h] at ih; simpa using ih
      | cons l ls => rw [h] at ih; simpa using ih

theorem drainLines_rest (p : Bytes) : nl ∉ (drainLines p).2 := by
  induction p with
  | nil => simp
  | cons b bs ih =>
    rw [drainLines_cons]
    split_ifs with hb
    · exact ih
    · cases h : (drainLines bs).1 with
      | nil => simpa [Ne.symm hb] using ih
      | cons l ls => simpa using ih

/-- A complete line: some bytes without a newline, then a newline. -/
def IsLine (l : Bytes) : Prop := ∃ a, nl ∉ a ∧ l = a ++ [nl]

theorem drainLines_ends (p : Bytes) : ∀ l ∈ (drainLines p).1, IsLine l := by
  induction p with
  | nil => simp
  | cons b bs ih =>
    rw [drainLines_cons]
    split_ifs with hb
    · intro l hl
      rcases List.mem_cons.mp hl with rfl | hl
      · exact ⟨[], by simp, by simp [hb]⟩
      · exact ih l hl
    · cases h : (drainLines bs).1 with
      | nil => simp
      | cons l ls =>
        rw [h] at ih
        intro l' hl'
        rcases List.mem_cons.mp hl' with rfl | hl'
        · obtain ⟨a, ha, rfl⟩ := ih l List.mem_cons_self
          exact ⟨b :: a, by simp [ha, Ne.symm hb], rfl⟩
        · exact ih l' (List.mem_cons_of_mem _ hl')

theorem IsLine.drain {l : Bytes} (h : IsLine l) (p : Bytes) :
    drainLines (l ++ p) = (l :: (drainLines p).1, (drainLines p).2) := by
  obtain ⟨a, ha, rfl⟩ := h
  simpa using drainLines_line ha p

theorem drainLines_flatten_append {ls : List Bytes} (h : ∀ l ∈ ls, IsLine l) (p : Bytes) :
    drainLines (ls.flatten ++ p) = (ls ++ (drainLines p).1, (drainLines p).2) := by
  induction ls with
  | nil => simp
  | cons l ls ih =>
    rw [List.flatten_cons, List.append_assoc, (h l List.mem_cons_self).drain,
      ih fun l' hl' => h l' (List.mem_cons_of_mem _ hl')]
    rfl

/-- **Draining may be interrupted anywhere.** -/
theorem drainLines_append (p q : Bytes) :
    drainLines (p ++ q) = ((drainLines p).1 ++ (drainLines ((drainLines p).2 ++ q)).1,
      (drainLines ((drainLines p).2 ++ q)).2) := by
  conv_lhs => rw [← drainLines_flatten p, List.append_assoc,
    drainLines_flatten_append (drainLines_ends p)]

end Lines
