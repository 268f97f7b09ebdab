import Mathlib.Data.Finset.Insert
import Onair.Lib.Fallible

/-!
# Converting a list whose keys must differ

A list is converted one element after another. Each element has a key, and a key that was seen
before ends the conversion with an error, as do the checks of the element itself.

* `convertDistinct`: the conversion, with the keys seen so far;
* `convertDistinct_nodup`: **the keys of a converted list differ**.
-/

namespace Distinct

variable {α β κ ε : Type}

variable [DecidableEq κ]

/-- Convert all elements, with the keys seen before. The key comes first, then the test whether it
was seen, then the conversion. -/
def convertDistinct (key : α → Except ε κ) (duplicate : α → κ → ε) (convert : α → κ → Except ε β) :
    Finset κ → List α → Except ε (List β)
  | _, [] => .ok []
  | seen, a :: l => do
    let k ← key a
    if k ∈ seen then .error (duplicate a k)
    else
      let b ← convert a k
      let bs ← convertDistinct key duplicate convert (insert k seen) l
      return b :: bs

variable {key : α → Except ε κ} {duplicate : α → κ → ε} {convert : α → κ → Except ε β}
  {seen : Finset κ} {l : List α} {r : List β}

theorem convertDistinct_cons {a : α}
    (h : convertDistinct key duplicate convert seen (a :: l) = .ok r) :
    ∃ k b bs, key a = .ok k ∧ k ∉ seen ∧ convert a k = .ok b ∧
      convertDistinct key duplicate convert (insert k seen) l = .ok bs ∧ r = b :: bs := by
  rw [convertDistinct] at h
  obtain ⟨k, hk, h⟩ := Fallible.bind_eq_ok.mp h
  split_ifs at h with hseen
  obtain ⟨b, hb, h⟩ := Fallible.bind_eq_ok.mp h
  obtain ⟨bs, hbs, h⟩ := Fallible.bind_eq_ok.mp h
  cases h
  exact ⟨k, b, bs, hk, hseen, hb, hbs, rfl⟩

theorem convertDistinct_mem (h : convertDistinct key duplicate convert seen l = .ok r) :
    ∀ b ∈ r, ∃ a ∈ l, ∃ k, key a = .ok k ∧ convert a k = .ok b := by
  induction l generalizing seen r with
  | nil =>
    obtain rfl : [] = r := by simpa [convertDistinct, pure, Except.pure] using h
    simp
  | cons a l ih =>
    obtain ⟨k, b₀, bs, hk, -, hb₀, hbs, rfl⟩ := convertDistinct_cons h
    intro b hb
    rcases List.mem_cons.mp hb with rfl | hb
    · exact ⟨a, List.mem_cons_self, k, hk, hb₀⟩
    · obtain ⟨a', ha', hconv⟩ := ih hbs b hb
      exact ⟨a', List.mem_cons_of_mem _ ha', hconv⟩

/-- **The keys of a converted list differ**, and none was seen before. -/
theorem convertDistinct_nodup {keyOf : β → κ} (hkey : ∀ a k b, convert a k = .ok b → keyOf b = k)
    (h : convertDistinct key duplicate convert seen l = .ok r) :
    (r.map keyOf).Nodup ∧ ∀ b ∈ r, keyOf b ∉ seen := by
  induction l generalizing seen r with
  | nil =>
    obtain rfl : [] = r := by simpa [convertDistinct, pure, Except.pure] using h
    simp
  | cons a l ih =>
    obtain ⟨k, b, bs, -, hseen, hb, hbs, rfl⟩ := convertDistinct_cons h
    obtain ⟨hnodup, hnew⟩ := ih hbs
    have hk := hkey a k b hb
    refine ⟨?_, ?_⟩
    · rw [List.map_cons, List.nodup_cons, hk]
      refine ⟨?_, hnodup⟩
      intro hmem
      obtain ⟨b', hb', rfl⟩ := List.mem_map.mp hmem
      exact hnew b' hb' (Finset.mem_insert_self _ _)
    · intro b' hb'
      rcases List.mem_cons.mp hb' with rfl | hb'
      · rwa [hk]
      · intro hmem
        exact hnew b' hb' (Finset.mem_insert_of_mem hmem)

end Distinct
