import Mathlib.Data.List.TakeWhile
import Onair.Lib.Json.RoundTrip

/-!
# The ends of JSON texts

A text is read from its beginning, and what is left over is its end. So an array ends with `]` and
an object with `\x7d`, and only white space comes after that.

* `Codec.LawfulEnd`: what is relied on about the ends of texts;
* `read_suffix`: **what is left over is an end of the text**;
* `readTail_closed`, `readEntries_closed`, `readValue_closed`: arrays and objects are closed;
* `read_extend`: **a text is read the same before a line**;
* `reference_lawfulEnd`: the reference codec is lawful.
-/

namespace Json

open Text

/-- What is relied on, besides, about the ends of texts: the last byte of the text of an array or an
object, but for white space, is a closing bracket; and two texts on lines one after the other are
none, whatever comes next. -/
structure Codec.LawfulEnd (c : Codec) : Prop where
  closed : ∀ b v, c.fromSlice b = some v → v.asArray.isSome ∨ v.asObject.isSome →
    b.reverse.find? (fun x => x ≠ 32 ∧ x ≠ 9 ∧ x ≠ 10 ∧ x ≠ 13) = some 93 ∨
      b.reverse.find? (fun x => x ≠ 32 ∧ x ≠ 9 ∧ x ≠ 10 ∧ x ≠ 13) = some 125
  alone : ∀ a b rest, (c.fromSlice a).isSome → (c.fromSlice b).isSome →
    c.fromSlice (a ++ 10 :: (b ++ rest)) = none

/-! ### What is left over -/

theorem suffix_of_token {cs cs' : List Char} {c : Char} (h : cs.dropWhile isSpace = c :: cs') :
    cs' <:+ cs :=
  (List.suffix_cons c cs').trans (h ▸ List.dropWhile_suffix isSpace)

theorem suffix_tail_dropWhile (cs : List Char) : (cs.dropWhile isSpace).tail <:+ cs :=
  (List.tail_suffix _).trans (List.dropWhile_suffix isSpace)

theorem suffix_stripPrefix {p cs r : List Char} (h : stripPrefix p cs = some r) : r <:+ cs :=
  ⟨p, (stripPrefix_eq_some.mp h).symm⟩

theorem readChars_suffix {st : CharState} {cs : List Char} {r : List Char × List Char}
    (h : readChars st cs = some r) : r.2 <:+ cs := by
  induction cs generalizing st r with
  | nil => cases h
  | cons c cs ih =>
    rw [readChars] at h
    split_ifs at h
    · obtain rfl := Option.some.inj h
      exact List.suffix_cons c cs
    · obtain ⟨step, -, h⟩ := Option.bind_eq_some_iff.mp h
      obtain ⟨p, hp, rfl⟩ := Option.map_eq_some_iff.mp h
      exact (ih hp).trans (List.suffix_cons c cs)

theorem spanDigits_suffix (cs : List Char) : (spanDigits cs).2 <:+ cs :=
  List.dropWhile_suffix Char.isDigit

theorem readMinus_suffix (cs : List Char) : (readMinus cs).2 <:+ cs := by
  cases cs with
  | nil => exact List.suffix_refl _
  | cons c cs =>
    rw [readMinus]
    split_ifs
    · exact List.suffix_cons c cs
    · exact List.suffix_refl _

theorem readSign_suffix (cs : List Char) : (readSign cs).2 <:+ cs := by
  cases cs with
  | nil => exact List.suffix_refl _
  | cons c cs =>
    rw [readSign]
    split_ifs
    · exact List.suffix_cons c cs
    · exact List.suffix_cons c cs
    · exact List.suffix_refl _

theorem readFraction_suffix {cs : List Char} {r : Option (List Char) × List Char}
    (h : readFraction cs = some r) : r.2 <:+ cs := by
  cases cs with
  | nil =>
    obtain rfl := Option.some.inj h
    exact List.suffix_refl _
  | cons c cs =>
    rw [readFraction] at h
    dsimp only at h
    split_ifs at h
    · obtain rfl := Option.some.inj h
      exact (spanDigits_suffix cs).trans (List.suffix_cons c cs)
    · obtain rfl := Option.some.inj h
      exact List.suffix_refl _

theorem readExponent_suffix {cs : List Char} {r : Option ℤ × List Char}
    (h : readExponent cs = some r) : r.2 <:+ cs := by
  cases cs with
  | nil =>
    obtain rfl := Option.some.inj h
    exact List.suffix_refl _
  | cons c cs =>
    rw [readExponent] at h
    dsimp only at h
    have hrest : (spanDigits (readSign cs).2).2 <:+ c :: cs :=
      ((spanDigits_suffix _).trans (readSign_suffix cs)).trans (List.suffix_cons c cs)
    split_ifs at h
    · obtain rfl := Option.some.inj h
      exact hrest
    · obtain rfl := Option.some.inj h
      exact hrest
    · obtain rfl := Option.some.inj h
      exact List.suffix_refl _

theorem readNumber_suffix {cs : List Char} {r : Number × List Char} (h : readNumber cs = some r) :
    r.2 <:+ cs := by
  unfold readNumber at h
  dsimp only at h
  split_ifs at h
  obtain ⟨f, hf, h⟩ := Option.bind_eq_some_iff.mp h
  obtain ⟨e, he, rfl⟩ := Option.map_eq_some_iff.mp h
  exact (readExponent_suffix he).trans ((readFraction_suffix hf).trans
    ((spanDigits_suffix _).trans (readMinus_suffix cs)))

/-- **What is left over of a text that is read is an end of it**, by induction on the number of
steps. -/
theorem read_suffix (n : ℕ) :
    (∀ d cs r, readValue n d cs = some r → r.2 <:+ cs) ∧
    (∀ d cs r, readTail n d cs = some r → r.2 <:+ cs) ∧
    (∀ d cs r, readEntry n d cs = some r → r.2 <:+ cs) ∧
    (∀ d cs r, readEntries n d cs = some r → r.2 <:+ cs) := by
  induction n with
  | zero =>
    refine ⟨?_, ?_, ?_, ?_⟩
    all_goals
      intro d cs r h
      first
        | exact absurd h (by simp [readValue])
        | exact absurd h (by simp [readTail])
        | exact absurd h (by simp [readEntry])
        | exact absurd h (by simp [readEntries])
  | succ n ih =>
    obtain ⟨ihv, iht, ihe, ihes⟩ := ih
    refine ⟨?_, ?_, ?_, ?_⟩
    · intro d cs r h
      rw [readValue] at h
      cases hcs : cs.dropWhile isSpace with
      | nil =>
        rw [hcs] at h
        cases h
      | cons c cs' =>
        rw [hcs] at h
        dsimp only at h
        refine List.IsSuffix.trans ?_ (hcs ▸ List.dropWhile_suffix isSpace : c :: cs' <:+ cs)
        have hrest := List.suffix_cons c cs'
        split_ifs at h
        · obtain ⟨s, hs, rfl⟩ := Option.map_eq_some_iff.mp h
          exact (suffix_stripPrefix hs).trans hrest
        · obtain ⟨s, hs, rfl⟩ := Option.map_eq_some_iff.mp h
          exact (suffix_stripPrefix hs).trans hrest
        · obtain ⟨s, hs, rfl⟩ := Option.map_eq_some_iff.mp h
          exact (suffix_stripPrefix hs).trans hrest
        · obtain ⟨s, hs, rfl⟩ := Option.map_eq_some_iff.mp h
          exact (readChars_suffix hs).trans hrest
        · obtain rfl := Option.some.inj h
          exact (suffix_tail_dropWhile cs').trans hrest
        · obtain ⟨p, hp, h⟩ := Option.bind_eq_some_iff.mp h
          obtain ⟨q, hq, rfl⟩ := Option.map_eq_some_iff.mp h
          exact ((iht _ _ _ hq).trans (ihv _ _ _ hp)).trans hrest
        · obtain rfl := Option.some.inj h
          exact (suffix_tail_dropWhile cs').trans hrest
        · obtain ⟨p, hp, h⟩ := Option.bind_eq_some_iff.mp h
          obtain ⟨q, hq, rfl⟩ := Option.map_eq_some_iff.mp h
          exact ((ihes _ _ _ hq).trans (ihe _ _ _ hp)).trans hrest
        · obtain ⟨s, hs, rfl⟩ := Option.map_eq_some_iff.mp h
          exact readNumber_suffix hs
    · intro d cs r h
      rw [readTail] at h
      cases hcs : cs.dropWhile isSpace with
      | nil =>
        rw [hcs] at h
        cases h
      | cons c cs' =>
        rw [hcs] at h
        dsimp only at h
        refine List.IsSuffix.trans ?_ (suffix_of_token hcs)
        split_ifs at h
        · obtain rfl := Option.some.inj h
          exact List.suffix_refl _
        · obtain ⟨p, hp, h⟩ := Option.bind_eq_some_iff.mp h
          obtain ⟨q, hq, rfl⟩ := Option.map_eq_some_iff.mp h
          exact (iht _ _ _ hq).trans (ihv _ _ _ hp)
    · intro d cs r h
      rw [readEntry] at h
      cases hcs : cs.dropWhile isSpace with
      | nil =>
        rw [hcs] at h
        cases h
      | cons c cs' =>
        rw [hcs] at h
        dsimp only at h
        refine List.IsSuffix.trans ?_ (suffix_of_token hcs)
        split_ifs at h
        obtain ⟨p, hp, h⟩ := Option.bind_eq_some_iff.mp h
        split_ifs at h
        obtain ⟨q, hq, rfl⟩ := Option.map_eq_some_iff.mp h
        exact ((ihv _ _ _ hq).trans (suffix_tail_dropWhile p.2)).trans (readChars_suffix hp)
    · intro d cs r h
      rw [readEntries] at h
      cases hcs : cs.dropWhile isSpace with
      | nil =>
        rw [hcs] at h
        cases h
      | cons c cs' =>
        rw [hcs] at h
        dsimp only at h
        refine List.IsSuffix.trans ?_ (suffix_of_token hcs)
        split_ifs at h
        · obtain rfl := Option.some.inj h
          exact List.suffix_refl _
        · obtain ⟨p, hp, h⟩ := Option.bind_eq_some_iff.mp h
          obtain ⟨q, hq, rfl⟩ := Option.map_eq_some_iff.mp h
          exact (ihes _ _ _ hq).trans (ihe _ _ _ hp)

/-! ### Closing brackets -/

theorem readTail_closed {n d : ℕ} {cs : List Char} {r : List Value × List Char}
    (h : readTail n d cs = some r) : ']' :: r.2 <:+ cs := by
  induction n generalizing cs r with
  | zero => exact absurd h (by simp [readTail])
  | succ n ih =>
    rw [readTail] at h
    cases hcs : cs.dropWhile isSpace with
    | nil =>
      rw [hcs] at h
      cases h
    | cons c cs' =>
      rw [hcs] at h
      dsimp only at h
      split_ifs at h with hc
      · obtain rfl := Option.some.inj h
        subst hc
        exact hcs ▸ List.dropWhile_suffix isSpace
      · obtain ⟨p, hp, h⟩ := Option.bind_eq_some_iff.mp h
        obtain ⟨q, hq, rfl⟩ := Option.map_eq_some_iff.mp h
        exact ((ih hq).trans ((read_suffix n).1 _ _ _ hp)).trans (suffix_of_token hcs)

theorem readEntries_closed {n d : ℕ} {cs : List Char} {r : List (String × Value) × List Char}
    (h : readEntries n d cs = some r) : '\x7d' :: r.2 <:+ cs := by
  induction n generalizing cs r with
  | zero => exact absurd h (by simp [readEntries])
  | succ n ih =>
    rw [readEntries] at h
    cases hcs : cs.dropWhile isSpace with
    | nil =>
      rw [hcs] at h
      cases h
    | cons c cs' =>
      rw [hcs] at h
      dsimp only at h
      split_ifs at h with hc
      · obtain rfl := Option.some.inj h
        subst hc
        exact hcs ▸ List.dropWhile_suffix isSpace
      · obtain ⟨p, hp, h⟩ := Option.bind_eq_some_iff.mp h
        obtain ⟨q, hq, rfl⟩ := Option.map_eq_some_iff.mp h
        exact ((ih hq).trans ((read_suffix n).2.2.1 _ _ _ hp)).trans (suffix_of_token hcs)

theorem suffix_of_head {cs : List Char} {x : Char}
    (h : (cs.dropWhile isSpace).head? = some x) : x :: (cs.dropWhile isSpace).tail <:+ cs := by
  rw [List.cons_head?_tail h]
  exact List.dropWhile_suffix isSpace

/-- The text of an array or an object is closed by a bracket. -/
theorem readValue_closed {n d : ℕ} {cs : List Char} {r : Value × List Char}
    (h : readValue n d cs = some r) (hr : r.1.asArray.isSome ∨ r.1.asObject.isSome) :
    ∃ x, (x = ']' ∨ x = '\x7d') ∧ x :: r.2 <:+ cs := by
  cases n with
  | zero => exact absurd h (by simp [readValue])
  | succ n =>
    rw [readValue] at h
    cases hcs : cs.dropWhile isSpace with
    | nil =>
      rw [hcs] at h
      cases h
    | cons c cs' =>
      rw [hcs] at h
      dsimp only at h
      have hrest := suffix_of_token hcs
      have hleaf {v : Value} (harray : v.asArray = none) (hobject : v.asObject = none)
          (hv : r.1 = v) : ∃ x, (x = ']' ∨ x = '\x7d') ∧ x :: r.2 <:+ cs := by
        rw [hv, harray, hobject] at hr
        simp at hr
      split_ifs at h with h1 h2 h3 h4 h5 h6 h7 h8 h9 h10
      · obtain ⟨s, -, rfl⟩ := Option.map_eq_some_iff.mp h
        exact hleaf rfl rfl rfl
      · obtain ⟨s, -, rfl⟩ := Option.map_eq_some_iff.mp h
        exact hleaf rfl rfl rfl
      · obtain ⟨s, -, rfl⟩ := Option.map_eq_some_iff.mp h
        exact hleaf rfl rfl rfl
      · obtain ⟨s, -, rfl⟩ := Option.map_eq_some_iff.mp h
        exact hleaf rfl rfl rfl
      · obtain rfl := Option.some.inj h
        exact ⟨']', Or.inl rfl, (suffix_of_head h7).trans hrest⟩
      · obtain ⟨p, hp, h⟩ := Option.bind_eq_some_iff.mp h
        obtain ⟨q, hq, rfl⟩ := Option.map_eq_some_iff.mp h
        exact ⟨']', Or.inl rfl,
          ((readTail_closed hq).trans ((read_suffix n).1 _ _ _ hp)).trans hrest⟩
      · obtain rfl := Option.some.inj h
        exact ⟨'\x7d', Or.inr rfl, (suffix_of_head h10).trans hrest⟩
      · obtain ⟨p, hp, h⟩ := Option.bind_eq_some_iff.mp h
        obtain ⟨q, hq, rfl⟩ := Option.map_eq_some_iff.mp h
        exact ⟨'\x7d', Or.inr rfl,
          ((readEntries_closed hq).trans ((read_suffix n).2.2.1 _ _ _ hp)).trans hrest⟩
      · obtain ⟨s, -, rfl⟩ := Option.map_eq_some_iff.mp h
        exact hleaf rfl rfl rfl

/-! ### A text before a line -/

section

variable (t : List Char)

theorem dropWhile_isSpace_append {cs cs' : List Char} {c : Char}
    (h : cs.dropWhile isSpace = c :: cs') :
    (cs ++ t).dropWhile isSpace = c :: (cs' ++ t) := by
  rw [List.dropWhile_append, h]
  rfl

theorem head_extend {cs : List Char} {x : Char} (h : (cs.dropWhile isSpace).head? = some x) :
    ((cs ++ t).dropWhile isSpace).head? = some x ∧
      ((cs ++ t).dropWhile isSpace).tail = (cs.dropWhile isSpace).tail ++ t := by
  cases hcs : cs.dropWhile isSpace with
  | nil =>
    rw [hcs] at h
    cases h
  | cons c cs' =>
    rw [hcs] at h
    rw [dropWhile_isSpace_append t hcs]
    exact ⟨h, rfl⟩

theorem head_ne_extend {cs : List Char} {x : Char} (hne : cs.dropWhile isSpace ≠ [])
    (h : (cs.dropWhile isSpace).head? ≠ some x) :
    ((cs ++ t).dropWhile isSpace).head? ≠ some x := by
  obtain ⟨c, cs', hcs⟩ := List.exists_cons_of_ne_nil hne
  rw [hcs] at h
  rwa [dropWhile_isSpace_append t hcs]

theorem readValue_ne_nil {n d : ℕ} {cs : List Char} {r : Value × List Char}
    (h : readValue n d cs = some r) : cs.dropWhile isSpace ≠ [] := by
  intro hnil
  cases n with
  | zero => exact absurd h (by simp [readValue])
  | succ n => exact absurd h (by simp [readValue, hnil])

theorem readEntry_ne_nil {n d : ℕ} {cs : List Char} {r : (String × Value) × List Char}
    (h : readEntry n d cs = some r) : cs.dropWhile isSpace ≠ [] := by
  intro hnil
  cases n with
  | zero => exact absurd h (by simp [readEntry])
  | succ n => exact absurd h (by simp [readEntry, hnil])

theorem stripPrefix_extend {p cs r : List Char} (h : stripPrefix p cs = some r) :
    stripPrefix p (cs ++ t) = some (r ++ t) := by
  rw [stripPrefix_eq_some.mp h, List.append_assoc, stripPrefix_append]

theorem readChars_extend {st : CharState} {cs : List Char} {r : List Char × List Char}
    (h : readChars st cs = some r) : readChars st (cs ++ t) = some (r.1, r.2 ++ t) := by
  induction cs generalizing st r with
  | nil => cases h
  | cons c cs ih =>
    rw [readChars] at h
    rw [List.cons_append, readChars]
    split_ifs at h ⊢ with hquote
    · obtain rfl := Option.some.inj h
      rfl
    · obtain ⟨step, hstep, h⟩ := Option.bind_eq_some_iff.mp h
      obtain ⟨p, hp, rfl⟩ := Option.map_eq_some_iff.mp h
      rw [hstep, Option.bind_some, ih hp]
      rfl

theorem spanDigits_extend (cs : List Char) :
    spanDigits (cs ++ '\n' :: t) = ((spanDigits cs).1, (spanDigits cs).2 ++ '\n' :: t) := by
  induction cs with
  | nil => rfl
  | cons c cs ih =>
    unfold spanDigits at ih ⊢
    rw [Prod.mk.injEq] at ih
    by_cases hc : c.isDigit = true
    · simp [hc, ih.1, ih.2]
    · simp [hc]

theorem readMinus_extend (cs : List Char) :
    readMinus (cs ++ '\n' :: t) = ((readMinus cs).1, (readMinus cs).2 ++ '\n' :: t) := by
  cases cs with
  | nil => rfl
  | cons c cs =>
    rw [List.cons_append, readMinus, readMinus]
    split_ifs <;> rfl

theorem readSign_extend (cs : List Char) :
    readSign (cs ++ '\n' :: t) = ((readSign cs).1, (readSign cs).2 ++ '\n' :: t) := by
  cases cs with
  | nil => rfl
  | cons c cs =>
    rw [List.cons_append, readSign, readSign]
    split_ifs <;> rfl

theorem readFraction_extend {cs : List Char} {r : Option (List Char) × List Char}
    (h : readFraction cs = some r) :
    readFraction (cs ++ '\n' :: t) = some (r.1, r.2 ++ '\n' :: t) := by
  cases cs with
  | nil =>
    obtain rfl := Option.some.inj h
    rfl
  | cons c cs =>
    rw [readFraction] at h
    rw [List.cons_append, readFraction]
    dsimp only at h ⊢
    rw [spanDigits_extend]
    dsimp only
    split_ifs at h ⊢
    · obtain rfl := Option.some.inj h
      rfl
    · obtain rfl := Option.some.inj h
      rfl

theorem readExponent_extend {cs : List Char} {r : Option ℤ × List Char}
    (h : readExponent cs = some r) :
    readExponent (cs ++ '\n' :: t) = some (r.1, r.2 ++ '\n' :: t) := by
  cases cs with
  | nil =>
    obtain rfl := Option.some.inj h
    rfl
  | cons c cs =>
    rw [readExponent] at h
    rw [List.cons_append, readExponent]
    dsimp only at h ⊢
    rw [readSign_extend]
    dsimp only
    rw [spanDigits_extend]
    dsimp only
    split_ifs at h ⊢
    all_goals
      obtain rfl := Option.some.inj h
      rfl

theorem readNumber_extend {cs : List Char} {r : Number × List Char} (h : readNumber cs = some r) :
    readNumber (cs ++ '\n' :: t) = some (r.1, r.2 ++ '\n' :: t) := by
  unfold readNumber at h ⊢
  rw [readMinus_extend]
  dsimp only at h ⊢
  rw [spanDigits_extend]
  dsimp only
  split_ifs at h ⊢
  obtain ⟨f, hf, h⟩ := Option.bind_eq_some_iff.mp h
  obtain ⟨e, he, rfl⟩ := Option.map_eq_some_iff.mp h
  rw [readFraction_extend t hf, Option.bind_some, readExponent_extend t he]
  rfl

/-- **A text that is read is read the same before a line**, and in more steps, by induction on the
number of steps. -/
theorem read_extend (n : ℕ) :
    (∀ m d cs r, n ≤ m → readValue n d cs = some r →
      readValue m d (cs ++ '\n' :: t) = some (r.1, r.2 ++ '\n' :: t)) ∧
    (∀ m d cs r, n ≤ m → readTail n d cs = some r →
      readTail m d (cs ++ '\n' :: t) = some (r.1, r.2 ++ '\n' :: t)) ∧
    (∀ m d cs r, n ≤ m → readEntry n d cs = some r →
      readEntry m d (cs ++ '\n' :: t) = some (r.1, r.2 ++ '\n' :: t)) ∧
    (∀ m d cs r, n ≤ m → readEntries n d cs = some r →
      readEntries m d (cs ++ '\n' :: t) = some (r.1, r.2 ++ '\n' :: t)) := by
  induction n with
  | zero =>
    refine ⟨?_, ?_, ?_, ?_⟩
    all_goals
      intro m d cs r _ h
      first
        | exact absurd h (by simp [readValue])
        | exact absurd h (by simp [readTail])
        | exact absurd h (by simp [readEntry])
        | exact absurd h (by simp [readEntries])
  | succ n ih =>
    obtain ⟨ihv, iht, ihe, ihes⟩ := ih
    refine ⟨?_, ?_, ?_, ?_⟩
    · intro m d cs r hm h
      obtain ⟨m, rfl⟩ := Nat.exists_eq_succ_of_ne_zero (Nat.ne_zero_of_lt hm)
      have hm := Nat.le_of_succ_le_succ hm
      rw [readValue] at h ⊢
      cases hcs : cs.dropWhile isSpace with
      | nil =>
        rw [hcs] at h
        cases h
      | cons c cs' =>
        rw [hcs] at h
        rw [dropWhile_isSpace_append _ hcs]
        dsimp only at h ⊢
        split_ifs at h with h1 h2 h3 h4 h5 h6 h7 h8 h9 h10
        · obtain ⟨s, hs, rfl⟩ := Option.map_eq_some_iff.mp h
          rw [if_pos h1, stripPrefix_extend _ hs]
          rfl
        · obtain ⟨s, hs, rfl⟩ := Option.map_eq_some_iff.mp h
          rw [if_neg h1, if_pos h2, stripPrefix_extend _ hs]
          rfl
        · obtain ⟨s, hs, rfl⟩ := Option.map_eq_some_iff.mp h
          rw [if_neg h1, if_neg h2, if_pos h3, stripPrefix_extend _ hs]
          rfl
        · obtain ⟨s, hs, rfl⟩ := Option.map_eq_some_iff.mp h
          rw [if_neg h1, if_neg h2, if_neg h3, if_pos h4, readChars_extend _ hs]
          rfl
        · obtain rfl := Option.some.inj h
          obtain ⟨hhead, htail⟩ := head_extend ('\n' :: t) h7
          rw [if_neg h1, if_neg h2, if_neg h3, if_neg h4, if_pos h5, if_neg h6, if_pos hhead, htail]
        · obtain ⟨p, hp, h⟩ := Option.bind_eq_some_iff.mp h
          obtain ⟨q, hq, rfl⟩ := Option.map_eq_some_iff.mp h
          rw [if_neg h1, if_neg h2, if_neg h3, if_neg h4, if_pos h5, if_neg h6,
            if_neg (head_ne_extend _ (readValue_ne_nil hp) h7), ihv _ _ _ _ hm hp,
            Option.bind_some, iht _ _ _ _ hm hq]
          rfl
        · obtain rfl := Option.some.inj h
          obtain ⟨hhead, htail⟩ := head_extend ('\n' :: t) h10
          rw [if_neg h1, if_neg h2, if_neg h3, if_neg h4, if_neg h5, if_pos h8, if_neg h9,
            if_pos hhead, htail]
        · obtain ⟨p, hp, h⟩ := Option.bind_eq_some_iff.mp h
          obtain ⟨q, hq, rfl⟩ := Option.map_eq_some_iff.mp h
          rw [if_neg h1, if_neg h2, if_neg h3, if_neg h4, if_neg h5, if_pos h8, if_neg h9,
            if_neg (head_ne_extend _ (readEntry_ne_nil hp) h10), ihe _ _ _ _ hm hp,
            Option.bind_some, ihes _ _ _ _ hm hq]
          rfl
        · obtain ⟨s, hs, rfl⟩ := Option.map_eq_some_iff.mp h
          rw [if_neg h1, if_neg h2, if_neg h3, if_neg h4, if_neg h5, if_neg h8, ← List.cons_append,
            readNumber_extend _ hs]
          rfl
    · intro m d cs r hm h
      obtain ⟨m, rfl⟩ := Nat.exists_eq_succ_of_ne_zero (Nat.ne_zero_of_lt hm)
      have hm := Nat.le_of_succ_le_succ hm
      rw [readTail] at h ⊢
      cases hcs : cs.dropWhile isSpace with
      | nil =>
        rw [hcs] at h
        cases h
      | cons c cs' =>
        rw [hcs] at h
        rw [dropWhile_isSpace_append _ hcs]
        dsimp only at h ⊢
        split_ifs at h ⊢
        · obtain rfl := Option.some.inj h
          rfl
        · obtain ⟨p, hp, h⟩ := Option.bind_eq_some_iff.mp h
          obtain ⟨q, hq, rfl⟩ := Option.map_eq_some_iff.mp h
          rw [ihv _ _ _ _ hm hp, Option.bind_some, iht _ _ _ _ hm hq]
          rfl
    · intro m d cs r hm h
      obtain ⟨m, rfl⟩ := Nat.exists_eq_succ_of_ne_zero (Nat.ne_zero_of_lt hm)
      have hm := Nat.le_of_succ_le_succ hm
      rw [readEntry] at h ⊢
      cases hcs : cs.dropWhile isSpace with
      | nil =>
        rw [hcs] at h
        cases h
      | cons c cs' =>
        rw [hcs] at h
        rw [dropWhile_isSpace_append _ hcs]
        dsimp only at h ⊢
        split_ifs at h ⊢
        obtain ⟨p, hp, h⟩ := Option.bind_eq_some_iff.mp h
        split_ifs at h with hcolon
        obtain ⟨q, hq, rfl⟩ := Option.map_eq_some_iff.mp h
        obtain ⟨hhead, htail⟩ := head_extend ('\n' :: t) hcolon
        rw [readChars_extend _ hp, Option.bind_some, if_pos hhead, htail, ihv _ _ _ _ hm hq]
        rfl
    · intro m d cs r hm h
      obtain ⟨m, rfl⟩ := Nat.exists_eq_succ_of_ne_zero (Nat.ne_zero_of_lt hm)
      have hm := Nat.le_of_succ_le_succ hm
      rw [readEntries] at h ⊢
      cases hcs : cs.dropWhile isSpace with
      | nil =>
        rw [hcs] at h
        cases h
      | cons c cs' =>
        rw [hcs] at h
        rw [dropWhile_isSpace_append _ hcs]
        dsimp only at h ⊢
        split_ifs at h ⊢
        · obtain rfl := Option.some.inj h
          rfl
        · obtain ⟨p, hp, h⟩ := Option.bind_eq_some_iff.mp h
          obtain ⟨q, hq, rfl⟩ := Option.map_eq_some_iff.mp h
          rw [ihe _ _ _ _ hm hp, Option.bind_some, ihes _ _ _ _ hm hq]
          rfl

end

theorem readText_alone {cs cs' t : List Char} (h : (readText cs).isSome)
    (h' : (readText cs').isSome) : readText (cs ++ '\n' :: (cs' ++ t)) = none := by
  obtain ⟨v, hv⟩ := Option.isSome_iff_exists.mp h
  obtain ⟨v', hv'⟩ := Option.isSome_iff_exists.mp h'
  obtain ⟨r, hr, -⟩ := Option.bind_eq_some_iff.mp hv
  obtain ⟨r', hr', -⟩ := Option.bind_eq_some_iff.mp hv'
  have hsteps : 2 * cs.length + 1 ≤ 2 * (cs ++ '\n' :: (cs' ++ t)).length + 1 := by
    rw [List.length_append]
    omega
  have hread := (read_extend (cs' ++ t) _).1 _ _ _ _ hsteps hr
  rw [readText, hread, Option.bind_some]
  refine if_neg fun hspaces => readValue_ne_nil hr' ?_
  rw [List.dropWhile_eq_nil_iff]
  intro c hc
  refine List.all_eq_true.mp hspaces c ?_
  simp [hc]

theorem bytes_of_isSpace {c : Char} (h : isSpace c = true) :
    ∀ x ∈ String.utf8EncodeChar c, x = 32 ∨ x = 9 ∨ x = 10 ∨ x = 13 := by
  simp only [isSpace, Bool.or_eq_true, decide_eq_true_eq] at h
  rcases h with ((rfl | rfl) | rfl) | rfl
  · exact fun x hx => Or.inl (List.mem_singleton.mp hx)
  · exact fun x hx => Or.inr (Or.inr (Or.inl (List.mem_singleton.mp hx)))
  · exact fun x hx => Or.inr (Or.inr (Or.inr (List.mem_singleton.mp hx)))
  · exact fun x hx => Or.inr (Or.inl (List.mem_singleton.mp hx))

/-- **The reference codec is lawful** about the ends of texts. -/
theorem reference_lawfulEnd : reference.LawfulEnd where
  closed := by
    intro b v h hv
    obtain ⟨s, hs, h⟩ := Option.bind_eq_some_iff.mp h
    obtain ⟨r, hr, h⟩ := Option.bind_eq_some_iff.mp h
    split_ifs at h with hspaces
    obtain rfl := Option.some.inj h
    obtain ⟨x, hx, before, hbefore⟩ := readValue_closed hr hv
    have hblank : (r.2.flatMap String.utf8EncodeChar).reverse.find?
        (fun x => x ≠ 32 ∧ x ≠ 9 ∧ x ≠ 10 ∧ x ≠ 13) = none := by
      rw [List.find?_eq_none]
      intro y hy
      obtain ⟨ch, hch, hy⟩ := List.mem_flatMap.mp (List.mem_reverse.mp hy)
      have hspace := bytes_of_isSpace (List.all_eq_true.mp hspaces ch hch) y hy
      rcases hspace with rfl | rfl | rfl | rfl <;> decide
    have hbytes : b = before.flatMap String.utf8EncodeChar ++
        (String.utf8EncodeChar x ++ r.2.flatMap String.utf8EncodeChar) := by
      rw [fromUtf8_eq_some.mp hs, asBytes, ← hbefore, List.flatMap_append, List.flatMap_cons]
    rw [hbytes, List.reverse_append, List.reverse_append, List.append_assoc, List.find?_append,
      hblank, Option.none_or]
    obtain rfl | rfl := hx
    · exact Or.inl rfl
    · exact Or.inr rfl
  alone := by
    intro a b rest ha hb
    obtain ⟨v, hv⟩ := Option.isSome_iff_exists.mp ha
    obtain ⟨w, hw⟩ := Option.isSome_iff_exists.mp hb
    obtain ⟨s, hs, hread⟩ := Option.bind_eq_some_iff.mp hv
    obtain ⟨s', hs', hread'⟩ := Option.bind_eq_some_iff.mp hw
    obtain rfl := fromUtf8_eq_some.mp hs
    obtain rfl := fromUtf8_eq_some.mp hs'
    have hline : ∀ t : Bytes, decodeLossy 0 (10 :: t) = '\n' :: decodeLossy 0 t :=
      decodeLossy_asBytes "\n"
    rw [reference_eq_direct]
    unfold direct
    dsimp only
    rw [decodeLossy_asBytes, hline, decodeLossy_asBytes]
    split_ifs
    · exact readText_alone (Option.isSome_of_eq_some hread) (Option.isSome_of_eq_some hread')
    · rfl

end Json
